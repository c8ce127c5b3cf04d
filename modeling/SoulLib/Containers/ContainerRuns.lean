import Mathlib.Data.List.Dedup
import SoulLib.Containers.Adapters
import SoulLib.Semantics.Runs

/-! Containers of every kind after the same calls.

The deque and the stack keep the elements in the order in which they came, and the
others show them sorted, reversed, without what is there twice, or in any order.
-/

set_option autoImplicit false

namespace SoulLib.Containers

open SoulLib.Semantics (System)

variable {T : Type} {less : T → T → Bool}

structure Kinds (less : T → T → Bool) where
  deque : SoulDeque T := {}
  stack : SoulStack T := {}
  forwardList : SoulForwardList T := {}
  queue : SoulPriorityQueue less := {}
  multiset : SoulMultiset T := {}
  set : SoulSet T := {}
  unorderedSet : SoulUnorderedSet T := {}

inductive KindsCall (T : Type) where
  | insert (value : T) (rehash : Rehash T)
  | insertRange (range : List T) (rehash : Rehash T)
  | remove (value : T)
  | sort (comp : T → T → Bool) (rehash : Rehash T)

namespace Kinds

variable [DecidableEq T] (algorithms : HeapAlgorithms less) (platform : Platform T) (kinds : Kinds less)

/-- A container without `insert_range` gets the values one by one. -/
def step : KindsCall T → Kinds less
  | .insert value rehash =>
      { deque := kinds.deque.insert value
        stack := kinds.stack.insert value
        forwardList := kinds.forwardList.insert value
        queue := kinds.queue.insert algorithms value
        multiset := kinds.multiset.insert less value
        set := kinds.set.insert less value
        unorderedSet := kinds.unorderedSet.insert rehash value }
  | .insertRange range rehash =>
      { deque := range.foldl SoulDeque.insert kinds.deque
        stack := range.foldl SoulStack.insert kinds.stack
        forwardList := range.foldl SoulForwardList.insert kinds.forwardList
        queue := range.foldl (SoulPriorityQueue.insert algorithms) kinds.queue
        multiset := kinds.multiset.insertRange less range
        set := kinds.set.insertRange less range
        unorderedSet := kinds.unorderedSet.insertRange rehash range }
  | .remove value =>
      { deque := kinds.deque.remove value
        stack := kinds.stack.remove value
        forwardList := kinds.forwardList.remove value
        queue := kinds.queue.remove algorithms value
        multiset := kinds.multiset.remove less value
        set := kinds.set.remove less value
        unorderedSet := kinds.unorderedSet.remove value }
  | .sort comp rehash =>
      { deque := kinds.deque.sort platform comp
        stack := kinds.stack.sort platform comp
        forwardList := kinds.forwardList.sort comp
        queue := kinds.queue.sort algorithms platform comp
        multiset := kinds.multiset.sort comp
        set := kinds.set.sort comp
        unorderedSet := kinds.unorderedSet.sort rehash platform comp }

def system : System (Kinds less) (KindsCall T) where
  step kinds call := some (kinds.step algorithms platform call)

/-- Sorts are by strict weak orders. -/
def Admits (_ : Kinds less) : KindsCall T → Prop
  | .sort comp _ => IsStrictWeakOrder T fun a b => comp a b = true
  | _ => True

/-- What every container has of the elements of the deque. -/
structure Hold : Prop where
  stack : kinds.stack.getAll = kinds.deque.data
  forwardList : kinds.forwardList.data.Perm kinds.deque.data
  queue : kinds.queue.data.elements.Perm kinds.deque.data
  multiset : kinds.multiset.data.Perm kinds.deque.data
  inOrder : InOrder less kinds.multiset.data
  set : ∀ value, value ∈ kinds.set.data ↔ value ∈ kinds.deque.data
  strict : StrictlyInOrder less kinds.set.data
  unorderedSet : ∀ value, value ∈ kinds.unorderedSet.data ↔ value ∈ kinds.deque.data
  nodup : kinds.unorderedSet.data.Nodup

variable {algorithms platform kinds}

section Total

variable (total : IsStrictTotalOrder T fun a b => less a b = true)

include total

omit [DecidableEq T] in
theorem strictWeak : IsStrictWeakOrder T fun a b => less a b = true := isStrictWeakOrder_of_isOrderConnected

theorem equivalent_eq_beq (a b : T) : equivalent less a b = (a == b) := by
  have weak := strictWeak total
  rw [Bool.eq_iff_iff, equivalent_iff, beq_iff_eq]
  constructor
  · rintro ⟨notBefore, notAfter⟩
    exact total.trichotomous a b (by simpa using notBefore) (by simpa using notAfter)
  · rintro rfl
    exact ⟨less_irreflexive a, less_irreflexive a⟩

theorem eraseEquivalent_eq_filter (value : T) (list : List T) :
    eraseEquivalent less value list = list.filter fun element => !(element == value) := by
  rw [eraseEquivalent]
  exact List.filter_congr fun other _ => congrArg _ (equivalent_eq_beq total other value)

theorem mem_insertOr_self {value : T} (list : List T) (other : T) :
    other ∈ insertOr less (fun present => present) value list ↔ other = value ∨ other ∈ list := by
  induction list with
  | nil => exact List.mem_cons
  | cons first rest ih =>
      rw [insertOr]
      split
      · exact List.mem_cons
      · next notBefore =>
          split
          · rw [List.mem_cons, ih, List.mem_cons]
            tauto
          · next notAfter =>
              -- The element that is there is the value.
              have same : first = value := total.trichotomous first value notAfter notBefore
              subst same
              rw [List.mem_cons]
              tauto

end Total

theorem nodup_insert {set : SoulUnorderedSet T} (nodup : set.data.Nodup) (rehash : Rehash T) (value : T) :
    (set.insert rehash value).data.Nodup ∧
      ∀ other, other ∈ (set.insert rehash value).data ↔ other = value ∨ other ∈ set.data := by
  rw [SoulUnorderedSet.insert]
  split
  · next present =>
      obtain ⟨same, member, equal⟩ := List.any_eq_true.mp present
      rw [beq_iff_eq] at equal
      subst equal
      refine ⟨nodup, fun other => ⟨.inr, ?_⟩⟩
      rintro (rfl | member')
      · exact member
      · exact member'
  · next absent =>
      have fresh : value ∉ set.data := by
        intro member
        exact absent (List.any_eq_true.mpr ⟨value, member, beq_self_eq_true value⟩)
      have perm := rehash.perm (value :: set.data)
      refine ⟨perm.nodup_iff.mpr (List.nodup_cons.mpr ⟨fresh, nodup⟩), fun other => ?_⟩
      rw [perm.mem_iff, List.mem_cons]

theorem nodup_insertRange (range : List T) (set : SoulUnorderedSet T) (nodup : set.data.Nodup) (rehash : Rehash T) :
    (set.insertRange rehash range).data.Nodup ∧
      ∀ other, other ∈ (set.insertRange rehash range).data ↔ other ∈ range ∨ other ∈ set.data := by
  induction range generalizing set with
  | nil =>
      refine ⟨nodup, fun other => ?_⟩
      simp [SoulUnorderedSet.insertRange]
  | cons value range ih =>
      obtain ⟨single, members⟩ := nodup_insert nodup rehash value
      obtain ⟨whole, among⟩ := ih _ single
      refine ⟨whole, fun other => (among other).trans ?_⟩
      rw [members, List.mem_cons]
      tauto

section Calls

variable (total : IsStrictTotalOrder T fun a b => less a b = true) (hold : kinds.Hold)

include total hold

theorem Hold.insert (value : T) (rehash : Rehash T) : (kinds.step algorithms platform (.insert value rehash)).Hold := by
  have weak := strictWeak total
  obtain ⟨nodup, hashed⟩ := nodup_insert hold.nodup rehash value
  have behind : (kinds.deque.data ++ [value]).Perm (value :: kinds.deque.data) := List.perm_append_singleton _ _
  have within (other : T) : other ∈ kinds.deque.data ++ [value] ↔ other = value ∨ other ∈ kinds.deque.data := by
    rw [behind.mem_iff, List.mem_cons]
  exact {
    stack := by
      show (value :: kinds.stack.data).reverse = kinds.deque.data ++ [value]
      rw [List.reverse_cons]
      exact congrArg (· ++ [value]) hold.stack
    forwardList := (hold.forwardList.cons value).trans behind.symm
    queue := (algorithms.push_perm _ value).trans ((hold.queue.cons value).trans behind.symm)
    multiset := (insertBehind_perm value _).trans ((hold.multiset.cons value).trans behind.symm)
    inOrder := hold.inOrder.insertBehind
    set := fun other => by
      refine (mem_insertOr_self total _ other).trans (Iff.trans ?_ (within other).symm)
      rw [hold.set]
    strict := hold.strict.insertOr equivalent_self
    unorderedSet := fun other => by
      refine (hashed other).trans (Iff.trans ?_ (within other).symm)
      rw [hold.unorderedSet]
    nodup }

theorem Hold.insertRange (range : List T) (rehash : Rehash T) :
    (kinds.step algorithms platform (.insertRange range rehash)).Hold := by
  induction range generalizing kinds with
  | nil => exact hold
  | cons value range ih =>
      have first : (kinds.step algorithms platform (.insert value rehash)).Hold := hold.insert total value rehash
      exact ih first

theorem Hold.remove (value : T) : (kinds.step algorithms platform (.remove value)).Hold := by
  have kept (list : List T) (other : T) :
      other ∈ list.filter (fun element => !(element == value)) ↔ other ∈ list ∧ (!(other == value)) = true :=
    List.mem_filter
  have erased (list : List T) := eraseEquivalent_eq_filter total value list
  exact {
    stack := by
      show (SoulStack.fill _).getAll = _
      rw [SoulStack.getAll_fill, hold.stack]
      rfl
    forwardList := hold.forwardList.filter _
    queue := by
      have drained := (algorithms.drain_perm kinds.queue.data).trans hold.queue
      exact (SoulPriorityQueue.fill_perm algorithms _).trans (drained.filter _)
    multiset := by
      show (eraseEquivalent less value kinds.multiset.data).Perm _
      rw [erased]
      exact hold.multiset.filter _
    inOrder := hold.inOrder.sublist List.filter_sublist
    set := fun other => by
      show other ∈ eraseEquivalent less value kinds.set.data ↔ _
      rw [erased, kept, hold.set]
      exact (kept kinds.deque.data other).symm
    strict := hold.strict.sublist List.filter_sublist
    unorderedSet := fun other => by
      refine (kept kinds.unorderedSet.data other).trans ?_
      rw [hold.unorderedSet]
      exact (kept kinds.deque.data other).symm
    nodup := hold.nodup.filter _ }

omit total in
theorem Hold.sort (comp : T → T → Bool) (rehash : Rehash T) : (kinds.step algorithms platform (.sort comp rehash)).Hold := by
  have sorted : (platform.sort comp kinds.deque.data).Perm kinds.deque.data := platform.sort_perm comp _
  have arranged := platform.sort_perm comp kinds.unorderedSet.data
  obtain ⟨nodup, hashed⟩ := nodup_insertRange (platform.sort comp kinds.unorderedSet.data) {} .nil rehash
  exact {
    stack := by
      show (SoulStack.fill _).getAll = _
      rw [SoulStack.getAll_fill, hold.stack]
      rfl
    forwardList := (stableSort_perm _).trans (hold.forwardList.trans sorted.symm)
    queue := by
      have drained := (algorithms.drain_perm kinds.queue.data).trans hold.queue
      have resorted := (platform.sort_perm comp (algorithms.drain kinds.queue.data)).trans drained
      exact (SoulPriorityQueue.fill_perm algorithms _).trans (resorted.trans sorted.symm)
    multiset := hold.multiset.trans sorted.symm
    inOrder := hold.inOrder
    set := fun other => (hold.set other).trans sorted.symm.mem_iff
    strict := hold.strict
    unorderedSet := fun other => by
      refine (hashed other).trans ?_
      rw [arranged.mem_iff, hold.unorderedSet, sorted.symm.mem_iff]
      exact or_iff_left List.not_mem_nil
    nodup }

omit hold in
theorem Hold.reached (reach : (system algorithms platform).Reaches Admits {} kinds) : kinds.Hold := by
  have initially : Hold ({} : Kinds less) :=
    ⟨rfl, .refl _, .refl _, .refl _, .nil, fun _ => .rfl, .nil, fun _ => .rfl, .nil⟩
  refine reach.invariant initially ?_
  intro kinds call after _ hold admits done
  cases done
  cases call with
  | insert value rehash => exact hold.insert total value rehash
  | insertRange range rehash => exact hold.insertRange total range rehash
  | remove value => exact hold.remove total value
  | sort comp rehash => exact hold.sort comp rehash

end Calls

/-- After any calls each container shows the elements of the deque in its own way. -/
theorem contents_shown (total : IsStrictTotalOrder T fun a b => less a b = true)
    (reach : (system algorithms platform).Reaches Admits {} kinds) :
    kinds.stack.toContainer = kinds.deque.toContainer ∧
      kinds.multiset.toContainer = .ofList (stableSort less kinds.deque.getAll) ∧
      kinds.queue.toContainer algorithms = .ofList (stableSort less kinds.deque.getAll).reverse ∧
      kinds.set.toContainer = .ofList (stableSort less kinds.deque.getAll).dedup ∧
      kinds.unorderedSet.toContainer.Rearranged kinds.set.toContainer ∧
      kinds.forwardList.toContainer.Rearranged kinds.deque.toContainer ∧
      kinds.stack.peek = kinds.deque.getAll.getLast? ∧
      kinds.stack.pop.map SoulStack.getAll =
        if kinds.deque.getAll.isEmpty then none else some kinds.deque.getAll.dropLast := by
  have weak := strictWeak total
  have hold := Hold.reached total reach
  have ordered : kinds.multiset.data = stableSort less kinds.deque.data :=
    eq_stableSort_of_pairwise total hold.multiset hold.inOrder
  have sorted : InOrder less (stableSort less kinds.deque.data) := pairwise_stableSort _
  have distinct : kinds.set.data.Nodup := hold.strict.imp fun {a b} before same => by
    subst same
    cases (less_irreflexive a).symm.trans before
  have single : kinds.set.data.Perm (stableSort less kinds.deque.data).dedup := by
    refine (List.perm_ext_iff_of_nodup distinct (List.nodup_dedup _)).mpr fun value => ?_
    rw [hold.set, List.mem_dedup, (stableSort_perm _).mem_iff]
  -- a total order leaves one way to sort, so the heap empties in it
  have drained : kinds.queue.getAll algorithms = (stableSort less kinds.deque.data).reverse := by
    refine SoulPriorityQueue.getAll_eq_of_perm algorithms total ?_ (List.pairwise_reverse.mpr sorted)
    exact ((List.reverse_perm _).trans (stableSort_perm _)).trans hold.queue.symm
  -- both lists are sorted and have the same elements
  have unique : kinds.set.data = (stableSort less kinds.deque.data).dedup := by
    refine List.Perm.eq_of_pairwise ?_ hold.strict.inOrder (sorted.sublist (List.dedup_sublist _)) single
    intro a b _ _ notAfter notBefore
    exact total.trichotomous a b (by simpa using notBefore) (by simpa using notAfter)
  have hashed : kinds.unorderedSet.data.Perm kinds.set.data := by
    refine (List.perm_ext_iff_of_nodup hold.nodup distinct).mpr fun value => ?_
    rw [hold.unorderedSet, hold.set]
  have stack : kinds.stack.getAll = kinds.deque.getAll := hold.stack
  refine ⟨congrArg IContainer.ofList stack, congrArg IContainer.ofList ordered, congrArg IContainer.ofList drained,
    congrArg IContainer.ofList unique, IContainer.rearranged_ofList hashed,
    IContainer.rearranged_ofList hold.forwardList, ?_, ?_⟩
  · rw [SoulStack.peek_eq_getLast?, stack]
  · rw [SoulStack.pop_getAll, stack]

open SoulPriorityQueue (below below_total numbers)

def turned : Rehash Nat := ⟨List.reverse, List.reverse_perm⟩

theorem contents_shown_numbers : ∃ kinds : Kinds below, kinds.deque.getAll = [3, 4, 3, 2] ∧
    kinds.queue.getAll numbers = [4, 3, 3, 2] ∧ kinds.set.getAll = [2, 3, 4] ∧
      kinds.unorderedSet.getAll.Perm kinds.set.getAll ∧ kinds.stack.peek = some 2 := by
  have begun : (system numbers (.stable Nat)).Reaches Admits {} {} := .start
  have first := begun.andThen (.insert 3 turned) rfl trivial
  have second := first.andThen (.insertRange [5, 4, 3] turned) rfl trivial
  have removed := second.andThen (.remove 5) rfl trivial
  have reach := removed.andThen (.insert 2 turned) rfl trivial
  have sorted : [2, 3, 3, 4] = stableSort below [3, 4, 3, 2] :=
    eq_stableSort_of_pairwise below_total (by decide) (by decide)
  obtain ⟨-, -, queue, -, hashed, -, top, -⟩ := contents_shown below_total reach
  have drained := congrArg IContainer.getAll queue
  exact ⟨_, rfl, drained.trans (congrArg List.reverse sorted.symm), rfl, hashed.getAll, top⟩

end Kinds

end SoulLib.Containers
