import SoulLib.Containers.Associative
import SoulLib.Containers.BinaryHeap
import SoulLib.Semantics.Runs

/-! The adapters and the forward list.

A priority queue is drained through a copy to be looked at, and filled anew to remove
from it or to sort it. For a total order nothing of that shows: the queue is a list in
descending order.
-/

set_option autoImplicit false

namespace SoulLib.Containers

open SoulLib.Semantics (System)

variable {T : Type}

/-- The top of the stack comes first. -/
structure SoulStack (T : Type) where
  data : List T := []

namespace SoulStack

variable (this : SoulStack T)

def insert (value : T) : SoulStack T := ⟨value :: this.data⟩

/-- A copy is popped until it is empty, and what was popped is reversed. -/
def getAll : List T := this.data.reverse

def fill (values : List T) : SoulStack T := values.foldl insert {}

def remove [BEq T] (value : T) : SoulStack T := fill (this.getAll.filter fun element => !(element == value))

def sort (platform : Platform T) (comp : T → T → Bool) : SoulStack T := fill (platform.sort comp this.getAll)

def peek : Option T := this.data.head?

/-- To pop an empty stack is undefined. -/
def pop : Option (SoulStack T) := if this.data.isEmpty then none else some ⟨this.data.tail⟩

def toContainer : IContainer T := .ofList this.getAll

theorem getAll_fill (values : List T) : (fill values).getAll = values := by
  have grown : ∀ (values : List T) (this : SoulStack T), (values.foldl insert this).getAll = this.getAll ++ values := by
    intro values
    induction values with
    | nil => exact fun this => (List.append_nil _).symm
    | cons value values ih =>
        intro this
        rw [List.foldl_cons, ih, getAll, insert, List.reverse_cons, List.append_assoc]
        rfl
  exact grown values {}

theorem peek_eq_getLast? : this.peek = this.getAll.getLast? := by rw [peek, getAll, List.getLast?_reverse]

theorem pop_getAll : this.pop.map getAll = if this.getAll.isEmpty then none else some this.getAll.dropLast := by
  obtain ⟨data⟩ := this
  cases data with
  | nil => rfl
  | cons top rest => simp [pop, getAll]

end SoulStack

structure SoulForwardList (T : Type) where
  data : List T := []

namespace SoulForwardList

variable (this : SoulForwardList T)

def insert (value : T) : SoulForwardList T := ⟨value :: this.data⟩

def remove [BEq T] (value : T) : SoulForwardList T := ⟨this.data.filter fun element => !(element == value)⟩

def getAll : List T := this.data

/-- `std::forward_list::sort` is stable. -/
def sort (comp : T → T → Bool) : SoulForwardList T := ⟨stableSort comp this.data⟩

def toContainer : IContainer T := .ofList this.data

end SoulForwardList

structure SoulPriorityQueue (less : T → T → Bool) where
  data : HeapQueue less := .empty

namespace SoulPriorityQueue

variable {less : T → T → Bool} (algorithms : HeapAlgorithms less) (this : SoulPriorityQueue less)

def insert (value : T) : SoulPriorityQueue less := ⟨algorithms.push this.data value⟩

def getAll : List T := algorithms.drain this.data

def fill (values : List T) : SoulPriorityQueue less := values.foldl (insert algorithms) {}

def remove [BEq T] (value : T) : SoulPriorityQueue less :=
  fill algorithms ((this.getAll algorithms).filter fun element => !(element == value))

def sort (platform : Platform T) (comp : T → T → Bool) : SoulPriorityQueue less :=
  fill algorithms (platform.sort comp (this.getAll algorithms))

def peek : Option T := this.data.elements.head?

/-- To pop an empty queue is undefined. -/
def pop : Option (SoulPriorityQueue less) :=
  if this.data.elements.isEmpty then none else some ⟨algorithms.pop this.data⟩

def toContainer : IContainer T := .ofList (this.getAll algorithms)

inductive Call (T : Type) where
  | insert (value : T)
  | remove (value : T)
  | sort (comp : T → T → Bool)
  | pop

section Runs

variable [BEq T] (platform : Platform T)

def apply : Call T → Option (SoulPriorityQueue less)
  | .insert value => some (this.insert algorithms value)
  | .remove value => some (this.remove algorithms value)
  | .sort comp => some (this.sort algorithms platform comp)
  | .pop => this.pop algorithms

/-- A queue and the calls it has been through. -/
structure Used (less : T → T → Bool) where
  queue : SoulPriorityQueue less := {}
  calls : List (Call T) := []

def system : System (Used less) (Call T) where
  step used call := (apply algorithms used.queue platform call).map fun queue => ⟨queue, used.calls ++ [call]⟩

/-- Sorts are by strict weak orders. -/
def Admits (_ : Used less) : Call T → Prop
  | .sort comp => IsStrictWeakOrder T fun a b => comp a b = true
  | _ => True

/-- The queue as a list in descending order. -/
def descend (less : T → T → Bool) (list : List T) : Call T → Option (List T)
  | .insert value => some (insertBehind (fun a b => less b a) value list)
  | .remove value => some (list.filter fun element => !(element == value))
  | .sort _ => some list
  | .pop => if list.isEmpty then none else some list.tail

end Runs

section Contents

theorem getAll_perm : (this.getAll algorithms).Perm this.data.elements := algorithms.drain_perm _

theorem fill_perm (values : List T) : (fill algorithms values).data.elements.Perm values := by
  have grown : ∀ (values : List T) (this : SoulPriorityQueue less),
      (values.foldl (insert algorithms) this).data.elements.Perm (values ++ this.data.elements) := by
    intro values
    induction values with
    | nil => exact fun this => .refl _
    | cons value values ih =>
        intro this
        exact (ih _).trans (((algorithms.push_perm this.data value).append_left values).trans List.perm_middle)
  exact (grown values {}).trans (.of_eq (List.append_nil values))

theorem peek_eq_head? : this.peek = (this.getAll algorithms).head? := by
  rw [peek, getAll]
  cases filled : this.data.elements with
  | nil => rw [algorithms.drain_empty filled]
  | cons top rest => rw [algorithms.drain_pop filled, List.head?_cons, List.head?_cons]

theorem strictWeakOrder_of_total (total : IsStrictTotalOrder T fun a b => less a b = true) : StrictWeakOrder less where
  irreflexive a := by simpa using total.irrefl a
  transitive a b c := total.trans a b c
  negativelyTransitive a b c first second := by
    have weak : IsStrictWeakOrder T fun a b => less a b = true := isStrictWeakOrder_of_isOrderConnected
    exact not_less_transitive second first

variable {this} (total : IsStrictTotalOrder T fun a b => less a b = true)

include total

theorem getAll_eq_of_perm {list : List T} (perm : list.Perm this.data.elements)
    (descending : list.Pairwise fun earlier later => less earlier later = false) : this.getAll algorithms = list := by
  have drained := algorithms.drain_pairwise (strictWeakOrder_of_total total) this.data
  refine List.Perm.eq_of_pairwise ?_ drained descending ((getAll_perm algorithms this).trans perm.symm)
  intro a b _ _ notBelow notAbove
  exact total.trichotomous a b (by simpa using notBelow) (by simpa using notAbove)

theorem getAll_fill {values : List T} (descending : values.Pairwise fun earlier later => less earlier later = false)
    {others : List T} (perm : others.Perm values) : (fill algorithms others).getAll algorithms = values :=
  getAll_eq_of_perm algorithms total (perm.symm.trans (fill_perm algorithms others).symm) descending

theorem apply_getAll [BEq T] (platform : Platform T) (call : Call T) :
    (apply algorithms this platform call).map (getAll algorithms) = descend less (this.getAll algorithms) call := by
  have descending : (this.getAll algorithms).Pairwise fun earlier later => less earlier later = false :=
    algorithms.drain_pairwise (strictWeakOrder_of_total total) this.data
  cases call with
  | insert value =>
      have weak : IsStrictWeakOrder T fun a b => less a b = true := isStrictWeakOrder_of_isOrderConnected
      have reversed : IsStrictWeakOrder T fun a b => less b a = true := {
        irrefl := weak.irrefl
        trans := fun a b c first second => weak.trans c b a second first
        incomp_trans := fun a b c first second =>
          (weak.incomp_trans a b c first.symm second.symm).symm }
      have inOrder : InOrder (fun a b => less b a) (this.getAll algorithms) := descending
      have perm : (insertBehind (fun a b => less b a) value (this.getAll algorithms)).Perm
          (value :: this.getAll algorithms) := insertBehind_perm value _
      refine congrArg some (getAll_eq_of_perm algorithms total ?_ inOrder.insertBehind)
      exact perm.trans (((getAll_perm algorithms this).cons value).trans (algorithms.push_perm this.data value).symm)
  | remove value => exact congrArg some (getAll_fill algorithms total (descending.sublist List.filter_sublist) (.refl _))
  | sort comp => exact congrArg some (getAll_fill algorithms total descending (platform.sort_perm comp _))
  | pop =>
      rw [apply, descend, pop, getAll]
      cases filled : this.data.elements with
      | nil =>
          rw [algorithms.drain_empty filled]
          rfl
      | cons top rest =>
          rw [algorithms.drain_pop filled]
          rfl

/-- Whatever the heap does inside, after any calls the queue shows the list in descending order that the calls make,
with its first element on top, and sorting it changes nothing. -/
theorem getAll_run [BEq T] {platform : Platform T} {used : Used less}
    (reach : (system algorithms platform).Reaches Admits {} used) :
    used.calls.foldlM (descend less) [] = some (used.queue.getAll algorithms) ∧
      used.queue.peek = (used.queue.getAll algorithms).head? := by
  refine ⟨?_, peek_eq_head? algorithms _⟩
  induction reach with
  | start => exact congrArg some (algorithms.drain_empty rfl).symm
  | @next used after call _ _ taken ih =>
      obtain ⟨queue, applied, same⟩ := Option.map_eq_some_iff.mp taken
      cases same
      rw [List.foldlM_append, ih, Option.bind_eq_bind, Option.bind_some, List.foldlM_cons,
        ← apply_getAll algorithms total platform call, applied]
      rfl

end Contents

def below (a b : Nat) : Bool := decide (a < b)

theorem below_total : IsStrictTotalOrder Nat fun a b => below a b = true where
  irrefl a := by simp [below]
  trans a b c := by
    simp only [below, decide_eq_true_eq]
    omega
  trichotomous a b := by
    simp only [below, decide_eq_true_eq]
    omega

def numbers : HeapAlgorithms below := binaryHeap (strictWeakOrder_of_total below_total)

theorem getAll_run_numbers : ∃ used : Used below, (system numbers (.stable Nat)).Reaches Admits {} used ∧
    used.calls = [.insert 3, .insert 5, .pop, .insert 4, .sort below] ∧
      used.queue.getAll numbers = [4, 3] ∧ used.queue.peek = some 4 := by
  have total := below_total
  have weak : IsStrictWeakOrder Nat fun a b => below a b = true := isStrictWeakOrder_of_isOrderConnected
  have begun : (system numbers (.stable Nat)).Reaches Admits {} {} := .start
  have first := begun.andThen (.insert 3) rfl trivial
  have filled := first.andThen (.insert 5) rfl trivial
  have both := Option.some.inj ((getAll_run numbers total filled).1.symm.trans (rfl : _ = some [5, 3]))
  obtain ⟨queue, popped, -⟩ := Option.map_eq_some_iff.mp
    ((apply_getAll numbers total (.stable Nat) .pop).trans (by rw [both]; rfl))
  have second := filled.andThen .pop (congrArg (Option.map _) popped) trivial
  have third := second.andThen (.insert 4) rfl trivial
  have reach := third.andThen (.sort below) rfl weak
  obtain ⟨shown, top⟩ := getAll_run numbers total reach
  have left := Option.some.inj (shown.symm.trans (rfl : _ = some [4, 3]))
  refine ⟨_, reach, rfl, left, ?_⟩
  rw [top, left]
  rfl

end SoulPriorityQueue

end SoulLib.Containers
