import SoulLib.Containers.FlatMapRefinement

/-! Sorting a flat map.

`sort` reorders the vector in which all other operations search. A vector in which
every stored key is still found is in the order of the keys, so a sort that
changes the vector loses a key.
-/

set_option autoImplicit false

namespace SoulLib.Containers.SoulFlatMap

variable {K V : Type}

/-- A call made after the sort. -/
inductive Call (K V : Type) where
  | insert (kv : K × V)
  | remove (kv : K × V)
  | lookup (key : K)
  | contains (key : K)
  | index (key : K) (assigned : Option V)
  deriving DecidableEq, Repr

/-- What a call returns; a reference is read before it is assigned to. -/
inductive Result (V : Type) where
  | nothing
  | optional (value : Option V)
  | bool (present : Bool)
  | reference (value : Option V)
  deriving DecidableEq, Repr

section Calls

variable [Inhabited V] (compare : K → K → Bool)

def call (map : SoulFlatMap K V) : Call K V → SoulFlatMap K V × Result V
  | .insert kv => (insert compare map kv, .nothing)
  | .remove kv => (remove compare map kv, .nothing)
  | .lookup key => (map, .optional (lookup compare map key))
  | .contains key => (map, .bool (contains compare map key))
  | .index key assigned =>
      (indexAssign compare map key assigned,
        .reference ((index compare map key).1.value (index compare map key).2))

def results (map : SoulFlatMap K V) : List (Call K V) → List (Result V)
  | [] => []
  | first :: rest => (call compare map first).2 :: results (call compare map first).1 rest

end Calls

section Sorting

variable {compare : K → K → Bool} [order : IsStrictWeakOrder K fun a b => compare a b = true]
  {comp : K × V → K × V → Bool} {map : SoulFlatMap K V}

omit order in
theorem apart_of_perm {data arranged : List (K × V)} (sorted : Sorted compare data) (perm : arranged.Perm data) :
    arranged.Pairwise fun a b => compare a.1 b.1 = true ∨ compare b.1 a.1 = true := by
  rw [perm.pairwise_iff fun either => either.symm]
  exact sorted.imp fun below => .inl below

omit order in
theorem lowerBound_of_contains {data : List (K × V)}
    (apart : data.Pairwise fun a b => compare a.1 b.1 = true ∨ compare b.1 a.1 = true) {position : Nat}
    {entry : K × V} (here : data[position]? = some entry) (found : contains compare ⟨data⟩ entry.1 = true) :
    lowerBound compare ⟨data⟩ entry.1 = position := by
  rw [contains, findIterator] at found
  split at found
  · next other there =>
      split at found
      · next same =>
          rw [keysEqual_iff] at same
          obtain ⟨atPosition, isEntry⟩ := List.getElem?_eq_some_iff.mp here
          obtain ⟨atBound, isOther⟩ := List.getElem?_eq_some_iff.mp there
          have ordered := List.pairwise_iff_getElem.mp apart
          rcases Nat.lt_trichotomy (lowerBound compare ⟨data⟩ entry.1) position with less | equal | greater
          · have differ := ordered _ _ atBound atPosition less
            rw [isEntry, isOther] at differ
            simp [same] at differ
          · exact equal
          · have differ := ordered _ _ atPosition atBound greater
            rw [isEntry, isOther] at differ
            simp [same] at differ
      · cases found
  · cases found

theorem sorted_of_contains {data : List (K × V)}
    (apart : data.Pairwise fun a b => compare a.1 b.1 = true ∨ compare b.1 a.1 = true)
    (found : ∀ entry ∈ data, contains compare ⟨data⟩ entry.1 = true) : Sorted compare data := by
  have transitive : ∀ a b c : K × V, compare a.1 b.1 = true → compare b.1 c.1 = true → compare a.1 c.1 = true :=
    fun _ _ _ => less_transitive
  refine pairwise_of_lowerBound transitive apart ?_
  intro position entry here
  exact lowerBound_of_contains apart here (found entry (List.mem_of_getElem? here))

theorem contains_of_mem (sorted : Sorted compare map.data) {entry : K × V} (member : entry ∈ map.data) :
    contains compare map entry.1 = true := by
  have represents : Represents compare map (toFiniteMap compare map.data) := ⟨sorted, rfl⟩
  rw [represents.agrees.contains, decide_eq_true_eq, mem_toFiniteMap]
  exact ⟨entry, member, rfl⟩

theorem sort_eq_self_iff (ordered : IsStrictWeakOrder (K × V) fun a b => comp a b = true) :
    map.sort comp = map ↔ map.data.Pairwise fun a b => comp b a = false := by
  rw [← stableSort_eq_self_iff]
  constructor
  · intro same
    exact congrArg SoulFlatMap.data same
  · intro same
    cases map
    exact congrArg SoulFlatMap.mk same

/-- A sort goes unnoticed exactly when it changes nothing. -/
theorem sort_unnoticed_iff [Inhabited V] (operations : List (Operation K V))
    (ordered : IsStrictWeakOrder (K × V) fun a b => comp a b = true) :
    (∀ calls, results compare ((run compare operations).sort comp) calls =
        results compare (run compare operations) calls) ↔
      (run compare operations).getAll.Pairwise fun a b => comp b a = false := by
  have sorted : Sorted compare (run compare operations).data := (represents_run operations).sorted
  generalize run compare operations = map at sorted ⊢
  rw [getAll, ← sort_eq_self_iff ordered]
  constructor
  · intro unnoticed
    have perm : (map.sort comp).data.Perm map.data := stableSort_perm _
    have found : ∀ entry ∈ (map.sort comp).data, contains compare (map.sort comp) entry.1 = true := by
      intro entry member
      have same := unnoticed [.contains entry.1]
      simp only [results, call, List.cons.injEq, Result.bool.injEq, and_true] at same
      rw [same]
      exact contains_of_mem sorted (perm.mem_iff.mp member)
    have again := sorted_of_contains (apart_of_perm sorted perm) found
    have same : (map.sort comp).data = map.data := by
      refine perm.eq_of_pairwise ?_ again sorted
      intro a b _ _ below above
      have never : compare b.1 a.1 = false := less_asymmetric below
      rw [never] at above
      cases above
    cases map
    exact congrArg SoulFlatMap.mk same
  · intro same calls
    rw [same]

end Sorting

def ascending (a b : Nat) : Bool := decide (a < b)

instance : IsStrictWeakOrder Nat fun a b => ascending a b = true where
  irrefl a := by simp [ascending]
  trans a b c := by
    simp only [ascending, decide_eq_true_eq]
    omega
  incomp_trans a b c := by
    simp only [ascending, decide_eq_true_eq]
    omega

/-- Entries by descending keys and by ascending values. -/
def largestKey (a b : Nat × Nat) : Bool := ascending b.1 a.1

def smallestValue (a b : Nat × Nat) : Bool := ascending a.2 b.2

def threeKeys : List (Operation Nat Nat) := [.insert (1, 10), .insert (2, 20), .insert (3, 30)]

theorem sort_by_value_unnoticed :
    (run ascending threeKeys).getAll = [(1, 10), (2, 20), (3, 30)] ∧
      ∀ calls, results ascending ((run ascending threeKeys).sort smallestValue) calls =
        results ascending (run ascending threeKeys) calls := by
  have ordered : IsStrictWeakOrder (Nat × Nat) fun a b => smallestValue a b = true :=
    inferInstanceAs (IsStrictWeakOrder (Nat × Nat) (Order.Preimage Prod.snd fun a b => ascending a b = true))
  exact ⟨by decide +kernel, (sort_unnoticed_iff threeKeys ordered).mpr (by decide +kernel)⟩

/-- After a sort by descending keys, key 1 is not found and a second entry is inserted for it. -/
theorem sort_loses_key :
    contains ascending (run ascending threeKeys) 1 = true ∧
      contains ascending ((run ascending threeKeys).sort largestKey) 1 = false ∧
      (insert ascending ((run ascending threeKeys).sort largestKey) (1, 11)).getAll =
        [(1, 11), (3, 30), (2, 20), (1, 10)] ∧
      ¬ ∀ calls, results ascending ((run ascending threeKeys).sort largestKey) calls =
        results ascending (run ascending threeKeys) calls := by
  have ran : run ascending threeKeys = ⟨[(1, 10), (2, 20), (3, 30)]⟩ := by decide +kernel
  have sorted : (run ascending threeKeys).sort largestKey = ⟨[(3, 30), (2, 20), (1, 10)]⟩ := by
    rw [ran]
    simp [sort, List.mergeSort, largestKey, ascending]
  rw [sorted, ran]
  refine ⟨by decide +kernel, by decide +kernel, by decide +kernel, ?_⟩
  intro unnoticed
  exact absurd (unnoticed [.contains 1]) (by decide +kernel)

end SoulLib.Containers.SoulFlatMap
