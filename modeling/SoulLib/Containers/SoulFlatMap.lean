import SoulLib.Containers.Comparator
import SoulLib.Containers.LowerBound

/-! The flat map.

The entries are kept in one vector in the order of their keys. Iterators are
positions in it; the capacity of the vector is not observed. As long as the
vector is in order the container is a finite map on the keys modulo equivalence
under the comparator.
-/

set_option autoImplicit false

namespace SoulLib.Containers

structure SoulFlatMap (K V : Type) where
  data : List (K × V) := []
  deriving DecidableEq, Repr

namespace SoulFlatMap

variable {K V : Type} (compare : K → K → Bool)

def keysEqual (lhs rhs : K) : Bool := !compare lhs rhs && !compare rhs lhs

variable (map : SoulFlatMap K V)

def lowerBound (key : K) : Nat := Containers.lowerBound (fun entry => compare entry.1 key) map.data

/-- `none` is the end of the vector. -/
def findIterator (key : K) : Option Nat :=
  match map.data[lowerBound compare map key]? with
  | some entry => if keysEqual compare entry.1 key then some (lowerBound compare map key) else none
  | none => none

def insert (kv : K × V) : SoulFlatMap K V :=
  let it := lowerBound compare map kv.1
  match map.data[it]? with
  | some entry =>
      if keysEqual compare entry.1 kv.1 then { data := map.data.set it (entry.1, kv.2) }
      else { data := map.data.insertIdx it kv }
  | none => { data := map.data.insertIdx it kv }

def remove (kv : K × V) : SoulFlatMap K V :=
  let it := lowerBound compare map kv.1
  match map.data[it]? with
  | some entry => if keysEqual compare entry.1 kv.1 then { data := map.data.eraseIdx it } else map
  | none => map

def getAll : List (K × V) := map.data

def size : Nat := map.data.length

/-- `std::stable_sort`. -/
def sort (comp : K × V → K × V → Bool) : SoulFlatMap K V where
  data := map.data.mergeSort fun a b => !comp b a

def reserve (_ : Nat) : SoulFlatMap K V := map

def clear (_ : SoulFlatMap K V) : SoulFlatMap K V := {}

/-- The range may not know its size. -/
def insertRange (sized : Bool) (range : List (K × V)) : SoulFlatMap K V :=
  let reserved := if sized && 0 < range.length then map.reserve (map.data.length + range.length) else map
  range.foldl (insert compare) reserved

def ofRange (sized : Bool) (range : List (K × V)) : SoulFlatMap K V := insertRange compare {} sized range

def contains (key : K) : Bool := (findIterator compare map key).isSome

/-- The value at a position. -/
def value (it : Nat) : Option V := (map.data[it]?).map Prod.snd

def lookup (key : K) : Option V :=
  match findIterator compare map key with
  | none => none
  | some it => map.value it

/-- `operator[]`, with the position that the reference refers to. -/
def index [Inhabited V] (key : K) : SoulFlatMap K V × Nat :=
  let it := lowerBound compare map key
  match map.data[it]? with
  | some entry =>
      if keysEqual compare entry.1 key then (map, it) else ({ data := map.data.insertIdx it (key, default) }, it)
  | none => ({ data := map.data.insertIdx it (key, default) }, it)

/-- An assignment through a reference. -/
def assign (it : Nat) (value : V) : SoulFlatMap K V where
  data := map.data.modify it fun entry => (entry.1, value)

/-- The position of the value that the pointer points to. -/
def find (key : K) : Option Nat := findIterator compare map key

inductive Operation (K V : Type) where
  | construct (sized : Bool) (range : List (K × V))
  | insert (kv : K × V)
  | remove (kv : K × V)
  | insertRange (sized : Bool) (range : List (K × V))
  | index (key : K) (assigned : Option V)
  | reserve (capacity : Nat)
  | clear
  deriving DecidableEq, Repr

variable [Inhabited V]

/-- `operator[]` and what is done with the reference. -/
def indexAssign (key : K) : Option V → SoulFlatMap K V
  | none => (index compare map key).1
  | some value => (index compare map key).1.assign (index compare map key).2 value

def apply : Operation K V → SoulFlatMap K V
  | .construct sized range => ofRange compare sized range
  | .insert kv => insert compare map kv
  | .remove kv => remove compare map kv
  | .insertRange sized range => insertRange compare map sized range
  | .index key assigned => indexAssign compare map key assigned
  | .reserve capacity => map.reserve capacity
  | .clear => map.clear

def run (operations : List (Operation K V)) : SoulFlatMap K V := operations.foldl (fun map => apply compare map) {}

section Order

variable {compare} [order : IsStrictWeakOrder K fun a b => compare a b = true] {a b c : K}

omit [Inhabited V]

omit order in
theorem keysEqual_iff : keysEqual compare a b = true ↔ compare a b = false ∧ compare b a = false := by
  simp [keysEqual]

omit order in
theorem keysEqual_symm (same : keysEqual compare a b = true) : keysEqual compare b a = true := by
  rw [keysEqual_iff] at *
  exact ⟨same.2, same.1⟩

theorem keysEqual_trans (first : keysEqual compare a b = true) (second : keysEqual compare b c = true) :
    keysEqual compare a c = true := by
  have apart := order.incomp_trans a b c
  simp only [keysEqual_iff, ← Bool.not_eq_true] at *
  exact apart first second

theorem compare_of_compare_of_keysEqual (below : compare a b = true) (same : keysEqual compare b c = true) :
    compare a c = true := by
  by_contra notBelow
  rw [Bool.not_eq_true] at notBelow
  have never : compare a b = false := not_less_transitive (keysEqual_iff.mp same).2 notBelow
  rw [never] at below
  cases below

theorem compare_of_keysEqual_of_compare (same : keysEqual compare a b = true) (below : compare b c = true) :
    compare a c = true := by
  by_contra notBelow
  rw [Bool.not_eq_true] at notBelow
  have never : compare b c = false := not_less_transitive notBelow (keysEqual_iff.mp same).2
  rw [never] at below
  cases below

end Order

/-- No key is equivalent to a later one. -/
def Sorted (data : List (K × V)) : Prop := data.Pairwise fun a b => compare a.1 b.1 = true

/-- Where a key belongs: the entries before it, the entry with an equivalent key if there is
one, and the entries after it. -/
structure Split (data : List (K × V)) (key : K) (lower : List (K × V)) (here : Option (K × V))
    (upper : List (K × V)) : Prop where
  whole : data = lower ++ here.toList ++ upper
  low : ∀ entry ∈ lower, compare entry.1 key = true
  equal : ∀ entry ∈ here, keysEqual compare entry.1 key = true
  high : ∀ entry ∈ upper, compare key entry.1 = true

section Search

omit [Inhabited V]

variable {compare} [order : IsStrictWeakOrder K fun a b => compare a b = true] {data lower upper : List (K × V)}
  {here : Option (K × V)} {key : K}

theorem exists_split (sorted : Sorted compare data) (key : K) :
    ∃ lower here upper, Split compare data key lower here upper := by
  induction data with
  | nil => exact ⟨[], none, [], rfl, by simp, by simp, by simp⟩
  | cons first rest ih =>
      obtain ⟨above, sorted⟩ := List.pairwise_cons.mp sorted
      cases below : compare first.1 key with
      | true =>
          obtain ⟨lower, here, upper, split⟩ := ih sorted
          refine ⟨first :: lower, here, upper, by rw [split.whole]; rfl, ?_, split.equal, split.high⟩
          rintro entry (_ | ⟨_, member⟩)
          · exact below
          · exact split.low entry member
      | false =>
          cases beyond : compare key first.1 with
          | true =>
              refine ⟨[], none, first :: rest, rfl, by simp, by simp, ?_⟩
              rintro entry (_ | ⟨_, member⟩)
              · exact beyond
              · exact less_transitive beyond (above entry member)
          | false =>
              have same : keysEqual compare first.1 key = true := keysEqual_iff.mpr ⟨below, beyond⟩
              refine ⟨[], some first, rest, rfl, by simp, ?_, ?_⟩
              · rintro _ ⟨⟩
                exact same
              · intro entry member
                exact compare_of_keysEqual_of_compare (keysEqual_symm same) (above entry member)

theorem Split.lowerBound (split : Split compare data key lower here upper) :
    lowerBound compare ⟨data⟩ key = lower.length := by
  rw [SoulFlatMap.lowerBound, split.whole, List.append_assoc]
  apply lowerBound_append split.low
  intro entry member
  rcases List.mem_append.mp member with equal | above
  · exact (keysEqual_iff.mp (split.equal entry (by simpa using equal))).1
  · exact less_asymmetric (split.high entry above)

omit order in
theorem Split.getElem (split : Split compare data key lower here upper) :
    data[lower.length]? = here.or upper.head? := by
  rw [split.whole]
  cases here with
  | none => cases upper <;> simp
  | some entry => simp

omit order in
theorem Split.beyond (split : Split compare data key lower none upper) {entry : K × V}
    (found : data[lower.length]? = some entry) : keysEqual compare entry.1 key = false := by
  rw [split.getElem, Option.none_or] at found
  have above := split.high entry (List.mem_of_mem_head? found)
  rw [← Bool.not_eq_true, keysEqual_iff, above]
  simp

theorem Split.findIterator (split : Split compare data key lower here upper) :
    findIterator compare ⟨data⟩ key = here.map fun _ => lower.length := by
  simp only [SoulFlatMap.findIterator, split.lowerBound]
  cases here with
  | none =>
      split
      · next entry found => rw [split.beyond found]; rfl
      · rfl
  | some entry =>
      rw [split.getElem]
      simp [split.equal entry rfl]

theorem insertIdx_append (lower upper : List (K × V)) (entry : K × V) :
    (lower ++ upper).insertIdx lower.length entry = lower ++ entry :: upper := by
  induction lower with
  | nil => rfl
  | cons first rest ih => simp [ih]

theorem modify_append (lower upper : List (K × V)) (entry : K × V) (change : K × V → K × V) :
    (lower ++ entry :: upper).modify lower.length change = lower ++ change entry :: upper := by
  induction lower with
  | nil => rfl
  | cons first rest ih => simp [ih]

theorem Split.insert (split : Split compare data key lower here upper) (value : V) :
    insert compare ⟨data⟩ (key, value) = ⟨lower ++ ((here.map Prod.fst).getD key, value) :: upper⟩ := by
  simp only [SoulFlatMap.insert, split.lowerBound]
  cases here with
  | none =>
      have inserted : data.insertIdx lower.length (key, value) = lower ++ (key, value) :: upper := by
        rw [split.whole, Option.toList_none, List.append_nil, insertIdx_append]
      split
      · next entry found => rw [split.beyond found, inserted]; rfl
      · rw [inserted]; rfl
  | some entry =>
      rw [split.getElem, split.whole]
      simp [split.equal entry rfl]

theorem Split.remove (split : Split compare data key lower here upper) (value : V) :
    remove compare ⟨data⟩ (key, value) = ⟨lower ++ upper⟩ := by
  simp only [SoulFlatMap.remove, split.lowerBound]
  cases here with
  | none =>
      have unchanged : data = lower ++ upper := by
        rw [split.whole]
        simp
      split
      · next entry found => rw [split.beyond found, ← unchanged]; rfl
      · rw [← unchanged]
  | some entry =>
      rw [split.getElem, split.whole]
      simp [split.equal entry rfl, List.eraseIdx_append_of_length_le]

theorem Split.index [Inhabited V] (split : Split compare data key lower here upper) :
    index compare ⟨data⟩ key = (⟨lower ++ here.getD (key, default) :: upper⟩, lower.length) := by
  simp only [SoulFlatMap.index, split.lowerBound]
  cases here with
  | none =>
      have inserted : data.insertIdx lower.length (key, default) = lower ++ (key, default) :: upper := by
        rw [split.whole, Option.toList_none, List.append_nil, insertIdx_append]
      split
      · next entry found => rw [split.beyond found, inserted]; rfl
      · rw [inserted]; rfl
  | some entry =>
      rw [split.getElem, split.whole]
      simp [split.equal entry rfl]

theorem Split.indexAssign [Inhabited V] (split : Split compare data key lower here upper) (assigned : Option V) :
    indexAssign compare ⟨data⟩ key assigned =
      ⟨lower ++ ((here.map Prod.fst).getD key, assigned.getD ((here.map Prod.snd).getD default)) :: upper⟩ := by
  cases assigned with
  | none => cases here <;> simp [SoulFlatMap.indexAssign, split.index]
  | some value => cases here <;> simp [SoulFlatMap.indexAssign, split.index, assign, modify_append]

theorem Split.sorted (split : Split compare data key lower here upper) (sorted : Sorted compare data) (entry : K × V)
    (same : keysEqual compare entry.1 key = true) :
    Sorted compare (lower ++ upper) ∧ Sorted compare (lower ++ entry :: upper) := by
  have without : (lower ++ upper).Sublist data := by
    rw [split.whole]
    exact (List.sublist_append_left _ _).append (.refl _)
  have kept := sorted.sublist without
  obtain ⟨below, above, across⟩ := List.pairwise_append.mp kept
  refine ⟨kept, List.pairwise_append.mpr ⟨below, List.pairwise_cons.mpr ⟨?_, above⟩, ?_⟩⟩
  · intro other member
    exact compare_of_keysEqual_of_compare same (split.high other member)
  · rintro other member _ (_ | ⟨_, within⟩)
    · exact compare_of_compare_of_keysEqual (split.low other member) (keysEqual_symm same)
    · exact across other member _ within

end Search

end SoulFlatMap

end SoulLib.Containers
