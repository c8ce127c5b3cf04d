import Mathlib.Order.Lattice
import Mathlib.Order.Nat
import SoulLib.Containers.LowerBound

/-! Searching a vector for a value.

`indexOf` compares one element after the other. `binarySearch` compares the value
with the element at which `std::lower_bound` ends.
-/

set_option autoImplicit false

namespace SoulLib.Containers.Searcher

variable {α : Type} [LinearOrder α] (vec : List α) (value : α)

def indexOf : Option Nat := vec.findIdx? fun element => element = value

def binarySearch : Option Nat :=
  let it := lowerBound (fun element => decide (element < value)) vec
  match vec[it]? with
  | some element => if element = value then some it else none
  | none => none

/-- The value is at the position, and not before it. -/
structure FirstAt (position : Nat) : Prop where
  found : vec[position]? = some value
  first : ∀ earlier < position, vec[earlier]? ≠ some value

variable {vec value}

theorem indexOf_eq_some_iff {position : Nat} : indexOf vec value = some position ↔ FirstAt vec value position := by
  rw [indexOf, List.findIdx?_eq_some_iff_getElem]
  constructor
  · rintro ⟨bound, found, first⟩
    refine ⟨?_, ?_⟩
    · rw [List.getElem?_eq_getElem bound]
      exact congrArg some (of_decide_eq_true found)
    · intro earlier before same
      obtain ⟨_, here⟩ := List.getElem?_eq_some_iff.mp same
      exact first earlier before (decide_eq_true here)
  · rintro ⟨found, first⟩
    obtain ⟨bound, here⟩ := List.getElem?_eq_some_iff.mp found
    refine ⟨bound, decide_eq_true here, ?_⟩
    intro earlier before same
    refine first earlier before ?_
    rw [List.getElem?_eq_getElem (Nat.lt_trans before bound)]
    exact congrArg some (of_decide_eq_true same)

theorem indexOf_eq_none_iff : indexOf vec value = none ↔ value ∉ vec := by
  rw [indexOf, List.findIdx?_eq_none_iff]
  constructor
  · intro differ member
    exact absurd (decide_eq_true rfl) (Bool.eq_false_iff.mp (differ value member))
  · intro absent element member
    apply decide_eq_false
    rintro rfl
    exact absent member

theorem indexOf_append {lower upper : List α} (low : ∀ element ∈ lower, element < value) :
    indexOf (lower ++ upper) value = (indexOf upper value).map (· + lower.length) := by
  have none : indexOf lower value = none := indexOf_eq_none_iff.mpr fun member => lt_irrefl _ (low value member)
  unfold indexOf at none ⊢
  rw [List.findIdx?_append, none, Option.none_or]

theorem exists_split (sorted : vec.Pairwise (· ≤ ·)) (value : α) :
    ∃ lower upper, vec = lower ++ upper ∧ (∀ element ∈ lower, element < value) ∧
      (∀ element ∈ upper, value ≤ element) := by
  induction vec with
  | nil => exact ⟨[], [], rfl, by simp, by simp⟩
  | cons first rest ih =>
      obtain ⟨least, sorted⟩ := List.pairwise_cons.mp sorted
      rcases lt_or_ge first value with below | above
      · obtain ⟨lower, upper, rfl, low, high⟩ := ih sorted
        refine ⟨first :: lower, upper, rfl, ?_, high⟩
        rintro element (_ | ⟨_, member⟩)
        · exact below
        · exact low element member
      · refine ⟨[], first :: rest, rfl, by simp, ?_⟩
        rintro element (_ | ⟨_, member⟩)
        · exact above
        · exact le_trans above (least element member)

theorem binarySearch_eq_indexOf (sorted : vec.Pairwise (· ≤ ·)) (value : α) :
    binarySearch vec value = indexOf vec value := by
  obtain ⟨lower, upper, rfl, low, high⟩ := exists_split sorted value
  have ends : lowerBound (fun element => decide (element < value)) (lower ++ upper) = lower.length := by
    apply lowerBound_append
    · intro element member
      exact decide_eq_true (low element member)
    · intro element member
      exact decide_eq_false (not_lt.mpr (high element member))
  rw [binarySearch, ends, indexOf_append low, List.getElem?_append_right (Nat.le_refl _), Nat.sub_self]
  cases upper with
  | nil => rfl
  | cons first rest =>
      by_cases same : first = value
      · simp [indexOf, same, List.findIdx?_cons]
      · -- The scan goes on behind an element above the value, and finds nothing there.
        have above : value < first := lt_of_le_of_ne (high first List.mem_cons_self) (Ne.symm same)
        have absent : value ∉ first :: rest := by
          rintro (_ | ⟨_, member⟩)
          · exact same rfl
          · have least := (List.pairwise_cons.mp (List.pairwise_append.mp sorted).2.1).1 value member
            exact absurd above (not_lt.mpr least)
        rw [indexOf_eq_none_iff.mpr absent]
        simp [same]

/-- Both searches return the first position of the value, if it has any. -/
theorem searches_agree (sorted : vec.Pairwise (· ≤ ·)) (value : α) :
    binarySearch vec value = indexOf vec value ∧
      (∀ position, binarySearch vec value = some position ↔ FirstAt vec value position) ∧
      (binarySearch vec value = none ↔ value ∉ vec) := by
  have same := binarySearch_eq_indexOf sorted value
  refine ⟨same, ?_, ?_⟩
  · intro position
    rw [same, indexOf_eq_some_iff]
  · rw [same, indexOf_eq_none_iff]

/-- The first of two equal elements. -/
theorem searches_agree_repeated : binarySearch [1, 3, 3, 7] 3 = some 1 := by
  have first : FirstAt [1, 3, 3, 7] 3 1 := ⟨rfl, by decide⟩
  exact ((@searches_agree Nat _ [1, 3, 3, 7] (by decide) 3).2.1 1).mpr first

end SoulLib.Containers.Searcher
