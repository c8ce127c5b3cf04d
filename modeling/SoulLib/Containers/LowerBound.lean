import Mathlib.Data.List.Basic

/-! `std::lower_bound`.

The search halves the range until it is empty. On a range whose first elements
are those before the searched one it finds where they end. A range in
which it finds each of its own elements is in order.
-/

set_option autoImplicit false

namespace SoulLib.Containers

variable {α : Type} {before : α → Bool} {range : List α}

/-- The position at which the search ends. -/
def lowerBound (before : α → Bool) (range : List α) : Nat :=
  match halves : range.drop (range.length / 2) with
  | [] => 0
  | middle :: upper =>
      if before middle then range.length / 2 + 1 + lowerBound before upper
      else lowerBound before (range.take (range.length / 2))
termination_by range.length
decreasing_by
  · have lengths := congrArg List.length halves
    rw [List.length_drop, List.length_cons] at lengths
    omega
  · have lengths := congrArg List.length halves
    rw [List.length_drop, List.length_cons] at lengths
    rw [List.length_take]
    omega

theorem lowerBound_halves {lower upper : List α} {middle : α} (halves : lower.length = (lower ++ middle :: upper).length / 2) :
    lowerBound before (lower ++ middle :: upper) =
      if before middle then lower.length + 1 + lowerBound before upper else lowerBound before lower := by
  rw [lowerBound, ← halves]
  split
  · next none => simp at none
  · next found rest same =>
      rw [List.drop_left, List.cons.injEq] at same
      obtain ⟨rfl, rfl⟩ := same
      rw [List.take_left]

@[simp] theorem lowerBound_nil : lowerBound before [] = 0 := by
  rw [lowerBound]
  split
  · rfl
  · next halves => simp at halves

/-- Induction along the search. -/
theorem halving_induction {motive : List α → Prop} (nil : motive [])
    (halves : ∀ lower middle upper, lower.length = (lower ++ middle :: upper).length / 2 → motive lower →
      motive upper → motive (lower ++ middle :: upper)) (range : List α) : motive range := by
  induction size : range.length using Nat.strongRecOn generalizing range with
  | ind size ih =>
      by_cases empty : range = []
      · rw [empty]
        exact nil
      · have positive := List.length_pos_iff.mpr empty
        have within : range.length / 2 < range.length := by omega
        have split : range.take (range.length / 2) ++ range[range.length / 2] :: range.drop (range.length / 2 + 1) =
            range := by
          rw [← List.drop_eq_getElem_cons, List.take_append_drop]
        rw [← split]
        refine halves _ _ _ ?_ (ih _ ?_ _ rfl) (ih _ ?_ _ rfl)
        · rw [split, List.length_take]
          omega
        · rw [List.length_take]
          omega
        · rw [List.length_drop]
          omega

theorem lowerBound_le (before : α → Bool) (range : List α) : lowerBound before range ≤ range.length := by
  induction range using halving_induction with
  | nil => simp
  | halves lower middle upper half low high =>
      rw [lowerBound_halves half]
      rw [List.length_append, List.length_cons]
      split <;> omega

theorem lowerBound_append {lower upper : List α} (low : ∀ element ∈ lower, before element = true)
    (high : ∀ element ∈ upper, before element = false) : lowerBound before (lower ++ upper) = lower.length := by
  generalize same : lower ++ upper = range
  induction range using halving_induction generalizing lower upper with
  | nil => rw [lowerBound_nil, (List.append_eq_nil_iff.mp same).1, List.length_nil]
  | halves left middle right half onLeft onRight =>
      rw [lowerBound_halves half]
      rcases List.append_eq_append_iff.mp same with ⟨between, rfl, rfl⟩ | ⟨between, rfl, rest⟩
      · -- The middle is behind all of `lower`.
        rw [high middle (by simp)]
        exact onLeft low (fun element member => high element (List.mem_append_left _ member)) rfl
      · cases between with
        | nil =>
            obtain rfl : middle :: right = upper := rest
            rw [high middle List.mem_cons_self]
            rw [List.append_nil] at low
            have whole := @onLeft left [] low (by simp) (by simp)
            simpa using whole
        | cons first between =>
            obtain ⟨rfl, rfl⟩ := List.cons.inj rest
            rw [low middle (by simp)]
            have further := onRight (fun element member => low element (by simp [member])) high rfl
            rw [if_pos rfl, further, List.length_append, List.length_cons]
            omega

theorem pairwise_of_lowerBound {less : α → α → Bool}
    (transitive : ∀ a b c, less a b = true → less b c = true → less a c = true)
    (apart : range.Pairwise fun a b => less a b = true ∨ less b a = true)
    (found : ∀ position element, range[position]? = some element →
      lowerBound (fun other => less other element) range = position) :
    range.Pairwise fun a b => less a b = true := by
  induction range using halving_induction with
  | nil => exact .nil
  | halves lower middle upper half onLower onUpper =>
      obtain ⟨apartLower, apartUpper, across⟩ := List.pairwise_append.mp apart
      obtain ⟨apartMiddle, apartUpper⟩ := List.pairwise_cons.mp apartUpper
      have lowerFound : ∀ position element, lower[position]? = some element →
          less middle element = false ∧ lowerBound (fun other => less other element) lower = position := by
        intro position element here
        have bound : position < lower.length := (List.getElem?_eq_some_iff.mp here).1
        have ends := found position element (by rw [List.getElem?_append_left bound, here])
        rw [lowerBound_halves half] at ends
        split at ends
        · omega
        · next notAfter => exact ⟨by simpa using notAfter, ends⟩
      -- Behind the middle the search goes on to the right.
      have upperFound : ∀ position element, upper[position]? = some element →
          less middle element = true ∧ lowerBound (fun other => less other element) upper = position := by
        intro position element here
        have ends := found (lower.length + 1 + position) element (by
          rw [List.getElem?_append_right (by omega), Nat.add_assoc, Nat.add_sub_cancel_left, Nat.add_comm 1,
            List.getElem?_cons_succ, here])
        rw [lowerBound_halves half] at ends
        have bound := lowerBound_le (fun other => less other element) lower
        split at ends
        · next after => exact ⟨after, by omega⟩
        · omega
      have low : ∀ element ∈ lower, less element middle = true := by
        intro element member
        obtain ⟨position, here⟩ := List.getElem?_of_mem member
        have notAfter := (lowerFound position element here).1
        rcases across element member middle List.mem_cons_self with below | above
        · exact below
        · rw [above] at notAfter
          cases notAfter
      have high : ∀ element ∈ upper, less middle element = true := by
        intro element member
        obtain ⟨position, here⟩ := List.getElem?_of_mem member
        exact (upperFound position element here).1
      rw [List.pairwise_append, List.pairwise_cons]
      refine ⟨onLower apartLower fun position element here => (lowerFound position element here).2,
        ⟨high, onUpper apartUpper fun position element here => (upperFound position element here).2⟩, ?_⟩
      rintro element member other (_ | ⟨_, within⟩)
      · exact low element member
      · exact transitive _ _ _ (low element member) (high other within)

end SoulLib.Containers
