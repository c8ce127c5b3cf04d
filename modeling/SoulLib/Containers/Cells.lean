import Mathlib.Data.List.Basic

/-! Buffers of elements that are constructed and destroyed one by one.

A cell is empty when no element is constructed in it. Moving an element leaves
something behind that is still an element; what that is is up to the element type.
-/

set_option autoImplicit false

namespace SoulLib.Containers

/-- The cells of a buffer. -/
abbrev Cells (T : Type) : Type := Nat → Option T

namespace Cells

variable {T : Type} (moved : T → T)

def empty : Cells T := fun _ => none

/-- The elements of a list in the first cells. -/
def ofList (list : List T) : Cells T := fun index => list[index]?

def set (cells : Cells T) (index : Nat) (cell : Option T) : Cells T := fun other =>
  if other = index then cell else cells other

/-- Destroy `count` elements from a position on. -/
def destroyRange (cells : Cells T) (first : Nat) : Nat → Cells T
  | 0 => cells
  | count + 1 => destroyRange (cells.set first none) (first + 1) count

/-- Move `count` elements from a position on to the same positions of another buffer. -/
def moveRange (source target : Cells T) (first : Nat) : Nat → Cells T × Cells T
  | 0 => (source, target)
  | count + 1 =>
      moveRange (source.set first ((source first).map moved)) (target.set first (source first)) (first + 1) count

/-- The same, where each element is destroyed when it has been moved. -/
def relocateRange (source target : Cells T) (first : Nat) : Nat → Cells T × Cells T
  | 0 => (source, target)
  | count + 1 =>
      let source' := source.set first ((source first).map moved)
      relocateRange (source'.set first none) (target.set first (source first)) (first + 1) count

/-- Move each of `count` elements behind a position one position to the front. -/
def shiftRange (cells : Cells T) (it : Nat) : Nat → Cells T
  | 0 => cells
  | count + 1 =>
      shiftRange ((cells.set it (cells (it + 1))).set (it + 1) ((cells (it + 1)).map moved)) (it + 1) count

/-- `std::remove` on `count` elements from `it` on, with the position where the kept ones end.
What is dropped may depend on the cells as they are by then. -/
def removeRange (drops : Cells T → T → Bool) (cells : Cells T) (first it : Nat) : Nat → Cells T × Nat
  | 0 => (cells, first)
  | count + 1 =>
      if (cells it).all (drops cells) then removeRange drops cells first (it + 1) count
      else if first = it then removeRange drops cells (first + 1) (it + 1) count
      else
        removeRange drops ((cells.set first (cells it)).set it ((cells it).map moved)) (first + 1) (it + 1) count

/-- The elements of the first cells. -/
def toList (cells : Cells T) : Nat → List T
  | 0 => []
  | size + 1 => toList cells size ++ (cells size).toList

variable {moved} {cells source target : Cells T} {list : List T}

theorem ofList_nil : ofList ([] : List T) = empty := by
  funext index
  rfl

theorem set_append (front rest : List T) (old value : T) :
    (ofList (front ++ old :: rest)).set front.length (some value) = ofList (front ++ value :: rest) := by
  funext index
  simp only [set, ofList]
  split
  · next here => simp [here]
  · next other =>
      rcases Nat.lt_trichotomy index front.length with less | same | greater
      · rw [List.getElem?_append_left less, List.getElem?_append_left less]
      · exact absurd same other
      · obtain ⟨more, rfl⟩ := Nat.exists_eq_add_of_lt greater
        simp [Nat.add_assoc, List.getElem?_append_right]

theorem set_length (list : List T) (value : T) :
    (ofList list).set list.length (some value) = ofList (list ++ [value]) := by
  funext index
  simp only [set, ofList]
  split
  · next here => simp [here]
  · next other =>
      rcases Nat.lt_trichotomy index list.length with less | same | greater
      · rw [List.getElem?_append_left less]
      · exact absurd same other
      · rw [List.getElem?_eq_none (by omega), List.getElem?_eq_none (by rw [List.length_append, List.length_singleton]; omega)]

theorem destroyRange_apply (cells : Cells T) (first count index : Nat) :
    destroyRange cells first count index = if first ≤ index ∧ index < first + count then none else cells index := by
  induction count generalizing cells first with
  | zero =>
      rw [destroyRange, if_neg]
      omega
  | succ count ih =>
      rw [destroyRange, ih]
      simp only [set]
      grind

theorem move_append (kept gap rest : List T) (old value left : T) :
    ((ofList (kept ++ old :: gap ++ value :: rest)).set kept.length (some value)).set (kept.length + (old :: gap).length)
        (some left) = ofList (kept ++ [value] ++ (gap ++ [left]) ++ rest) := by
  have first := set_append kept (gap ++ value :: rest) old value
  have second := set_append (kept ++ value :: gap) rest value left
  simp only [List.append_assoc, List.cons_append, List.length_append, List.length_cons] at first second
  simp only [List.append_assoc, List.cons_append, List.length_cons, List.nil_append, first, second]

theorem destroyRange_append (kept dropped : List T) :
    destroyRange (ofList (kept ++ dropped)) kept.length dropped.length = ofList kept := by
  funext index
  rw [destroyRange_apply]
  simp only [ofList]
  split
  · next within => rw [List.getElem?_eq_none within.1]
  · next outside =>
      rcases Nat.lt_or_ge index kept.length with less | greater
      · rw [List.getElem?_append_left less]
      · rw [List.getElem?_eq_none greater, List.getElem?_eq_none (by rw [List.length_append]; omega)]

theorem destroyRange_all (list : List T) : destroyRange (ofList list) 0 list.length = empty := by
  rw [← ofList_nil]
  exact destroyRange_append [] list

/-- After `done` the elements of `rest` are still to be moved. -/
theorem moveRange_append (done rest : List T) :
    moveRange moved (ofList (done.map moved ++ rest)) (ofList done) done.length rest.length =
      (ofList ((done ++ rest).map moved), ofList (done ++ rest)) := by
  induction rest generalizing done with
  | nil => simp [moveRange]
  | cons value rest ih =>
      have here : ofList (done.map moved ++ value :: rest) done.length = some value := by simp [ofList]
      have onwards := ih (done ++ [value])
      have sources := set_append (done.map moved) rest value (moved value)
      rw [List.length_map] at sources
      rw [List.length_append, List.length_singleton, List.map_append, List.append_assoc, List.map_singleton,
        List.singleton_append, List.append_assoc, List.singleton_append] at onwards
      rw [List.length_cons, moveRange, here, Option.map_some, sources, set_length]
      exact onwards

theorem moveRange_all (list : List T) :
    moveRange moved (ofList list) empty 0 list.length = (ofList (list.map moved), ofList list) := by
  rw [← ofList_nil]
  exact moveRange_append [] list

theorem relocateRange_append (done rest : List T) (reads : ∀ index, source (done.length + index) = rest[index]?) :
    relocateRange moved source (ofList done) done.length rest.length =
      (destroyRange source done.length rest.length, ofList (done ++ rest)) := by
  induction rest generalizing done source with
  | nil => simp [relocateRange, destroyRange]
  | cons value rest ih =>
      have here : source done.length = some value := reads 0
      have destroyed : (source.set done.length (some (moved value))).set done.length none =
          source.set done.length none := by
        funext index
        simp only [set]
        split <;> rfl
      have later : ∀ index, source.set done.length none ((done ++ [value]).length + index) = rest[index]? := by
        intro index
        have next := reads (index + 1)
        rw [List.getElem?_cons_succ] at next
        rw [List.length_append, List.length_singleton, Nat.add_assoc, Nat.add_comm 1, ← next]
        simp only [set]
        rw [if_neg (by omega)]
      have onwards := ih (done ++ [value]) later
      rw [List.length_append, List.length_singleton, List.append_assoc, List.singleton_append] at onwards
      rw [List.length_cons, relocateRange, here, Option.map_some, destroyed, set_length, onwards]
      rfl

theorem relocateRange_all (list : List T) :
    relocateRange moved (ofList list) empty 0 list.length = (empty, ofList list) := by
  have whole := @relocateRange_append T moved (ofList list) [] list (by simp [ofList])
  rw [List.length_nil, List.nil_append, ofList_nil, destroyRange_all] at whole
  exact whole

/-- An element is shifted out, and something is left behind in the last cell. -/
theorem shiftRange_append (front rest : List T) (value : T) :
    ∃ left, shiftRange moved (ofList (front ++ value :: rest)) front.length rest.length =
      ofList (front ++ rest ++ [left]) := by
  induction rest generalizing front value with
  | nil => exact ⟨value, by simp [shiftRange]⟩
  | cons next rest ih =>
      have here : ofList (front ++ value :: next :: rest) (front.length + 1) = some next := by simp [ofList]
      have first := set_append front (next :: rest) value next
      have second := set_append (front ++ [next]) rest next (moved next)
      rw [List.length_append, List.length_singleton, List.append_assoc, List.singleton_append, List.append_assoc,
        List.singleton_append] at second
      obtain ⟨left, shifted⟩ := ih (front ++ [next]) (moved next)
      rw [List.length_append, List.length_singleton, List.append_assoc, List.singleton_append] at shifted
      refine ⟨left, ?_⟩
      rw [List.length_cons, shiftRange, here, Option.map_some, first, second, shifted]
      simp

theorem removeRange_append (drops : Cells T → T → Bool) (kept gap rest : List T) :
    ∃ kept' gap',
      removeRange moved drops (ofList (kept ++ gap ++ rest)) kept.length (kept.length + gap.length) rest.length =
        (ofList (kept' ++ gap'), kept'.length) ∧
      kept'.length + gap'.length = kept.length + gap.length + rest.length ∧
      ∀ fixed : T → Bool, drops = (fun _ => fixed) → kept' = kept ++ rest.filter fun value => !fixed value := by
  induction rest generalizing kept gap with
  | nil => exact ⟨kept, gap, by simp [removeRange], rfl, by simp⟩
  | cons value rest ih =>
      -- the element under the reading index is the head of the rest
      have here : ofList (kept ++ gap ++ value :: rest) (kept.length + gap.length) = some value := by
        simp [ofList]
      rw [List.length_cons, removeRange, here, Option.all_some]
      cases dropped : drops (ofList (kept ++ gap ++ value :: rest)) value with
      | true =>
          obtain ⟨kept', gap', removed, lengths, filtered⟩ := ih kept (gap ++ [value])
          refine ⟨kept', gap', ?_, ?_, ?_⟩
          · simpa [Nat.add_assoc] using removed
          · simp at lengths
            omega
          · rintro fixed rfl
            simpa [dropped] using filtered fixed rfl
      | false =>
          rw [if_neg Bool.false_ne_true]
          -- without a gap the element stays where it is, otherwise it fills the first cell of it
          cases gap with
          | nil =>
              obtain ⟨kept', gap', removed, lengths, filtered⟩ := ih (kept ++ [value]) []
              refine ⟨kept', gap', ?_, ?_, ?_⟩
              · rw [if_pos (by simp)]
                simpa using removed
              · simp at lengths ⊢
                omega
              · rintro fixed rfl
                simpa [dropped] using filtered fixed rfl
          | cons old gap =>
              obtain ⟨kept', gap', removed, lengths, filtered⟩ := ih (kept ++ [value]) (gap ++ [moved value])
              refine ⟨kept', gap', ?_, ?_, ?_⟩
              · rw [if_neg (by simp), Option.map_some, move_append]
                simpa [Nat.add_assoc, Nat.add_comm, Nat.add_left_comm] using removed
              · simp at lengths ⊢
                omega
              · rintro fixed rfl
                simpa [dropped] using filtered fixed rfl

theorem toList_ofList (list : List T) (size : Nat) : (ofList list).toList size = list.take size := by
  induction size with
  | zero => rfl
  | succ size ih => rw [toList, ih, List.take_add_one, ofList]

end Cells

end SoulLib.Containers
