import Mathlib.Logic.ExistsUnique
import Mathlib.Logic.Function.Basic

/-! Slots that own things.

A slot owns one thing or none. Ownership is exclusive if no two slots own the same
thing. A slot is given something else to own, or takes over what another one owns;
in both cases exactly what the slot owned before has no owner any more.
-/

set_option autoImplicit false

namespace SoulLib.Semantics.Ownership

variable {Slot Thing : Type} {owns : Slot → Option Thing} {slot source : Slot} {given : Option Thing} {thing : Thing}

def Owned (owns : Slot → Option Thing) (thing : Thing) : Prop := ∃ slot, owns slot = some thing

def Exclusive (owns : Slot → Option Thing) : Prop :=
  ∀ slot other thing, owns slot = some thing → owns other = some thing → slot = other

theorem Exclusive.existsUnique_iff (exclusive : Exclusive owns) :
    (∃! slot, owns slot = some thing) ↔ Owned owns thing := by
  constructor
  · rintro ⟨slot, here, -⟩
    exact ⟨slot, here⟩
  · rintro ⟨slot, here⟩
    exact ⟨slot, here, fun other there => exclusive other slot thing there here⟩

variable [DecidableEq Slot]

theorem Exclusive.owned_update (exclusive : Exclusive owns) :
    Owned (Function.update owns slot given) thing ↔ given = some thing ∨ Owned owns thing ∧ owns slot ≠ some thing := by
  constructor
  · rintro ⟨other, here⟩
    by_cases same : other = slot
    · rw [same, Function.update_self] at here
      exact .inl here
    · rw [Function.update_of_ne same] at here
      exact .inr ⟨⟨other, here⟩, fun before => same (exclusive other slot thing here before)⟩
  · rintro (now | ⟨⟨other, here⟩, kept⟩)
    · refine ⟨slot, ?_⟩
      rw [Function.update_self, now]
    · refine ⟨other, ?_⟩
      have differs : other ≠ slot := fun same => kept (same ▸ here)
      rw [Function.update_of_ne differs, here]

/-- What a slot owned has no owner after the slot was emptied. -/
theorem Exclusive.owned_empty (exclusive : Exclusive owns) :
    Owned (Function.update owns slot none) thing ↔ Owned owns thing ∧ owns slot ≠ some thing := by
  rw [exclusive.owned_update]
  exact or_iff_right (Option.some_ne_none thing).symm

theorem Exclusive.update (exclusive : Exclusive owns) (unowned : ∀ thing, given = some thing → ¬Owned owns thing) :
    Exclusive (Function.update owns slot given) := by
  have alone (first second : Slot) (thing : Thing) (differ : first ≠ slot)
      (here : Function.update owns slot given first = some thing)
      (there : Function.update owns slot given second = some thing) : first = second := by
    rw [Function.update_of_ne differ] at here
    by_cases same : second = slot
    · rw [same, Function.update_self] at there
      exact absurd ⟨first, here⟩ (unowned thing there)
    · rw [Function.update_of_ne same] at there
      exact exclusive first second thing here there
  intro first second thing here there
  by_cases left : first = slot
  · by_cases right : second = slot
    · rw [left, right]
    · exact (alone second first thing right there here).symm
  · exact alone first second thing left here there

/-- The slot takes over what the source owns. -/
def move (owns : Slot → Option Thing) (slot source : Slot) : Slot → Option Thing :=
  Function.update (Function.update owns source none) slot (owns source)

theorem Exclusive.empty (exclusive : Exclusive owns) : Exclusive (Function.update owns slot none) :=
  exclusive.update fun _ nothing => absurd nothing (Option.some_ne_none _).symm

theorem Exclusive.move (exclusive : Exclusive owns) : Exclusive (move owns slot source) := by
  refine exclusive.empty.update ?_
  intro thing moved owned
  exact (exclusive.owned_empty.mp owned).2 moved

theorem Exclusive.owned_move (exclusive : Exclusive owns) (differ : slot ≠ source) :
    Owned (Ownership.move owns slot source) thing ↔ Owned owns thing ∧ owns slot ≠ some thing := by
  rw [Ownership.move, exclusive.empty.owned_update, exclusive.owned_empty, Function.update_of_ne differ]
  constructor
  · rintro (moved | ⟨⟨owned, -⟩, kept⟩)
    · exact ⟨⟨source, moved⟩, fun before => differ (exclusive slot source thing before moved)⟩
    · exact ⟨owned, kept⟩
  · rintro ⟨owned, kept⟩
    by_cases moved : owns source = some thing
    · exact .inl moved
    · exact .inr ⟨⟨owned, moved⟩, kept⟩

end SoulLib.Semantics.Ownership
