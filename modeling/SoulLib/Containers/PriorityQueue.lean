import Mathlib.Data.List.Perm.Basic

/-! A priority queue whose order of equal elements is left open.

The first element is the one on top and the others are in no particular order.
After a change any greatest element may be on top; a position resolves the
choice.
-/

set_option autoImplicit false

namespace SoulLib.Containers

variable {α : Type} (less : α → α → Bool)

/-- No element of the queue is above the given one. -/
def greatest (queue : List α) (top : α) : Bool := queue.all fun other => !less top other

/-- The queue with the element at a position on top, if that is a greatest one. -/
def arrange (front : Nat) (queue : List α) : Option (List α) :=
  match queue[front]? with
  | some top => if greatest less queue top then some (top :: queue.eraseIdx front) else none
  | none => if queue.isEmpty then some [] else none

/-- The element on top is a greatest one. -/
def Topped (queue : List α) : Prop := ∀ top ∈ queue.head?, ∀ other ∈ queue, less top other = false

variable {less} {queue arranged : List α} {front : Nat}

theorem greatest_iff {top : α} : greatest less queue top = true ↔ ∀ other ∈ queue, less top other = false := by
  simp [greatest]

theorem arrange_cases (same : arrange less front queue = some arranged) :
    (queue = [] ∧ arranged = []) ∨
      ∃ top, queue[front]? = some top ∧ greatest less queue top = true ∧ arranged = top :: queue.eraseIdx front := by
  unfold arrange at same
  split at same
  · next top found =>
      split at same
      · next great =>
          cases same
          exact .inr ⟨top, found, great, rfl⟩
      · cases same
  · split at same
    · next empty =>
        cases same
        exact .inl ⟨List.isEmpty_iff.mp empty, rfl⟩
    · cases same

theorem arrange_of_greatest {top : α} (found : queue[front]? = some top) (great : greatest less queue top = true) :
    arrange less front queue = some (top :: queue.eraseIdx front) := by
  simp [arrange, found, great]

theorem perm_eraseIdx {top : α} (found : queue[front]? = some top) : (top :: queue.eraseIdx front).Perm queue := by
  obtain ⟨bound, rfl⟩ := List.getElem?_eq_some_iff.mp found
  exact List.getElem_cons_eraseIdx_perm bound

theorem arrange_perm (same : arrange less front queue = some arranged) : arranged.Perm queue := by
  rcases arrange_cases same with ⟨rfl, rfl⟩ | ⟨top, found, -, rfl⟩
  · exact .refl _
  · exact perm_eraseIdx found

theorem arrange_topped (same : arrange less front queue = some arranged) : Topped less arranged := by
  have perm := arrange_perm same
  rcases arrange_cases same with ⟨rfl, rfl⟩ | ⟨top, found, great, rfl⟩
  · rintro top ⟨⟩
  · rintro _ ⟨⟩ other member
    exact greatest_iff.mp great other (perm.mem_iff.mp member)

section Order

variable (irreflexive : ∀ a, less a a = false)
  (transitive : ∀ a b c, less a b = true → less b c = true → less a c = true)

include irreflexive transitive

theorem exists_greatest (queue : List α) (element : α) (member : element ∈ queue) :
    ∃ top ∈ queue, greatest less queue top = true ∧ (top = element ∨ less element top = true) := by
  induction queue generalizing element with
  | nil => cases member
  | cons head rest ih =>
      -- A greatest element of the rest stays one unless the head is above it, and then the head is one.
      have extend : ∀ top ∈ rest, greatest less rest top = true →
          greatest less (head :: rest) top = true ∨
            less top head = true ∧ greatest less (head :: rest) head = true := by
        intro top _ great
        rw [greatest_iff] at great
        cases below : less top head with
        | false =>
            left
            rw [greatest_iff]
            rintro other (_ | ⟨_, within⟩)
            · exact below
            · exact great other within
        | true =>
            refine .inr ⟨rfl, ?_⟩
            rw [greatest_iff]
            rintro other (_ | ⟨_, within⟩)
            · exact irreflexive head
            · by_contra above
              have further := transitive _ _ _ below (by simpa using above)
              rw [great other within] at further
              cases further
      rcases List.mem_cons.mp member with rfl | within
      · by_cases exceeded : ∃ other ∈ rest, less element other = true
        · obtain ⟨other, within, above⟩ := exceeded
          obtain ⟨top, inRest, great, reaches⟩ := ih other within
          have beyond : less element top = true := by
            rcases reaches with rfl | further
            · exact above
            · exact transitive _ _ _ above further
          rcases extend top inRest great with still | ⟨back, -⟩
          · exact ⟨top, List.mem_cons_of_mem _ inRest, still, .inr beyond⟩
          · have cycle := transitive _ _ _ beyond back
            rw [irreflexive] at cycle
            cases cycle
        · refine ⟨element, List.mem_cons_self, ?_, .inl rfl⟩
          rw [greatest_iff]
          rintro other (_ | ⟨_, within⟩)
          · exact irreflexive element
          · by_contra above
            exact exceeded ⟨other, within, by simpa using above⟩
      · obtain ⟨top, inRest, great, reaches⟩ := ih element within
        rcases extend top inRest great with still | ⟨below, headGreat⟩
        · exact ⟨top, List.mem_cons_of_mem _ inRest, still, reaches⟩
        · refine ⟨head, List.mem_cons_self, headGreat, .inr ?_⟩
          rcases reaches with rfl | further
          · exact below
          · exact transitive _ _ _ further below

theorem exists_arrange_above {element : α} (member : element ∈ queue) :
    ∃ front top rest, arrange less front queue = some (top :: rest) ∧ (top = element ∨ less element top = true) := by
  obtain ⟨top, within, great, above⟩ := exists_greatest irreflexive transitive queue element member
  obtain ⟨front, found⟩ := List.getElem?_of_mem within
  exact ⟨front, top, _, arrange_of_greatest found great, above⟩

theorem exists_arrange (queue : List α) : ∃ front arranged, arrange less front queue = some arranged := by
  cases queue with
  | nil => exact ⟨0, [], rfl⟩
  | cons head rest =>
      obtain ⟨front, top, others, arranged, -⟩ :=
        exists_arrange_above irreflexive transitive (List.mem_cons_self (a := head) (l := rest))
      exact ⟨front, _, arranged⟩

end Order

end SoulLib.Containers
