import Mathlib.Data.List.Basic

/-! What one observer of a machine can tell of its runs.

Some labels concern the observer and others do not. If the others leave the
observer's view alone, and the view determines what the labels that concern it
answer and make of the view, then the others may as well not have happened.
-/

set_option autoImplicit false

namespace SoulLib.Semantics

variable {State Label Answer View : Type}

/-- The state after a list of labels. -/
def final (execute : State → Label → State × Answer) (state : State) (labels : List Label) : State :=
  labels.foldl (fun state label => (execute state label).1) state

/-- What the labels that concern the observer answer. -/
def answers (execute : State → Label → State × Answer) (concerns : Label → Bool) (state : State) :
    List Label → List Answer
  | [] => []
  | label :: rest =>
      let after := answers execute concerns (execute state label).1 rest
      if concerns label then (execute state label).2 :: after else after

/-- A view that is kept by what does not concern it, and that decides everything else. -/
structure Unwinding (execute : State → Label → State × Answer) (concerns : Label → Bool) (view : State → View) : Prop where
  respects : ∀ state label, concerns label = false → view (execute state label).1 = view state
  consistent : ∀ state other label, concerns label = true → view state = view other →
    (execute state label).2 = (execute other label).2 ∧ view (execute state label).1 = view (execute other label).1

namespace Unwinding

variable {execute : State → Label → State × Answer} {concerns : Label → Bool} {view : State → View}

/-- Labels that do not concern the observer can be left out. -/
theorem purge (unwinding : Unwinding execute concerns view) {state other : State} (same : view state = view other)
    (labels : List Label) :
    answers execute concerns state labels = answers execute concerns other (labels.filter concerns) ∧
      view (final execute state labels) = view (final execute other (labels.filter concerns)) := by
  induction labels generalizing state other with
  | nil => exact ⟨rfl, same⟩
  | cons label labels ih =>
      cases concerned : concerns label with
      | true =>
          obtain ⟨answered, alike⟩ := unwinding.consistent state other label concerned same
          obtain ⟨rest, last⟩ := ih alike
          rw [List.filter_cons_of_pos concerned, answers, answers, if_pos concerned, if_pos concerned, answered, rest]
          exact ⟨rfl, last⟩
      | false =>
          have alike := (unwinding.respects state label concerned).trans same
          obtain ⟨rest, last⟩ := ih alike
          rw [List.filter_cons_of_neg (by rw [concerned]; decide), answers, concerned]
          exact ⟨rest, last⟩

/-- Runs that look the same at the start and concern the observer in the same way are the same to it. -/
theorem same_answers (unwinding : Unwinding execute concerns view) {state other : State} (same : view state = view other)
    {labels others : List Label} (filtered : labels.filter concerns = others.filter concerns) :
    answers execute concerns state labels = answers execute concerns other others ∧
      view (final execute state labels) = view (final execute other others) := by
  obtain ⟨here, last⟩ := unwinding.purge same labels
  obtain ⟨there, last'⟩ := unwinding.purge (Eq.refl (view other)) others
  rw [here, last, there, last', filtered]
  exact ⟨rfl, rfl⟩

end Unwinding

end SoulLib.Semantics
