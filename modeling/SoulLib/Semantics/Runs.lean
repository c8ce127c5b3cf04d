import Mathlib.Data.List.Basic

/-! Labelled transition systems whose steps can be executed.

A label resolves every choice of one step, so a step is a partial function and
a run is the list of its labels. `Reaches` additionally records that each step
of a run was admitted in the state in which it was taken.
-/

set_option autoImplicit false

namespace SoulLib.Semantics

/-- `step s label` is `none` when the label is not enabled in `s`. -/
structure System (State Label : Type) where
  step : State → Label → Option State

namespace System

variable {State Label : Type} (system : System State Label)

/-- The states reached from `start` by steps that are all admitted. -/
inductive Reaches (admits : State → Label → Prop) (start : State) : State → Prop where
  | start : Reaches admits start start
  | next {state after : State} {label : Label} : Reaches admits start state → admits state label →
      system.step state label = some after → Reaches admits start after

/-- Take the labels in order, refusing a step that is not admitted. -/
def runWhile (admits : State → Label → Bool) (state : State) : List Label → Option State
  | [] => some state
  | label :: rest =>
      if admits state label then (system.step state label).bind fun after => runWhile admits after rest
      else none

/-- The property holds in every state of the run that takes the labels as far as they are enabled. -/
def Throughout (holds : State → Prop) (state : State) : List Label → Prop
  | [] => holds state
  | label :: rest => holds state ∧ ∀ after, system.step state label = some after → Throughout holds after rest

/-- Every step of that run is admitted in the state in which it is taken. -/
def Admitted (admits : State → Label → Prop) (state : State) : List Label → Prop
  | [] => True
  | label :: rest => ∀ after, system.step state label = some after → admits state label ∧ Admitted admits after rest

variable {system}

/-- The property is kept along a run exactly if all steps are admitted, provided that
this is so of each step that is taken in a sound state. -/
theorem throughout_iff_admitted {sound holds : State → Prop} {admits : State → Label → Prop}
    (kept : ∀ s l s', sound s → system.step s l = some s' → sound s')
    (exact : ∀ s l s', sound s → holds s → system.step s l = some s' → (holds s' ↔ admits s l))
    {start : State} (initially : sound start) (initial : holds start) (labels : List Label) :
    system.Throughout holds start labels ↔ system.Admitted admits start labels := by
  induction labels generalizing start with
  | nil => exact ⟨fun _ => trivial, fun _ => initial⟩
  | cons label rest ih =>
      constructor
      · rintro ⟨-, along⟩ after taken
        have continues := along after taken
        have here : holds after := by
          cases rest with
          | nil => exact continues
          | cons _ _ => exact continues.1
        exact ⟨(exact _ _ _ initially initial taken).mp here, (ih (kept _ _ _ initially taken) here).mp continues⟩
      · intro admitted
        refine ⟨initial, ?_⟩
        intro after taken
        obtain ⟨allowed, continues⟩ := admitted after taken
        have here := (exact _ _ _ initially initial taken).mpr allowed
        exact (ih (kept _ _ _ initially taken) here).mpr continues

namespace Reaches

variable {admits : State → Label → Prop} {start state after : State} {label : Label}

theorem trans (first : system.Reaches admits start state) (rest : system.Reaches admits state after) :
    system.Reaches admits start after := by
  induction rest with
  | start => exact first
  | next _ allowed taken ih => exact .next ih allowed taken

theorem andThen (reach : system.Reaches admits start state) (label : Label)
    (taken : system.step state label = some after) (allowed : admits state label) :
    system.Reaches admits start after := .next reach allowed taken

/-- Steps that are admitted in every reached state are admitted along the run. -/
theorem of_reached {wider : State → Label → Prop} (reach : system.Reaches admits start state)
    (weaker : ∀ s l, system.Reaches admits start s → admits s l → wider s l) :
    system.Reaches wider start state := by
  induction reach with
  | start => exact .start
  | next earlier allowed taken ih => exact .next ih (weaker _ _ earlier allowed) taken

/-- A property that holds at the start and is kept by every admitted step of a
reached state holds of every reached state. -/
theorem invariant {holds : State → Prop} (initial : holds start)
    (kept : ∀ s l s', system.Reaches admits start s → holds s → admits s l →
      system.step s l = some s' → holds s')
    (reach : system.Reaches admits start state) : holds state := by
  induction reach with
  | start => exact initial
  | next earlier allowed taken ih => exact kept _ _ _ earlier ih allowed taken

end Reaches

/-- An executed run is a run of the system. -/
theorem reaches_of_runWhile {admits : State → Label → Bool} {allows : State → Label → Prop}
    (sound : ∀ s l, admits s l = true → allows s l) {state after : State} {labels : List Label}
    (ran : system.runWhile admits state labels = some after) : system.Reaches allows state after := by
  induction labels generalizing state with
  | nil =>
      cases ran
      exact .start
  | cons label labels ih =>
      simp only [runWhile] at ran
      split at ran
      · next allowed =>
          obtain ⟨middle, taken, rest⟩ := Option.bind_eq_some_iff.mp ran
          exact (Reaches.next .start (sound _ _ allowed) taken).trans (ih rest)
      · cases ran

section Execution

variable (system) (admits : State → Label → Prop) [∀ s l, Decidable (admits s l)] (start : State)

/-- Take the labels in order, as long as each is admitted. -/
def run (labels : List Label) : Option State :=
  system.runWhile (fun state label => decide (admits state label)) start labels

/-- The state in which an admitted list of labels ends. -/
def after (labels : List Label) (admitted : (system.run admits start labels).isSome) : State :=
  (system.run admits start labels).get admitted

variable {system admits start}

theorem reaches_of_run {labels : List Label} {state : State}
    (ran : system.run admits start labels = some state) : system.Reaches admits start state :=
  reaches_of_runWhile (fun _ _ => of_decide_eq_true) ran

theorem reaches_after {labels : List Label} (admitted : (system.run admits start labels).isSome) :
    system.Reaches admits start (system.after admits start labels admitted) :=
  reaches_of_run (Option.some_get admitted).symm

end Execution

end System

end SoulLib.Semantics
