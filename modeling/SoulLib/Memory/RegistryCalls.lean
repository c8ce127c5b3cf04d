import SoulLib.Memory.SharedPtr
import SoulLib.Semantics.Linearizability

/-! Threads that call the registry of managers at the same time.

The registry is one atomic pointer. A call accesses it once, or twice where `Get` has
found it null and exchanges it for the default manager; between the accesses other
threads may set and reset it. All accesses are in one order that every thread agrees
on.
-/

set_option autoImplicit false

namespace SoulLib.Memory.Smart

open SoulLib.Semantics (System SequentialObject Moment Completion)

inductive RegistryCall where
  | get
  | set (manager : Nat)
  | reset
  deriving DecidableEq, Repr

/-- The registry as one thread sees it; only `get` answers something. -/
def sequential : SequentialObject (Option Nat) RegistryCall (Option Nat) where
  apply stored
    | .get =>
        let (manager, scope) := MemoryRegistry.get { registry := stored }
        (scope.registry, some manager)
    | .set manager => ((MemoryRegistry.set { registry := stored } manager).registry, none)
    | .reset => ((MemoryRegistry.reset { registry := stored }).registry, none)

/-- How far a call is. `fallback` is a `Get` that has loaded a null pointer. -/
inductive Progress where
  | called (op : RegistryCall)
  | fallback
  | answered (result : Option Nat)
  | returned
  deriving DecidableEq, Repr

structure Registry where
  storage : Option Nat := none
  progress : Nat → Option Progress := fun _ => none
  history : List (Moment RegistryCall (Option Nat)) := []

/-- `access` is the load of `Get` and the store of `Set` and `Reset`. -/
inductive RegistryAction where
  | invoke (call : Nat) (op : RegistryCall)
  | access (call : Nat)
  | compareExchange (call : Nat)
  | return_ (call : Nat)
  deriving DecidableEq, Repr

/-- No other call begins. -/
def RegistryAction.Gets : RegistryAction → Prop
  | invoke _ op => op = .get
  | access _ | compareExchange _ | return_ _ => True

namespace Registry

/-- The new pointer and the answer of an access, or none where `Get` goes on. -/
def access (stored : Option Nat) : RegistryCall → Option Nat × Progress
  | .get =>
      match stored with
      | some current => (stored, .answered (some current))
      | none => (stored, .fallback)
  | .set manager => (some manager, .answered none)
  | .reset => (none, .answered none)

/-- A null pointer becomes the default manager; any other one is `expected` afterwards. -/
def compareExchange (stored : Option Nat) : Option Nat × Progress :=
  match stored with
  | none => (some 0, .answered (some 0))
  | some expected => (some expected, .answered (some expected))

def advance (registry : Registry) (call : Nat) (outcome : Option Nat × Progress) : Registry :=
  { registry with storage := outcome.1, progress := Function.update registry.progress call (some outcome.2) }

def record (registry : Registry) (call : Nat) (moment : Moment RegistryCall (Option Nat)) (progress : Progress) :
    Registry :=
  { registry with
    history := registry.history ++ [moment]
    progress := Function.update registry.progress call (some progress) }

def step (registry : Registry) : RegistryAction → Option Registry
  | .invoke call op =>
      match registry.progress call with
      | none => some (registry.record call (.invoke call op) (.called op))
      | some _ => none
  | .access call =>
      match registry.progress call with
      | some (.called op) => some (registry.advance call (access registry.storage op))
      | _ => none
  | .compareExchange call =>
      match registry.progress call with
      | some .fallback => some (registry.advance call (compareExchange registry.storage))
      | _ => none
  | .return_ call =>
      match registry.progress call with
      | some (.answered result) => some (registry.record call (.return_ call result) .returned)
      | _ => none

def system : System Registry RegistryAction where
  step := step

variable {registry after : Registry} {call : Nat} {op : RegistryCall} {stored : Option Nat}

section Effects

theorem access_cases (stored : Option Nat) (op : RegistryCall) :
    access stored op = ((sequential.apply stored op).1, .answered (sequential.apply stored op).2) ∨
      stored = none ∧ op = .get ∧ access stored op = (none, .fallback) := by
  cases op with
  | set manager => exact .inl rfl
  | reset => exact .inl rfl
  | get =>
      cases stored with
      | some current => exact .inl rfl
      | none => exact .inr ⟨rfl, rfl, rfl⟩

/-- The exchange does what the whole `Get` does, whatever has happened since it loaded the pointer. -/
theorem compareExchange_eq (stored : Option Nat) :
    compareExchange stored = ((sequential.apply stored .get).1, .answered (sequential.apply stored .get).2) := by
  cases stored <;> rfl

/-- What a step does, in terms of whole calls. -/
inductive Effect (registry : Registry) : RegistryAction → Registry → Prop where
  | invoke {call : Nat} (op : RegistryCall) (fresh : registry.progress call = none) :
      Effect registry (.invoke call op) (registry.record call (.invoke call op) (.called op))
  | loadedNull {call : Nat} (called : registry.progress call = some (.called .get)) (null : registry.storage = none) :
      Effect registry (.access call) (registry.advance call (none, .fallback))
  | effect {action : RegistryAction} {call : Nat} {op : RegistryCall}
      (pending : registry.progress call = some (.called op) ∨ op = .get ∧ registry.progress call = some .fallback) :
      Effect registry action (registry.advance call
        ((sequential.apply registry.storage op).1, .answered (sequential.apply registry.storage op).2))
  | return_ {call : Nat} {result : Option Nat} (answered : registry.progress call = some (.answered result)) :
      Effect registry (.return_ call) (registry.record call (.return_ call result) .returned)

theorem step_effect {action : RegistryAction} (taken : registry.step action = some after) :
    Effect registry action after := by
  cases action with
  | invoke call op =>
      simp only [step] at taken
      split at taken
      · next fresh =>
          cases taken
          exact .invoke op fresh
      · cases taken
  | access call =>
      simp only [step] at taken
      split at taken
      · next op called =>
          cases taken
          -- Get of a null pointer needs a second access, all others are done with the first
          rcases access_cases registry.storage op with whole | ⟨null, rfl, loaded⟩
          · rw [whole]
            exact .effect (.inl called)
          · rw [loaded]
            exact .loadedNull called null
      · cases taken
  | compareExchange call =>
      simp only [step] at taken
      split at taken
      · next loaded =>
          cases taken
          rw [compareExchange_eq]
          exact .effect (.inr ⟨rfl, loaded⟩)
      · cases taken
  | return_ call =>
      simp only [step] at taken
      split at taken
      · next result answered =>
          cases taken
          exact .return_ answered
      · cases taken

end Effects

section Agreement

variable {history : List (Moment RegistryCall (Option Nat))} {order : List (Completion RegistryCall (Option Nat))}
  {progress : Option Progress}

/-- How far a call is, as the history and the order of effects have it. -/
def Agrees (history : List (Moment RegistryCall (Option Nat))) (order : List (Completion RegistryCall (Option Nat)))
    (call : Nat) : Option Progress → Prop
  | none => ∀ op, .invoke call op ∉ history
  | some (.called op) => .invoke call op ∈ history ∧ call ∉ order.map Completion.call
  | some .fallback => .invoke call .get ∈ history ∧ call ∉ order.map Completion.call
  | some (.answered result) => ∃ op, ⟨call, op, result⟩ ∈ order
  | some .returned => True

theorem Agrees.widen (agrees : Agrees history order call progress) {moments : List (Moment RegistryCall (Option Nat))}
    {completions : List (Completion RegistryCall (Option Nat))} (moment : ∀ op, .invoke call op ∉ moments)
    (completion : call ∉ completions.map Completion.call) :
    Agrees (history ++ moments) (order ++ completions) call progress := by
  have pending {op : RegistryCall} (before : .invoke call op ∈ history ∧ call ∉ order.map Completion.call) :
      .invoke call op ∈ history ++ moments ∧ call ∉ (order ++ completions).map Completion.call := by
    refine ⟨List.mem_append_left _ before.1, ?_⟩
    rw [List.map_append, List.mem_append]
    exact not_or.mpr ⟨before.2, completion⟩
  match progress with
  | none => exact fun op member => (List.mem_append.mp member).elim (agrees op) (moment op)
  | some (.called _) => exact pending agrees
  | some .fallback => exact pending agrees
  | some (.answered _) =>
      obtain ⟨op, among⟩ := agrees
      exact ⟨op, List.mem_append_left _ among⟩
  | some .returned => trivial

/-- Each call so far has taken effect at one of its accesses, in this order. -/
structure Ordered (registry : Registry) (order : List (Completion RegistryCall (Option Nat))) : Prop where
  pointed : sequential.Pointed none registry.history order registry.storage
  agrees : ∀ call, Agrees registry.history order call (registry.progress call)

theorem Ordered.update (ordered : Ordered registry order) {history : List (Moment RegistryCall (Option Nat))}
    {extended : List (Completion RegistryCall (Option Nat))} {call : Nat} {now : Progress}
    (moments : ∃ more, registry.history ++ more = history ∧ ∀ other ≠ call, ∀ op, .invoke other op ∉ more)
    (completions : ∃ more, order ++ more = extended ∧ ∀ other ≠ call, other ∉ more.map Completion.call)
    (here : Agrees history extended call (some now)) (other : Nat) :
    Agrees history extended other (Function.update registry.progress call (some now) other) := by
  obtain ⟨moments, rfl, moment⟩ := moments
  obtain ⟨completions, rfl, completion⟩ := completions
  by_cases same : other = call
  · subst same
    rw [Function.update_self]
    exact here
  · rw [Function.update_of_ne same]
    exact (ordered.agrees other).widen (moment other same) (completion other same)

theorem Ordered.effect {action : RegistryAction} (ordered : Ordered registry order)
    (effect : Effect registry action after) :
    ∃ extended, Ordered after extended := by
  have unanswered {call : Nat} (unused : ∀ op, .invoke call op ∉ registry.history) :
      call ∉ order.map Completion.call := by
    intro member
    obtain ⟨completion, among, rfl⟩ := List.mem_map.mp member
    exact unused _ (ordered.pointed.linearizes.invoked completion among)
  cases effect with
  | @invoke call op fresh =>
      have unused := ordered.agrees call
      rw [fresh] at unused
      refine ⟨order, ordered.pointed.invoke op unused, ?_⟩
      apply ordered.update
      · refine ⟨[.invoke call op], rfl, ?_⟩
        intro other differs operation member
        cases List.mem_singleton.mp member
        exact differs rfl
      · exact ⟨[], List.append_nil order, fun _ _ => List.not_mem_nil⟩
      · exact ⟨List.mem_append_right _ (List.mem_singleton.mpr rfl), unanswered unused⟩
  | @loadedNull call called null =>
      have here := ordered.agrees call
      rw [called] at here
      refine ⟨order, null ▸ ordered.pointed, ?_⟩
      apply ordered.update
      · exact ⟨[], List.append_nil _, fun _ _ _ => List.not_mem_nil⟩
      · exact ⟨[], List.append_nil order, fun _ _ => List.not_mem_nil⟩
      · exact here
  | @effect action call op pending =>
      -- A `Get` that has loaded a null pointer has had no effect yet.
      have here : .invoke call op ∈ registry.history ∧ call ∉ order.map Completion.call := by
        have agrees := ordered.agrees call
        rcases pending with called | ⟨rfl, loaded⟩
        · rwa [called] at agrees
        · rwa [loaded] at agrees
      refine ⟨_, ordered.pointed.effect here.1 here.2, ?_⟩
      apply ordered.update
      · exact ⟨[], List.append_nil _, fun _ _ _ => List.not_mem_nil⟩
      · refine ⟨_, rfl, ?_⟩
        intro other differs member
        exact differs (List.mem_singleton.mp member)
      · exact ⟨op, List.mem_append_right _ (List.mem_singleton.mpr rfl)⟩
  | @return_ call result answered =>
      have here := ordered.agrees call
      rw [answered] at here
      obtain ⟨op, among⟩ := here
      refine ⟨order, ordered.pointed.return_ among, ?_⟩
      apply ordered.update
      · refine ⟨[.return_ call result], rfl, ?_⟩
        intro other _ operation member
        cases List.mem_singleton.mp member
      · exact ⟨[], List.append_nil order, fun _ _ => List.not_mem_nil⟩
      · trivial

theorem ordered_reached (reach : system.Reaches (fun _ _ => True) {} registry) :
    ∃ order, Ordered registry order := by
  induction reach with
  | start => exact ⟨[], .begin, fun _ _ => List.not_mem_nil⟩
  | next _ _ taken ih =>
      obtain ⟨order, ordered⟩ := ih
      exact ordered.effect (step_effect taken)

end Agreement

section Quiet

/-- No `Set` or `Reset` has yet to store. -/
def Quiet (registry : Registry) : Prop := ∀ call op, registry.progress call = some (.called op) → op = .get

/-- What is so of a registry that only `Get` has been called on since it was `registry`. -/
structure Settled (registry after : Registry) : Prop where
  storage : after.storage = registry.storage ∨ after.storage = some (registry.storage.getD 0)
  quiet : after.Quiet
  answered : ∀ call result, after.progress call = some (.answered result) →
    registry.progress call = some (.answered result) ∨ result = some (registry.storage.getD 0)
  returned : ∀ call result, .return_ call result ∈ after.history →
    .return_ call result ∈ registry.history ∨ registry.progress call = some (.answered result) ∨
      result = some (registry.storage.getD 0)

theorem quiet_update {now : Progress} (quiet : registry.Quiet) (here : ∀ op, now = .called op → op = .get)
    (call other : Nat) (op : RegistryCall)
    (called : Function.update registry.progress call (some now) other = some (.called op)) : op = .get := by
  by_cases same : other = call
  · subst same
    rw [Function.update_self] at called
    exact here op (Option.some.inj called)
  · rw [Function.update_of_ne same] at called
    exact quiet other op called

theorem Settled.update (settled : Settled registry after) {now : Progress} {storage : Option Nat}
    {history : List (Moment RegistryCall (Option Nat))} (call : Nat)
    (stored : storage = registry.storage ∨ storage = some (registry.storage.getD 0))
    (pending : ∀ op, now = .called op → op = .get)
    (answer : ∀ result, now = .answered result → result = some (registry.storage.getD 0))
    (returns : ∀ other result, .return_ other result ∈ history → .return_ other result ∈ after.history ∨
      after.progress other = some (.answered result)) :
    Settled registry ⟨storage, Function.update after.progress call (some now), history⟩ := by
  refine ⟨stored, quiet_update settled.quiet pending call, ?_, ?_⟩
  · intro other result (answered : Function.update after.progress call (some now) other = some (.answered result))
    by_cases same : other = call
    · subst same
      rw [Function.update_self] at answered
      exact .inr (answer result (Option.some.inj answered))
    · rw [Function.update_of_ne same] at answered
      exact settled.answered other result answered
  · intro other result member
    rcases returns other result member with before | answered
    · exact settled.returned other result before
    · exact .inr (settled.answered other result answered)

theorem Settled.effect {final : Registry} {action : RegistryAction} (settled : Settled registry after)
    (effect : Effect after action final) (gets : action.Gets) :
    Settled registry final := by
  cases effect with
  | @invoke call op fresh =>
      apply settled.update call settled.storage
      · rintro _ ⟨⟩
        exact gets
      · exact fun _ impossible => by cases impossible
      · intro other result member
        rcases List.mem_append.mp member with before | new
        · exact .inl before
        · cases List.mem_singleton.mp new
  | @loadedNull call called null =>
      apply settled.update call (null ▸ settled.storage)
      · exact fun _ impossible => by cases impossible
      · exact fun _ impossible => by cases impossible
      · exact fun _ _ => .inl
  | @effect action call op pending =>
      -- only Gets are under way, whether loaded or not
      have asked : op = .get := by
        rcases pending with called | ⟨here, -⟩
        · exact settled.quiet call op called
        · exact here
      subst asked
      -- Get stores and answers the same manager, also where it had to make one
      have stays : sequential.apply after.storage .get =
          (some (registry.storage.getD 0), some (registry.storage.getD 0)) := by
        rcases settled.storage with same | same <;> rw [same] <;> cases registry.storage <;> rfl
      rw [stays]
      apply settled.update call (.inr rfl)
      · exact fun _ impossible => by cases impossible
      · rintro _ ⟨⟩
        rfl
      · exact fun _ _ => .inl
  | @return_ call result answered =>
      apply settled.update call settled.storage
      · exact fun _ impossible => by cases impossible
      · exact fun _ impossible => by cases impossible
      · intro other value member
        rcases List.mem_append.mp member with before | new
        · exact .inl before
        · cases List.mem_singleton.mp new
          exact .inr answered

end Quiet

end Registry

end SoulLib.Memory.Smart
