import Mathlib.Logic.Function.Basic

/-! Task states and coroutine handles.

A task state is named by a number, and so are the handle of its coroutine and
the tokens that refer to it. Every coroutine is the coroutine of some task. Its
frame is never destroyed and its promise owns the task state, so a weak pointer
to a task state can always be locked.
-/

set_option autoImplicit false

namespace SoulLib.Async

abbrev TaskId := Nat

abbrev SchedulerId := Nat

/-- `TaskToken`: a task state, or none. -/
abbrev TaskToken := Option TaskId

/-- Where a coroutine is. The handle is null for a task made by `run_async`. -/
inductive Coroutine where
  | null
  | initial
  | running
  | awaiting (task : TaskId)
  | final
  deriving DecidableEq, Repr

namespace Coroutine

def done (coroutine : Coroutine) : Bool := coroutine = .final

/-- The test `coroutine && !coroutine.done()`. -/
def resumable (coroutine : Coroutine) : Bool := coroutine ≠ .null && !coroutine.done

end Coroutine

structure TaskState (T E : Type) where
  continuations : List TaskId := []
  completed : Bool := false
  scheduler : Option SchedulerId := none
  pendingDependencies : BitVec 32 := 0
  dependents : List TaskId := []
  coroutine : Coroutine := .null
  exception : Option E := none
  result : Option T := none

namespace TaskState

variable {T E : Type}

/-- A coroutine that was called and is suspended at its initial suspend point. -/
def ofCoroutine : TaskState T E := { coroutine := .initial }

def settle (state : TaskState T E) : Except E T → TaskState T E
  | .ok value => { state with result := some value }
  | .error exception => { state with exception := some exception }

/-- `extract` moves the value out; without one it answers `T{}`. -/
def extract [Inhabited T] (state : TaskState T E) : TaskState T E × T :=
  match state.result with
  | none => (state, default)
  | some value => ({ state with result := none }, value)

/-- The end of `get` and `await_resume`: rethrow the exception or extract. -/
def observe [Inhabited T] (state : TaskState T E) : TaskState T E × Except E T :=
  match state.exception with
  | some exception => (state, .error exception)
  | none =>
      let (state, value) := state.extract
      (state, .ok value)

theorem settle_eq (state : TaskState T E) (outcome : Except E T) :
    state.settle outcome = { state with
      exception := (state.settle outcome).exception
      result := (state.settle outcome).result } := by
  cases outcome <;> rfl

theorem observe_eq [Inhabited T] (state : TaskState T E) :
    state.observe.1 = { state with result := state.observe.1.result } := by
  obtain ⟨_, _, _, _, _, _, exception, result⟩ := state
  cases exception <;> cases result <;> rfl

end TaskState

/-- The closures that a scheduler queues: from `schedule_state`, from
`resume_coroutine`, and from `run_async`. -/
inductive Job where
  | resumeState (task : TaskId)
  | resumeHandle (handle : TaskId)
  | callable (task : TaskId)
  deriving DecidableEq, Repr

end SoulLib.Async
