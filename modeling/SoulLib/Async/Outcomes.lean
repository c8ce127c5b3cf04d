import SoulLib.Async.Suspension

/-! What the observers of a task see.

`get` and the resumption of `co_await` end by taking the result of the task. A value
is moved out, so that it is there for one observer; an exception stays.
-/

set_option autoImplicit false

namespace SoulLib.Async

open SoulLib.Semantics (Pool System)

variable {T E : Type}

def Choice.Yields (outcome : Except E T) : Choice T E → Prop
  | .finish other => other = outcome
  | .proceed | .call _ | .coAwait _ => True

/-- The body or the callable of the task produces the outcome. -/
def Op.Yields (task : TaskId) (outcome : Except E T) (choice : Choice T E) : Op → Prop
  | .body other | .callable other => other = task → choice.Yields outcome
  | _ => True

/-- What the observers of the task have seen, in order. -/
def Shared.observations (shared : Shared T E) (task : TaskId) : List (Except E T) :=
  shared.log.filterMap fun
    | .observed other outcome => if other = task then some outcome else none
    | _ => none

/-- The outcome was produced, and no observer has taken the value away. -/
def Shared.Stored (shared : Shared T E) (task : TaskId) : Prop :=
  (shared.tasks task).result.isSome = true ∨ (shared.tasks task).exception.isSome = true

/-- Every observer of the task finds its outcome. -/
def Unspent (task : TaskId) (outcome : Except E T) (shared : Shared T E) (_ : Multiset Op) (op : Op)
    (choice : Choice T E) : Prop :=
  op.Yields task outcome choice ∧ (op = .extract task → shared.Stored task)

section Decidability

variable [DecidableEq T] [DecidableEq E]

instance (outcome : Except E T) : (choice : Choice T E) → Decidable (choice.Yields outcome)
  | .finish other => inferInstanceAs (Decidable (other = outcome))
  | .proceed | .call _ | .coAwait _ => inferInstanceAs (Decidable True)

instance (task : TaskId) (outcome : Except E T) (choice : Choice T E) : (op : Op) →
    Decidable (op.Yields task outcome choice)
  | .body other | .callable other => inferInstanceAs (Decidable (other = task → choice.Yields outcome))
  | .user | .loopGuard _ | .waitPop _ | .runJob _ | .finishJob .. | .schedule .. | .registerDependencies ..
  | .countDependency .. | .scheduleState .. | .onCompleted _ | .resumeContinuations _ | .resumeEach ..
  | .notifyScheduler _ | .releaseDependents .. | .addContinuation .. | .resumeProducer _ | .get _
  | .awaitCompletion _ | .extract _ | .wait _ | .stop _ | .joinWorkers _ | .emplace .. | .waitForAll _
  | .waitTokens .. => inferInstanceAs (Decidable True)

instance (shared : Shared T E) (task : TaskId) : Decidable (shared.Stored task) :=
  inferInstanceAs (Decidable (_ ∨ _))

instance (task : TaskId) (outcome : Except E T) (shared : Shared T E) (ops : Multiset Op) (op : Op)
    (choice : Choice T E) : Decidable (Unspent task outcome shared ops op choice) :=
  inferInstanceAs (Decidable (_ ∧ _))

end Decidability

theorem Shared.mem_observations {shared : Shared T E} {task : TaskId} {other : Except E T} :
    other ∈ shared.observations task ↔ .observed task other ∈ shared.log := by
  rw [Shared.observations, List.mem_filterMap]
  constructor
  · rintro ⟨event, member, observed⟩
    cases event with
    | observed seen found =>
        obtain ⟨rfl, rfl⟩ : seen = task ∧ found = other := by simpa using observed
        exact member
    | _ => cases observed
  · intro member
    exact ⟨_, member, if_pos rfl⟩

/-- Whatever is there to be observed is the outcome. -/
structure TaskState.Agrees (outcome : Except E T) (state : TaskState T E) : Prop where
  result : ∀ value, state.result = some value → outcome = .ok value
  exception : ∀ exception, state.exception = some exception → outcome = .error exception

namespace TaskState.Agrees

variable {outcome : Except E T} {state state' : TaskState T E}

theorem of_outcome (agrees : state.Agrees outcome) (same : state'.outcome = state.outcome) : state'.Agrees outcome := by
  obtain ⟨result, exception⟩ := Prod.mk.inj same
  constructor
  · rw [result]
    exact agrees.result
  · rw [exception]
    exact agrees.exception

theorem settle (agrees : state.Agrees outcome) : (state.settle outcome).Agrees outcome := by
  cases outcome with
  | ok value =>
      refine ⟨?_, agrees.exception⟩
      rintro _ ⟨⟩
      rfl
  | error exception =>
      refine ⟨agrees.result, ?_⟩
      rintro _ ⟨⟩
      rfl

variable [Inhabited T]

theorem observe (agrees : state.Agrees outcome) : state.observe.1.Agrees outcome := by
  cases thrown : state.exception with
  | some exception =>
      rw [TaskState.observe, thrown]
      exact agrees
  | none =>
      cases produced : state.result with
      | none =>
          simp only [TaskState.observe, TaskState.extract, thrown, produced]
          exact agrees
      | some value =>
          simp only [TaskState.observe, TaskState.extract, thrown, produced]
          constructor
          · rintro _ ⟨⟩
          · rintro _ ⟨⟩

theorem observed (agrees : state.Agrees outcome) (stored : state.result.isSome = true ∨ state.exception.isSome = true) :
    state.observe.2 = outcome := by
  cases thrown : state.exception with
  | some exception =>
      rw [agrees.exception exception thrown, TaskState.observe, thrown]
  | none =>
      obtain ⟨value, produced⟩ : ∃ value, state.result = some value := by
        rw [thrown] at stored
        exact Option.isSome_iff_exists.mp (stored.resolve_right Bool.false_ne_true)
      rw [agrees.result value produced, TaskState.observe, thrown]
      simp only [TaskState.extract, produced]

theorem observed_default (empty : ¬ (state.result.isSome = true ∨ state.exception.isSome = true)) :
    state.observe.2 = .ok default := by
  rw [not_or, Option.not_isSome_iff_eq_none, Option.not_isSome_iff_eq_none] at empty
  simp only [TaskState.observe, TaskState.extract, empty.1, empty.2]

end TaskState.Agrees

section Moves

variable [Inhabited T] {task : TaskId} {outcome : Except E T} {shared shared' : Shared T E} {op : Op}
  {choice : Choice T E} {pushed : List Op}

theorem Writes.agrees {tasks : TaskId → TaskState T E} (writes : Writes shared op choice tasks)
    (yields : op.Yields task outcome choice) (agrees : (shared.tasks task).Agrees outcome) :
    (tasks task).Agrees outcome := by
  have modified : ∀ {other : TaskId} {change : TaskState T E → TaskState T E},
      (change (shared.tasks other)).outcome = (shared.tasks other).outcome →
      ((shared.modify other change).tasks task).Agrees outcome :=
    fun same => agrees.of_outcome (Shared.field_modify TaskState.outcome same task)
  cases writes with
  | nothing => exact agrees
  | own other scheduler via => exact modified rfl
  | start before => exact modified rfl
  | wake before => exact modified rfl
  | suspend incomplete => exact modified rfl
  | @coReturn other produced =>
      rw [Shared.tasks_modify]
      split
      · next same =>
          -- What the body of this task returns is the outcome.
          obtain rfl : produced = outcome := yields same.symm
          subst same
          exact agrees.settle.of_outcome rfl
      · exact agrees
  | @returned other produced =>
      rw [Shared.tasks_modify]
      split
      · next same =>
          obtain rfl : produced = outcome := yields same.symm
          subst same
          exact agrees.settle
      · exact agrees
  | register incomplete => exact modified rfl
  | count => exact modified rfl
  | complete => exact modified rfl
  | swap => exact modified rfl
  | park incomplete => exact modified rfl
  | release front =>
      exact agrees.of_outcome ((Shared.field_modify TaskState.outcome rfl task).trans
        (Shared.field_modify TaskState.outcome rfl task))
  | @extract other _ =>
      rw [Shared.tasks_modify]
      split
      · next same =>
          subst same
          exact agrees.observe
      · exact agrees

theorem Moves.observations_extract (moves : Moves shared (.extract task) choice shared' pushed) :
    shared'.observations task = shared.observations task ++ [(shared.tasks task).observe.2] := by
  cases moves with
  | call user performed => cases user
  | extract => simp [Shared.observations, Shared.record, Shared.modify]

end Moves

section Runs

variable [Inhabited T] {task : TaskId} {outcome : Except E T} {coroutines : TaskId → Bool} {workers : List SchedulerId}
  {clients : Nat} {frames : FrameId → SchedulerId} {pool : Pool (Shared T E) Op}

/-- If every observer of a task comes when the outcome is there, all of them see it; and where the next
one comes, it sees the outcome exactly if it is there, or if the outcome is a default value anyway. -/
theorem observers_see_outcome
    (reach : (runtime T E).Reaches (Pool.admits (Unspent task outcome)) (initial coroutines workers clients frames) pool) :
    (∀ other ∈ pool.shared.observations task, other = outcome) ∧
      ∀ label after, pool.next label.1 = some (.extract task) → (runtime T E).step pool label = some after →
        ∃ other, after.shared.observations task = pool.shared.observations task ++ [other] ∧
          (other = outcome ↔ pool.shared.Stored task ∨ outcome = .ok default) := by
  have sound : (pool.shared.tasks task).Agrees outcome ∧
      ∀ other ∈ pool.shared.observations task, other = outcome := by
    apply Pool.invariant (fun shared _ => (shared.tasks task).Agrees outcome ∧
      ∀ other ∈ shared.observations task, other = outcome) _ _ reach
    · refine ⟨?_, fun other member => absurd member List.not_mem_nil⟩
      simp only [initial]
      split
      · constructor
        · rintro _ ⟨⟩
        · rintro _ ⟨⟩
      · constructor
        · rintro _ ⟨⟩
        · rintro _ ⟨⟩
    · rintro shared shared' op pushed rest choice ⟨agrees, observed⟩ ⟨yields, unspent⟩ executed
      -- Only `extract` adds an observation, and then the guard has something stored.
      have moves := execute_moves executed
      refine ⟨moves.writes.agrees yields agrees, ?_⟩
      intro other member
      rcases moves.mem_log (Shared.mem_observations.mp member) with old | rfl
      · exact observed other (Shared.mem_observations.mpr old)
      · rw [moves.observations_extract] at member
        rcases List.mem_append.mp member with old | new
        · exact observed other old
        · cases List.mem_singleton.mp new
          exact agrees.observed (unspent rfl)
  obtain ⟨agrees, observed⟩ := sound
  refine ⟨observed, ?_⟩
  intro label after moving taken
  obtain ⟨op, pushed, rest, next, executed, -, -⟩ := Pool.step_cases taken
  obtain rfl : .extract task = op := Option.some.inj (moving.symm.trans next)
  refine ⟨(pool.shared.tasks task).observe.2, (execute_moves executed).observations_extract, ?_⟩
  constructor
  · intro seen
    -- With nothing stored, a default value was seen.
    by_cases stored : pool.shared.Stored task
    · exact .inl stored
    · exact .inr (seen.symm.trans (TaskState.Agrees.observed_default stored))
  · rintro (stored | rfl)
    · exact agrees.observed stored
    · by_cases stored : pool.shared.Stored task
      · exact agrees.observed stored
      · exact TaskState.Agrees.observed_default stored

end Runs

/-- One worker and one client, who has a callable run that returns five, and then gets the result. -/
def askedOnce : List (Nat × Choice Nat Unit) :=
  (1, .call (.runAsync 0 10)) :: proceed 0 3 ++ (0, .finish (.ok 5)) :: proceed 0 1 ++ (1, .call (.get 10)) :: proceed 1 2

def served : Pool (Shared Nat Unit) Op :=
  (runtime Nat Unit).after (Pool.admits (Unspent 10 (.ok 5))) (initial (· < 10) [0] 1 fun _ => 0) askedOnce (by decide)

theorem observers_see_outcome_five : served.shared.observations 10 = [.ok 5] ∧
    ∀ other ∈ served.shared.observations 10, other = .ok 5 :=
  ⟨by decide, (observers_see_outcome (System.reaches_after _)).1⟩

/-- The client gets the result a second time. -/
theorem second_get_sees_default :
    ((runtime Nat Unit).run (Pool.admits fun _ _ op choice => op.Yields 10 (.ok 5) choice)
        (initial (· < 10) [0] 1 fun _ => 0) (askedOnce ++ (1, .call (.get 10)) :: proceed 1 2)).map
        (fun pool => pool.shared.observations 10) =
      some [.ok 5, .ok 0] := by
  decide

end SoulLib.Async
