import Mathlib.Algebra.BigOperators.Group.Multiset.Basic
import Mathlib.Algebra.GroupWithZero.Nat
import Mathlib.Data.Multiset.Filter
import SoulLib.Async.Gate
import SoulLib.Async.Moves

/-! The dependency counter of one task is a counting gate.

For a fixed task, everything the threads do is a step of its gate or concerns
the gate only by completing tasks. `schedule_state` is applied to the task when
the gate opens.
-/

set_option autoImplicit false

namespace SoulLib.Async

open SoulLib.Semantics (Pool System)

variable {T E : Type}

/-- The registration phase of the task that an operation stands for. -/
def Op.phase (task : TaskId) : Op → Option (Phase TaskId 32)
  | .registerDependencies _ other rest pending =>
      if other = task then some (.registering rest pending) else none
  | .countDependency _ other rest pending => if other = task then some (.counting rest pending) else none
  | _ => none

/-- How often the operation is still going to apply `schedule_state` to the task. -/
def Op.applies (task : TaskId) : Op → Nat
  | .scheduleState _ other => if other = task then 1 else 0
  | .releaseDependents _ _ ready => ready.count task
  | _ => 0

def Event.applies (task : TaskId) : Event T E → Bool
  | .enqueued _ (.resumeState other) => other = task
  | _ => false

def Event.schedules (task : TaskId) : Event T E → Option (List TaskToken)
  | .scheduled other dependencies => if other = task then some dependencies else none
  | _ => none

namespace Shared

variable (shared : Shared T E)

/-- How often `schedule_state` was applied to the task. -/
def applied (task : TaskId) : Nat := shared.log.countP (Event.applies task)

/-- The dependency lists with which the task was scheduled. -/
def schedules (task : TaskId) : List (List TaskToken) := shared.log.filterMap (Event.schedules task)

end Shared

/-- The phases that are pending operations. -/
def Phase.pending : Phase TaskId 32 → Multiset (Phase TaskId 32)
  | .idle | .settled => 0
  | .registering rest pending => {.registering rest pending}
  | .counting rest pending => {.counting rest pending}

def Gate.schedules (gate : Gate TaskId 32) : List (List TaskToken) :=
  match gate.phase with
  | .idle => []
  | .registering .. | .counting .. | .settled => [gate.dependencies]

/-- The shared state and the pending operations show the gate of the task. -/
structure Gates (task : TaskId) (shared : Shared T E) (ops : Multiset Op) (gate : Gate TaskId 32) : Prop where
  completed : gate.completed = fun dependency => (shared.tasks dependency).completed
  held : ∀ dependency, gate.held.count dependency = (shared.tasks dependency).dependents.count task
  counter : gate.counter = (shared.tasks task).pendingDependencies
  phase : ops.filterMap (Op.phase task) = gate.phase.pending
  schedules : shared.schedules task = gate.schedules
  opened : gate.opened = shared.applied task + (ops.map (Op.applies task)).sum

/-- No dependency bookkeeping and no completion in between. -/
structure Undisturbed (shared shared' : Shared T E) : Prop where
  completed : ∀ task, (shared'.tasks task).completed = (shared.tasks task).completed
  dependents : ∀ task, (shared'.tasks task).dependents = (shared.tasks task).dependents
  counter : ∀ task, (shared'.tasks task).pendingDependencies = (shared.tasks task).pendingDependencies
  schedules : ∀ task, shared'.schedules task = shared.schedules task
  applied : ∀ task, shared'.applied task = shared.applied task

namespace Undisturbed

variable {shared shared' : Shared T E}

theorem refl (shared : Shared T E) : Undisturbed shared shared :=
  ⟨fun _ => rfl, fun _ => rfl, fun _ => rfl, fun _ => rfl, fun _ => rfl⟩

theorem modify (undisturbed : Undisturbed shared shared') {task : TaskId}
    {change : TaskState T E → TaskState T E}
    (completed : ∀ state, (change state).completed = state.completed)
    (dependents : ∀ state, (change state).dependents = state.dependents)
    (counter : ∀ state, (change state).pendingDependencies = state.pendingDependencies) :
    Undisturbed shared (shared'.modify task change) where
  completed other := (Shared.field_modify TaskState.completed (completed _) other).trans
    (undisturbed.completed other)
  dependents other := (Shared.field_modify TaskState.dependents (dependents _) other).trans
    (undisturbed.dependents other)
  counter other := (Shared.field_modify TaskState.pendingDependencies (counter _) other).trans
    (undisturbed.counter other)
  schedules := undisturbed.schedules
  applied := undisturbed.applied

theorem record (undisturbed : Undisturbed shared shared') {event : Event T E}
    (schedules : ∀ task, event.schedules task = none) (applied : ∀ task, event.applies task = false) :
    Undisturbed shared (shared'.record event) where
  completed := undisturbed.completed
  dependents := undisturbed.dependents
  counter := undisturbed.counter
  schedules task := by
    rw [← undisturbed.schedules task]
    simp [Shared.schedules, schedules]
  applied task := by
    rw [← undisturbed.applied task]
    simp [Shared.applied, applied]

theorem modifyScheduler (undisturbed : Undisturbed shared shared') (scheduler : SchedulerId)
    (adjust : TaskScheduler → TaskScheduler) : Undisturbed shared (shared'.modifyScheduler scheduler adjust) :=
  ⟨undisturbed.completed, undisturbed.dependents, undisturbed.counter, undisturbed.schedules,
    undisturbed.applied⟩

theorem trans {shared'' : Shared T E} (first : Undisturbed shared shared')
    (second : Undisturbed shared' shared'') : Undisturbed shared shared'' where
  completed task := (second.completed task).trans (first.completed task)
  dependents task := (second.dependents task).trans (first.dependents task)
  counter task := (second.counter task).trans (first.counter task)
  schedules task := (second.schedules task).trans (first.schedules task)
  applied task := (second.applied task).trans (first.applied task)

theorem resumes {handle : TaskId} {ops : List Op} (resumes : Resumes shared handle shared' ops) :
    Undisturbed shared shared' := by
  have running : Undisturbed shared (shared.setCoroutine handle .running) := by
    apply (refl shared).modify
    all_goals
      intro state
      rfl
  cases resumes with
  | start => exact running.record (fun _ => rfl) (fun _ => rfl)
  | wake => exact running.record (fun _ => rfl) (fun _ => rfl)
  | misuse => exact (refl shared).record (fun _ => rfl) (fun _ => rfl)

theorem dispatches {handle : TaskId} {scheduler : Option SchedulerId} {ops : List Op}
    (dispatches : Dispatches shared handle scheduler shared' ops) : Undisturbed shared shared' := by
  cases dispatches with
  | enqueue scheduler =>
      apply ((refl shared).modifyScheduler scheduler _).record
      all_goals
        intro task
        rfl
  | inline inline => exact resumes inline

theorem perform {call : Call} {ops : List Op} (performed : shared.perform call = some (shared', ops)) :
    Undisturbed shared shared' := by
  cases call with
  | runAsync scheduler task =>
      simp only [Shared.perform] at performed
      split at performed
      · cases performed
        -- run_async sets the scheduler of a task, which is no part of its bookkeeping
        have owned : Undisturbed shared
            (shared.modify task fun state => { state with scheduler := some scheduler }) := by
          apply (refl shared).modify
          all_goals
            intro state
            rfl
        apply (owned.modifyScheduler scheduler _).record
        all_goals
          intro task
          rfl
      · cases performed
  | run scheduler =>
      cases performed
      exact (refl shared).modifyScheduler scheduler _
  | frameScheduleAfter frame delay name task dependencies =>
      simp only [Shared.perform] at performed
      split at performed
      · cases performed
        exact refl shared
      · cases performed
  | schedule scheduler task dependencies =>
      cases performed
      exact refl shared
  | get task =>
      cases performed
      exact refl shared
  | wait token =>
      cases performed
      exact refl shared
  | stop scheduler =>
      cases performed
      exact refl shared
  | frameSchedule frame name task dependencies =>
      cases performed
      exact refl shared
  | waitForAll frame =>
      cases performed
      exact refl shared

end Undisturbed

/-- A move that concerns the gate of the task only by completing tasks. -/
structure Quiet (task : TaskId) (shared : Shared T E) (op : Op) (shared' : Shared T E) (pushed : List Op) :
    Prop where
  completed : ∀ dependency, (shared.tasks dependency).completed = true →
    (shared'.tasks dependency).completed = true
  dependents : ∀ dependency, (shared'.tasks dependency).dependents.count task =
    (shared.tasks dependency).dependents.count task
  counter : (shared'.tasks task).pendingDependencies = (shared.tasks task).pendingDependencies
  schedules : shared'.schedules task = shared.schedules task
  phase : pushed.filterMap (Op.phase task) = (op.phase task).toList
  opened : shared'.applied task + (pushed.map (Op.applies task)).sum = shared.applied task + op.applies task

theorem Undisturbed.quiet {shared shared' : Shared T E} (undisturbed : Undisturbed shared shared')
    {task : TaskId} {op : Op} {pushed : List Op}
    (phase : pushed.filterMap (Op.phase task) = (op.phase task).toList)
    (opened : (pushed.map (Op.applies task)).sum = op.applies task) : Quiet task shared op shared' pushed where
  completed dependency done := (undisturbed.completed dependency).trans done
  dependents dependency := by rw [undisturbed.dependents]
  counter := undisturbed.counter task
  schedules := undisturbed.schedules task
  phase := phase
  opened := by rw [undisturbed.applied, opened]

/-- The operations of `schedule`, `on_completed` and `on_task_finished`. -/
def Op.bookkeeping : Op → Bool
  | .onCompleted _ | .schedule .. | .registerDependencies .. | .countDependency .. | .scheduleState ..
  | .releaseDependents .. => true
  | _ => false

theorem not_bookkeeping_of_isUser {op : Op} (user : op.isUser = true) : op.bookkeeping = false := by
  cases op <;> first | rfl | cases user

/-- The operation may change the counter or the registrations of the task. -/
def Op.concerns (task : TaskId) (shared : Shared T E) : Op → Bool
  | .schedule _ other _ | .registerDependencies _ other _ _ | .countDependency _ other _ _ => other = task
  | .releaseDependents _ dependency _ => (shared.tasks dependency).dependents.head? = some task
  | _ => false

/-- While the operation is pending, a release cannot be mistaken for the last one. -/
def Op.Timely (task : TaskId) (shared : Shared T E) (op : Op) : Prop :=
  ∀ phase ∈ op.phase task, phase.Timely (fun dependency => (shared.tasks dependency).completed)
    (shared.tasks task).pendingDependencies

/-- The task is scheduled once, with fewer than `2 ^ 32` dependencies; no dependency
releases it while its registration is still open to a mistake; and a dependency
that holds a registration of it belongs to a scheduler when it completes. -/
def Timely (task : TaskId) (shared : Shared T E) (ops : Multiset Op) (op : Op) (_ : Choice T E) : Prop :=
  match op with
  | .schedule _ other dependencies =>
      other = task → shared.schedules task = [] ∧ dependencies.length < 2 ^ 32
  | .releaseDependents _ dependency _ =>
      (shared.tasks dependency).dependents.head? = some task → ∀ pending ∈ ops, pending.Timely task shared
  | .notifyScheduler dependency =>
      task ∈ (shared.tasks dependency).dependents → (shared.tasks dependency).scheduler ≠ none
  | _ => True

instance (task : TaskId) (shared : Shared T E) (op : Op) : Decidable (op.Timely task shared) :=
  inferInstanceAs (Decidable (∀ phase ∈ op.phase task, phase.Timely
    (fun dependency => (shared.tasks dependency).completed) (shared.tasks task).pendingDependencies))

instance (task : TaskId) (shared : Shared T E) (ops : Multiset Op) (choice : Choice T E) :
    (op : Op) → Decidable (Timely task shared ops op choice)
  | .schedule _ other dependencies => inferInstanceAs (Decidable
      (other = task → shared.schedules task = [] ∧ dependencies.length < 2 ^ 32))
  | .releaseDependents _ dependency _ => inferInstanceAs (Decidable
      ((shared.tasks dependency).dependents.head? = some task → ∀ pending ∈ ops, pending.Timely task shared))
  | .notifyScheduler dependency => inferInstanceAs (Decidable
      (task ∈ (shared.tasks dependency).dependents → (shared.tasks dependency).scheduler ≠ none))
  | .user | .loopGuard _ | .waitPop _ | .runJob _ | .finishJob .. | .body _ | .callable _
  | .registerDependencies .. | .countDependency .. | .scheduleState .. | .onCompleted _
  | .resumeContinuations _ | .resumeEach .. | .addContinuation .. | .resumeProducer _ | .get _
  | .awaitCompletion _ | .extract _ | .wait _ | .stop _ | .joinWorkers _ | .emplace .. | .waitForAll _
  | .waitTokens .. => inferInstanceAs (Decidable True)

section Simulation

variable {shared shared' : Shared T E} {op : Op} {pushed : List Op} (task : TaskId)

/-- An operation that stands for no phase and applies `schedule_state` to nothing. -/
def Op.Gateless (op : Op) : Prop := ∀ task, op.phase task = none ∧ op.applies task = 0

theorem gateless_of_isRequest (request : op.isRequest = true) : op.Gateless := by
  intro task
  cases op <;> first | exact ⟨rfl, rfl⟩ | cases request

theorem gateless_of_isResumption (resumption : op.isResumption = true) : op.Gateless := by
  intro task
  cases op <;> first | exact ⟨rfl, rfl⟩ | cases resumption

theorem gateless_dispatches {handle : TaskId} {scheduler : Option SchedulerId}
    (dispatches : Dispatches shared handle scheduler shared' pushed) : ∀ other ∈ pushed, other.Gateless :=
  fun other member => gateless_of_isResumption (isResumption_of_dispatches dispatches other member)

theorem applies_ready (scheduler : SchedulerId) (ready : List TaskId) :
    ((ready.map (Op.scheduleState scheduler)).map (Op.applies task)).sum = ready.count task := by
  induction ready with
  | nil => rfl
  | cons other ready ih =>
      simp only [List.map_cons, List.sum_cons, ih, Op.applies, List.count_cons, beq_iff_eq]
      omega

/-- The gate after a move, from what it makes of the moved operation alone. -/
theorem Gates.after {gate gate' : Gate TaskId 32} {rest : Multiset Op}
    (gates : Gates task shared (op ::ₘ rest) gate)
    (completed : gate'.completed = fun dependency => (shared'.tasks dependency).completed)
    (held : ∀ dependency, gate'.held.count dependency = (shared'.tasks dependency).dependents.count task)
    (counter : gate'.counter = (shared'.tasks task).pendingDependencies)
    (phase : ∀ others : Multiset (Phase TaskId 32), (op.phase task).toList + others = gate.phase.pending →
      pushed.filterMap (Op.phase task) + others = gate'.phase.pending)
    (schedules : shared'.schedules task = gate'.schedules)
    (opened : gate'.opened + (shared.applied task + op.applies task) =
      gate.opened + (shared'.applied task + (pushed.map (Op.applies task)).sum)) :
    Gates task shared' (pushed + rest) gate' := by
  refine ⟨completed, held, counter, ?_, schedules, ?_⟩
  · rw [Multiset.filterMap_add, Multiset.filterMap_coe]
    apply phase
    rw [← gates.phase, ← Multiset.singleton_add, Multiset.filterMap_add]
    cases here : op.phase task <;> simp [← Multiset.cons_zero, here]
  · have before := gates.opened
    rw [Multiset.map_cons, Multiset.sum_cons] at before
    rw [Multiset.map_add, Multiset.sum_add, Multiset.map_coe, Multiset.sum_coe]
    omega

theorem Gates.quiet {gate : Gate TaskId 32} {rest : Multiset Op}
    (gates : Gates task shared (op ::ₘ rest) gate) (quiet : Quiet task shared op shared' pushed) :
    ∃ gate', gate.Step gate' ∧ Gates task shared' (pushed + rest) gate' := by
  refine ⟨{ gate with completed := fun dependency => (shared'.tasks dependency).completed },
    .complete _ ?_, gates.after task rfl ?_ ?_ ?_ ?_ ?_⟩
  · intro dependency done
    rw [gates.completed] at done
    exact quiet.completed dependency done
  · intro dependency
    rw [quiet.dependents]
    exact gates.held dependency
  · rw [quiet.counter]
    exact gates.counter
  · intro others before
    rw [quiet.phase]
    exact before
  · rw [quiet.schedules]
    exact gates.schedules
  · rw [quiet.opened]

theorem Phase.pending_cons {here phase : Phase TaskId 32} {others : Multiset (Phase TaskId 32)}
    (same : ([here] : List (Phase TaskId 32)) + others = phase.pending) : phase = here ∧ others = 0 := by
  have card := congrArg Multiset.card same
  have alone : ∀ single : Phase TaskId 32, ([here] : List (Phase TaskId 32)) + others = {single} →
      single = here ∧ others = 0 := by
    intro single equal
    have none : others = 0 := by
      have size := congrArg Multiset.card equal
      simpa using size
    rw [none, add_zero] at equal
    exact ⟨(Multiset.singleton_inj.mp equal).symm, none⟩
  cases phase with
  | idle => simp [Phase.pending] at card
  | settled => simp [Phase.pending] at card
  | registering rest pending => exact alone _ same
  | counting rest pending => exact alone _ same

theorem Gates.here {gate : Gate TaskId 32} {ops : Multiset Op} (gates : Gates task shared ops gate)
    (member : op ∈ ops) {phase : Phase TaskId 32} (stands : op.phase task = some phase) :
    gate.phase = phase := by
  obtain ⟨rest, rfl⟩ := Multiset.exists_cons_of_mem member
  have whole := gates.phase
  rw [Multiset.filterMap_cons_some _ _ _ stands] at whole
  exact (Phase.pending_cons whole).1

theorem Gates.timely {gate : Gate TaskId 32} {ops : Multiset Op} (gates : Gates task shared ops gate)
    (timely : ∀ pending ∈ ops, pending.Timely task shared) : gate.Timely := by
  unfold Gate.Timely
  rw [gates.completed, gates.counter]
  have pendingPhase : ∀ phase, gate.phase.pending = {phase} → phase.Timely
      (fun dependency => (shared.tasks dependency).completed) (shared.tasks task).pendingDependencies := by
    intro phase alone
    have member : phase ∈ gate.phase.pending := by simp [alone]
    rw [← gates.phase, Multiset.mem_filterMap] at member
    obtain ⟨op, member, stands⟩ := member
    exact timely op member phase stands
  cases here : gate.phase with
  | idle => trivial
  | settled => trivial
  | registering remaining pending => exact pendingPhase _ (by rw [here]; rfl)
  | counting remaining pending => exact pendingPhase _ (by rw [here]; rfl)

theorem Gates.holds {gate : Gate TaskId 32} {ops : Multiset Op} (gates : Gates task shared ops gate)
    {dependency : TaskId} (front : (shared.tasks dependency).dependents.head? = some task) :
    dependency ∈ gate.held := by
  rw [← Multiset.count_pos, gates.held, List.count_pos_iff]
  exact List.mem_of_mem_head? front

variable [Inhabited T] {choice : Choice T E} {gate : Gate TaskId 32} {rest : Multiset Op}

/-- Operations other than those of `schedule`, `on_completed` and
`on_task_finished` keep no books about dependencies. -/
theorem Moves.plain (moves : Moves shared op choice shared' pushed) (plain : op.bookkeeping = false) :
    Undisturbed shared shared' ∧ ∀ other ∈ pushed, other.Gateless := by
  have same := Undisturbed.refl shared
  have none : ∀ other ∈ ([] : List Op), other.Gateless := by simp
  have single : ∀ {next : Op}, next.Gateless → ∀ other ∈ [next], other.Gateless := by
    intro next gateless other member
    rw [List.mem_singleton.mp member]
    exact gateless
  have pair : ∀ {first second : Op}, first.Gateless → second.Gateless →
      ∀ other ∈ [first, second], other.Gateless := by
    intro first second one two other member
    rcases List.mem_pair.mp member with rfl | rfl <;> assumption
  have append : ∀ {ops : List Op} {next : Op}, (∀ other ∈ ops, other.Gateless) → next.Gateless →
      ∀ other ∈ ops ++ [next], other.Gateless := by
    intro ops next all gateless other member
    rcases List.mem_append.mp member with member | member
    · exact all other member
    · exact single gateless other member
  cases moves with
  -- A call only adds requests, which have not looked at any dependency yet.
  | call user performed =>
      refine ⟨.perform performed, append (fun other member =>
        gateless_of_isRequest (isRequest_of_perform performed other member)) ?_⟩
      cases op <;> first | exact fun _ => ⟨rfl, rfl⟩ | cases user
  | runHandle of resumable resumes => exact ⟨.resumes resumes, gateless_dispatches (.inline resumes)⟩
  | resumeNext dispatches =>
      exact ⟨.dispatches dispatches, append (gateless_dispatches dispatches) fun _ => ⟨rfl, rfl⟩⟩
  | continueNow completed dispatches =>
      exact ⟨.dispatches dispatches, append (gateless_dispatches dispatches) fun _ => ⟨rfl, rfl⟩⟩
  | @produce other _ _ _ resumable dispatches =>
      have launched : Undisturbed shared (shared.record (.launched other)) :=
        same.record (fun _ => rfl) (fun _ => rfl)
      exact ⟨launched.trans (.dispatches dispatches), gateless_dispatches dispatches⟩
  | leaveLoop stopped => exact ⟨same.modifyScheduler _ _, none⟩
  | leaveWait stopped empty => exact ⟨same.modifyScheduler _ _, none⟩
  | pop front =>
      exact ⟨(same.modifyScheduler _ _).record (fun _ => rfl) (fun _ => rfl),
        pair (fun _ => ⟨rfl, rfl⟩) (fun _ => ⟨rfl, rfl⟩)⟩
  | stop => exact ⟨same.modifyScheduler _ _, single fun _ => ⟨rfl, rfl⟩⟩
  | finishJob => exact ⟨same.record (fun _ => rfl) (fun _ => rfl), single fun _ => ⟨rfl, rfl⟩⟩
  | passed => exact ⟨same.record (fun _ => rfl) (fun _ => rfl), none⟩
  | suspend incomplete =>
      refine ⟨(same.modify ?_ ?_ ?_).record (fun _ => rfl) (fun _ => rfl), single fun _ => ⟨rfl, rfl⟩⟩
      all_goals
        intro state
        rfl
  | coReturn =>
      refine ⟨same.modify ?_ ?_ ?_, single fun _ => ⟨rfl, rfl⟩⟩
      all_goals
        intro state
        rw [TaskState.settle_eq]
  | returned =>
      refine ⟨same.modify ?_ ?_ ?_, single fun _ => ⟨rfl, rfl⟩⟩
      all_goals
        intro state
        rw [TaskState.settle_eq]
  | swap =>
      refine ⟨same.modify ?_ ?_ ?_, single fun _ => ⟨rfl, rfl⟩⟩
      all_goals
        intro state
        rfl
  | park incomplete =>
      refine ⟨same.modify ?_ ?_ ?_, single fun _ => ⟨rfl, rfl⟩⟩
      all_goals
        intro state
        rfl
  | extract =>
      refine ⟨(same.modify ?_ ?_ ?_).record (fun _ => rfl) (fun _ => rfl), none⟩
      all_goals
        intro state
        rw [TaskState.observe_eq]
  | @emplace frame name token _ =>
      have entered : Undisturbed shared (shared.emplace frame name token) :=
        ⟨fun _ => rfl, fun _ => rfl, fun _ => rfl, fun _ => rfl, fun _ => rfl⟩
      exact ⟨entered.record (fun _ => rfl) (fun _ => rfl), none⟩
  | enter running => exact ⟨same, single fun _ => ⟨rfl, rfl⟩⟩
  | skipHandle of idle => exact ⟨same, none⟩
  | runCallable => exact ⟨same, single fun _ => ⟨rfl, rfl⟩⟩
  | awaitReady completed => exact ⟨same, pair (fun _ => ⟨rfl, rfl⟩) (fun _ => ⟨rfl, rfl⟩)⟩
  | resumedAll => exact ⟨same, single fun _ => ⟨rfl, rfl⟩⟩
  | notify on => exact ⟨same, single fun _ => ⟨rfl, rfl⟩⟩
  | unnotified off => exact ⟨same, none⟩
  | produced idle => exact ⟨same, none⟩
  | getReady completed => exact ⟨same, single fun _ => ⟨rfl, rfl⟩⟩
  | getPending incomplete => exact ⟨same, pair (fun _ => ⟨rfl, rfl⟩) (fun _ => ⟨rfl, rfl⟩)⟩
  | awaited completed => exact ⟨same, single fun _ => ⟨rfl, rfl⟩⟩
  | waited completed => exact ⟨same, none⟩
  | joined gone => exact ⟨same, none⟩
  | waitForAll => exact ⟨same, single fun _ => ⟨rfl, rfl⟩⟩
  | passToken settled => exact ⟨same, single fun _ => ⟨rfl, rfl⟩⟩
  | _ => cases plain

theorem Moves.quiet (moves : Moves shared op choice shared' pushed)
    (off : op.concerns task shared = false) : Quiet task shared op shared' pushed := by
  cases kind : op.bookkeeping with
  | false =>
      obtain ⟨undisturbed, gateless⟩ := moves.plain kind
      apply undisturbed.quiet
      · have plain : op.phase task = none := by
          cases op <;> first | rfl | cases kind
        rw [plain, Option.toList_none, List.filterMap_eq_nil_iff]
        exact fun other member => (gateless other member task).1
      · have plain : op.applies task = 0 := by
          cases op <;> first | rfl | cases kind
        rw [plain]
        apply List.sum_eq_zero
        intro weight weighed
        obtain ⟨other, member, rfl⟩ := List.mem_map.mp weighed
        exact (gateless other member task).2
  | true =>
      -- Bookkeeping of another task: its name never meets the counter of this one.
      have same := Undisturbed.refl shared
      cases moves with
      | call user performed =>
          rw [not_bookkeeping_of_isUser user] at kind
          cases kind
      | @complete other _ =>
          refine ⟨?_, ?_, ?_, rfl, rfl, rfl⟩
          · intro dependency done
            rw [Shared.tasks_modify]
            split
            · rfl
            · exact done
          · intro dependency
            rw [Shared.field_modify TaskState.dependents rfl]
          · rw [Shared.field_modify TaskState.pendingDependencies rfl]
      | @scheduleState scheduler other _ =>
          refine ⟨fun _ => id, fun _ => rfl, rfl, ?_, rfl, ?_⟩
          · simp [Shared.schedules, Shared.enqueue, Event.schedules]
          · by_cases here : other = task
            · simp [Shared.applied, Shared.enqueue, Event.applies, Op.applies, here, List.countP_append]
            · simp [Shared.applied, Shared.enqueue, Event.applies, Op.applies, here, List.countP_append]
      | @schedule scheduler other dependencies _ =>
          have ne : other ≠ task := by simpa [Op.concerns] using off
          refine ⟨?_, ?_, ?_, ?_, ?_, ?_⟩
          · intro dependency done
            rw [Shared.tasks_record, Shared.field_modify TaskState.completed rfl]
            exact done
          · intro dependency
            rw [Shared.tasks_record, Shared.field_modify TaskState.dependents rfl]
          · rw [Shared.tasks_record, Shared.field_modify TaskState.pendingDependencies rfl]
          · simp [Shared.schedules, Event.schedules, ne]
          · simp [Op.phase, ne]
          · simp [Shared.applied, Event.applies, Op.applies]
      | @gated scheduler other pending _ some =>
          have ne : other ≠ task := by simpa [Op.concerns] using off
          exact same.quiet (by simp [Op.phase, ne]) rfl
      | @ungated scheduler other _ =>
          have ne : other ≠ task := by simpa [Op.concerns] using off
          exact same.quiet (by simp [Op.phase, ne]) (by simp [Op.applies, ne])
      | @skipToken scheduler other token rest pending _ settled =>
          have ne : other ≠ task := by simpa [Op.concerns] using off
          exact same.quiet (by simp [Op.phase, ne]) rfl
      | @register scheduler other dependency rest pending _ incomplete =>
          have ne : other ≠ task := by simpa [Op.concerns] using off
          refine ⟨?_, ?_, ?_, rfl, by simp [Op.phase, ne], rfl⟩
          · intro another done
            exact (Shared.field_modify TaskState.completed rfl another).trans done
          · intro another
            exact Shared.field_modify (fun state => state.dependents.count task) (by simp [ne]) another
          · exact Shared.field_modify TaskState.pendingDependencies rfl task
      | @count scheduler other rest pending _ =>
          have ne : other ≠ task := by simpa [Op.concerns] using off
          refine ⟨?_, ?_, ?_, rfl, by simp [Op.phase, ne], rfl⟩
          · intro another done
            exact (Shared.field_modify TaskState.completed rfl another).trans done
          · intro another
            exact congrArg (List.count task) (Shared.field_modify TaskState.dependents rfl another)
          · rw [Shared.tasks_modify, if_neg (Ne.symm ne)]
      | released empty =>
          refine same.quiet ?_ (applies_ready task _ _)
          simp [Op.phase, List.filterMap_eq_nil_iff]
      -- The loop pops one dependent, which may stand in the list several times.
      | @release scheduler dependency dependent ready rest _ front =>
          have ne : dependent ≠ task := by
            rintro rfl
            simp [Op.concerns, front] at off
          refine ⟨?_, ?_, ?_, rfl, rfl, ?_⟩
          · intro another done
            refine (Shared.field_modify TaskState.completed rfl another).trans ?_
            exact (Shared.field_modify TaskState.completed rfl another).trans done
          · intro another
            refine (congrArg (List.count task) (Shared.field_modify TaskState.dependents rfl another)).trans ?_
            refine Shared.field_modify (fun state => state.dependents.count task) ?_ another
            simp [front, ne]
          · rw [Shared.tasks_modify, if_neg (Ne.symm ne)]
            exact Shared.field_modify TaskState.pendingDependencies rfl task
          · simp only [Op.applies]
            split <;> simp [Shared.applied, Op.applies, ne]
      | _ => cases kind

theorem Gates.schedule {scheduler : SchedulerId} {dependencies : List TaskToken}
    (gates : Gates task shared (.schedule scheduler task dependencies ::ₘ rest) gate)
    (first : shared.schedules task = []) (bound : dependencies.length < 2 ^ 32)
    (moves : Moves shared (.schedule scheduler task dependencies) choice shared' pushed) :
    ∃ gate', gate.Step gate' ∧ Gates task shared' (pushed + rest) gate' := by
  have idle : gate.phase = .idle := by
    have schedules := gates.schedules
    rw [first] at schedules
    unfold Gate.schedules at schedules
    split at schedules
    · assumption
    all_goals cases schedules
  cases moves with
  | call user performed => cases user
  | schedule =>
      refine ⟨_, .enter dependencies idle bound, gates.after task ?_ ?_ ?_ ?_ ?_ ?_⟩
      · rw [gates.completed]
        funext dependency
        rw [Shared.tasks_record, Shared.field_modify TaskState.completed rfl]
      · intro dependency
        rw [Shared.tasks_record, Shared.field_modify TaskState.dependents rfl]
        exact gates.held dependency
      · rw [Shared.tasks_record, Shared.field_modify TaskState.pendingDependencies rfl]
        exact gates.counter
      · intro others before
        have none : others = 0 := by simpa [idle, Op.phase, Phase.pending] using before
        simp [none, Op.phase, Phase.pending]
      · unfold Shared.schedules at first
        simp [Shared.schedules, Event.schedules, Gate.schedules, first]
      · simp [Shared.applied, Event.applies, Op.applies]

theorem Gates.registerDependencies {scheduler : SchedulerId} {dependencies : List TaskToken}
    {pending : BitVec 32}
    (gates : Gates task shared (.registerDependencies scheduler task dependencies pending ::ₘ rest) gate)
    (moves : Moves shared (.registerDependencies scheduler task dependencies pending) choice shared' pushed) :
    ∃ gate', gate.Step gate' ∧ Gates task shared' (pushed + rest) gate' := by
  have stands : (Op.registerDependencies scheduler task dependencies pending).phase task =
      some (.registering dependencies pending) := by simp [Op.phase]
  have here := gates.here task (Multiset.mem_cons_self _ _) stands
  have schedules : shared.schedules task = [gate.dependencies] := by
    rw [gates.schedules, Gate.schedules, here]
  cases moves with
  | call user performed => cases user
  | gated some =>
      refine ⟨_, .finish pending here, gates.after task gates.completed gates.held gates.counter ?_ schedules ?_⟩
      · intro others before
        rw [stands] at before
        simp [(Phase.pending_cons before).2, Phase.pending]
      · rw [if_neg some]
        simp [Op.applies]
  -- Nothing was registered: `schedule` itself hands the task to the scheduler.
  | ungated =>
      refine ⟨_, .finish 0 here, gates.after task gates.completed gates.held gates.counter ?_ schedules ?_⟩
      · intro others before
        rw [stands] at before
        simp [(Phase.pending_cons before).2, Phase.pending, Op.phase]
      · simp [Op.applies]
        omega
  | skipToken settled =>
      refine ⟨_, .skip _ _ pending here ?_, gates.after task gates.completed gates.held gates.counter ?_ schedules ?_⟩
      · rw [gates.completed]
        exact settled
      · intro others before
        rw [stands] at before
        simp [(Phase.pending_cons before).2, Phase.pending, Op.phase]
      · simp [Op.applies]
  -- The dependency is entered before the counter is raised.
  | @register _ _ dependency remaining _ _ incomplete =>
      refine ⟨_, .register dependency remaining pending here ?_, gates.after task ?_ ?_ ?_ ?_ schedules ?_⟩
      · rw [gates.completed]
        exact incomplete
      · rw [gates.completed]
        funext other
        rw [Shared.field_modify TaskState.completed rfl]
      · intro other
        rw [Multiset.count_cons, gates.held, Shared.tasks_modify]
        by_cases same : other = dependency
        · subst same
          simp
        · simp [same]
      · rw [Shared.field_modify TaskState.pendingDependencies rfl]
        exact gates.counter
      · intro others before
        rw [stands] at before
        simp [(Phase.pending_cons before).2, Phase.pending, Op.phase]
      · simp [Shared.applied, Op.applies]

theorem Gates.countDependency {scheduler : SchedulerId} {dependencies : List TaskToken}
    {pending : BitVec 32}
    (gates : Gates task shared (.countDependency scheduler task dependencies pending ::ₘ rest) gate)
    (moves : Moves shared (.countDependency scheduler task dependencies pending) choice shared' pushed) :
    ∃ gate', gate.Step gate' ∧ Gates task shared' (pushed + rest) gate' := by
  have stands : (Op.countDependency scheduler task dependencies pending).phase task =
      some (.counting dependencies pending) := by simp [Op.phase]
  have here := gates.here task (Multiset.mem_cons_self _ _) stands
  have schedules : shared.schedules task = [gate.dependencies] := by
    rw [gates.schedules, Gate.schedules, here]
  cases moves with
  | call user performed => cases user
  | count =>
      refine ⟨_, .count dependencies pending here, gates.after task ?_ ?_ ?_ ?_ schedules ?_⟩
      · rw [gates.completed]
        funext dependency
        rw [Shared.field_modify TaskState.completed rfl]
      · intro dependency
        rw [Shared.field_modify TaskState.dependents rfl]
        exact gates.held dependency
      · rw [Shared.tasks_modify_self, gates.counter]
      · intro others before
        rw [stands] at before
        simp [(Phase.pending_cons before).2, Phase.pending, Op.phase]
      · simp [Shared.applied, Op.applies]

theorem Gates.release {scheduler : SchedulerId} {dependency : TaskId} {ready : List TaskId}
    (gates : Gates task shared (.releaseDependents scheduler dependency ready ::ₘ rest) gate)
    (front : (shared.tasks dependency).dependents.head? = some task)
    (completed : (shared.tasks dependency).completed = true)
    (timely : ∀ pending ∈ Op.releaseDependents scheduler dependency ready ::ₘ rest, pending.Timely task shared)
    (moves : Moves shared (.releaseDependents scheduler dependency ready) choice shared' pushed) :
    ∃ gate', gate.Step gate' ∧ Gates task shared' (pushed + rest) gate' := by
  cases moves with
  | call user performed => cases user
  | released empty => simp [empty] at front
  | @release _ _ dependent _ remaining _ first =>
      obtain rfl : dependent = task := by simpa [first] using front
      have count := gates.held dependency
      rw [first, List.count_cons_self] at count
      have done : gate.completed dependency = true := by
        rw [gates.completed]
        exact completed
      refine ⟨_, .release dependency (gates.holds _ front) done (gates.timely _ timely),
        gates.after dependent ?_ ?_ ?_ ?_ gates.schedules ?_⟩
      · rw [gates.completed]
        funext other
        rw [Shared.field_modify TaskState.completed rfl, Shared.field_modify TaskState.completed rfl]
      · intro other
        rw [Shared.field_modify TaskState.dependents rfl, Shared.tasks_modify]
        by_cases same : other = dependency
        · subst same
          simp only [Multiset.count_erase_self, if_true]
          omega
        · rw [Multiset.count_erase_of_ne same, if_neg same]
          exact gates.held other
      · rw [Shared.tasks_modify_self, Shared.field_modify TaskState.pendingDependencies rfl, gates.counter]
      · intro others before
        exact before
      -- The last release is the one that takes the counter from one to zero.
      · rw [gates.counter]
        simp only [Op.applies, List.map_cons, List.map_nil, List.sum_cons, List.sum_nil]
        change _ + (shared.applied dependent + _) = _ + (shared.applied dependent + _)
        split
        · simp
          omega
        · simp

theorem Gates.step (gates : Gates task shared (op ::ₘ rest) gate)
    (moves : Moves shared op choice shared' pushed)
    (completed : ∀ scheduler dependency ready, op = .releaseDependents scheduler dependency ready →
      (shared.tasks dependency).completed = true)
    (timely : Timely task shared (op ::ₘ rest) op choice) :
    ∃ gate', gate.Step gate' ∧ Gates task shared' (pushed + rest) gate' := by
  cases concerned : op.concerns task shared with
  | false => exact gates.quiet task (moves.quiet task concerned)
  | true =>
      cases op with
      | schedule scheduler other dependencies =>
          obtain rfl : other = task := by simpa [Op.concerns] using concerned
          exact gates.schedule other (timely rfl).1 (timely rfl).2 moves
      | registerDependencies scheduler other dependencies pending =>
          obtain rfl : other = task := by simpa [Op.concerns] using concerned
          exact gates.registerDependencies other moves
      | countDependency scheduler other dependencies pending =>
          obtain rfl : other = task := by simpa [Op.concerns] using concerned
          exact gates.countDependency other moves
      | releaseDependents scheduler dependency ready =>
          have front : (shared.tasks dependency).dependents.head? = some task := by
            simpa [Op.concerns] using concerned
          exact gates.release task front (completed _ _ _ rfl) (timely front) moves
      | _ => cases concerned

end Simulation

end SoulLib.Async
