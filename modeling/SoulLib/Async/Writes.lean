import SoulLib.Async.Moves

/-! What the moves write.

`Writes` lists the changes of task states and `Event.Of` tells which operation
logs an event, so that a fact about one field or one kind of event is proved over
a few cases instead of over all moves.
-/

set_option autoImplicit false

namespace SoulLib.Async

section Tasks

variable {T E : Type} [Inhabited T]

/-- The task states after a move. -/
inductive Writes (shared : Shared T E) : Op → Choice T E → (TaskId → TaskState T E) → Prop where
  | nothing {op : Op} {choice : Choice T E} : Writes shared op choice shared.tasks
  | own {op : Op} {choice : Choice T E} (task : TaskId) (scheduler : SchedulerId)
      (via : (∃ dependencies, op = .schedule scheduler task dependencies) ∨
        (shared.tasks task).coroutine = .null) :
      Writes shared op choice (shared.modify task fun state => { state with scheduler := some scheduler }).tasks
  | start {op : Op} {choice : Choice T E} {handle : TaskId}
      (before : (shared.tasks handle).coroutine = .initial) :
      Writes shared op choice (shared.setCoroutine handle .running).tasks
  | wake {op : Op} {choice : Choice T E} {handle awaited : TaskId}
      (before : (shared.tasks handle).coroutine = .awaiting awaited) :
      Writes shared op choice (shared.setCoroutine handle .running).tasks
  | suspend {task awaited : TaskId} (incomplete : (shared.tasks awaited).completed = false) :
      Writes shared (.body task) (.coAwait awaited) (shared.setCoroutine task (.awaiting awaited)).tasks
  | coReturn {task : TaskId} {outcome : Except E T} :
      Writes shared (.body task) (.finish outcome)
        (shared.modify task fun state => { state.settle outcome with coroutine := .final }).tasks
  | returned {task : TaskId} {outcome : Except E T} :
      Writes shared (.callable task) (.finish outcome)
        (shared.modify task fun state => state.settle outcome).tasks
  | register {scheduler : SchedulerId} {task dependency : TaskId} {rest : List TaskToken} {pending : BitVec 32}
      {choice : Choice T E} (incomplete : (shared.tasks dependency).completed = false) :
      Writes shared (.registerDependencies scheduler task (some dependency :: rest) pending) choice
        (shared.modify dependency fun state => { state with dependents := state.dependents ++ [task] }).tasks
  | count {scheduler : SchedulerId} {task : TaskId} {rest : List TaskToken} {pending : BitVec 32}
      {choice : Choice T E} :
      Writes shared (.countDependency scheduler task rest pending) choice
        (shared.modify task fun state =>
          { state with pendingDependencies := state.pendingDependencies + 1 }).tasks
  | complete {task : TaskId} {choice : Choice T E} :
      Writes shared (.onCompleted task) choice (shared.modify task fun state => { state with completed := true }).tasks
  | swap {task : TaskId} {choice : Choice T E} :
      Writes shared (.resumeContinuations task) choice
        (shared.modify task fun state => { state with continuations := [] }).tasks
  | park {task handle : TaskId} {choice : Choice T E} (incomplete : (shared.tasks task).completed = false) :
      Writes shared (.addContinuation task handle) choice
        (shared.modify task fun state => { state with continuations := state.continuations ++ [handle] }).tasks
  | release {scheduler : SchedulerId} {task dependent : TaskId} {ready rest : List TaskId} {choice : Choice T E}
      (front : (shared.tasks task).dependents = dependent :: rest) :
      Writes shared (.releaseDependents scheduler task ready) choice
        ((shared.modify task fun state => { state with dependents := rest }).modify dependent fun state =>
          { state with pendingDependencies := state.pendingDependencies - 1 }).tasks
  | extract {task : TaskId} {choice : Choice T E} :
      Writes shared (.extract task) choice (shared.modify task fun state => state.observe.1).tasks

variable {shared shared' : Shared T E} {op : Op} {choice : Choice T E} {pushed ops : List Op} {task : TaskId}

theorem Writes.dispatches {before : Shared T E} {handle : TaskId} {scheduler : Option SchedulerId}
    (same : before.tasks = shared.tasks) (dispatches : Dispatches before handle scheduler shared' ops) :
    Writes shared op choice shared'.tasks := by
  have running : (before.setCoroutine handle .running).tasks = (shared.setCoroutine handle .running).tasks := by
    simp [Shared.setCoroutine, Shared.modify, same]
  cases dispatches with
  | enqueue scheduler =>
      rw [Shared.tasks_enqueue, same]
      exact .nothing
  | inline resumes =>
      cases resumes with
      | start suspended =>
          rw [Shared.tasks_record, running]
          rw [same] at suspended
          exact .start suspended
      | wake suspended =>
          rw [Shared.tasks_record, running]
          rw [same] at suspended
          exact .wake suspended
      | misuse broken =>
          rw [Shared.tasks_record, same]
          exact .nothing

theorem Writes.perform {call : Call} (performed : shared.perform call = some (shared', ops)) :
    Writes shared op choice shared'.tasks := by
  cases call with
  | runAsync scheduler task =>
      simp only [Shared.perform] at performed
      split at performed <;> cases performed
      next unused => exact .own task scheduler (.inr unused.1)
  | frameScheduleAfter frame delay name task dependencies =>
      simp only [Shared.perform] at performed
      split at performed <;> cases performed
      exact .nothing
  | _ =>
      cases performed
      exact .nothing

theorem Moves.writes (moves : Moves shared op choice shared' pushed) : Writes shared op choice shared'.tasks := by
  cases moves with
  | call user performed => exact .perform performed
  | runHandle of resumable resumes => exact .dispatches rfl (.inline resumes)
  | resumeNext dispatches => exact .dispatches rfl dispatches
  | continueNow completed dispatches => exact .dispatches rfl dispatches
  | @produce task _ _ _ resumable dispatches =>
      have same : (shared.record (.launched task)).tasks = shared.tasks := rfl
      exact .dispatches same dispatches
  | suspend incomplete => exact .suspend incomplete
  | coReturn => exact .coReturn
  | returned => exact .returned
  | schedule => exact .own _ _ (.inl ⟨_, rfl⟩)
  | register incomplete => exact .register incomplete
  | count => exact .count
  | complete => exact .complete
  | swap => exact .swap
  | park incomplete => exact .park incomplete
  | release front => exact .release front
  | extract => exact .extract
  | _ => exact .nothing

theorem Moves.scheduler (moves : Moves shared op choice shared' pushed) (task : TaskId) :
    (shared'.tasks task).scheduler = (shared.tasks task).scheduler ∨
      (shared'.tasks task).scheduler ≠ none ∧
        ((∃ scheduler dependencies, op = .schedule scheduler task dependencies) ∨
          (shared.tasks task).coroutine = .null) := by
  have modified : ∀ {other : TaskId} {change : TaskState T E → TaskState T E},
      (change (shared.tasks other)).scheduler = (shared.tasks other).scheduler →
      ((shared.modify other change).tasks task).scheduler = (shared.tasks task).scheduler :=
    fun same => Shared.field_modify TaskState.scheduler same task
  generalize shared'.tasks = tasks, moves.writes = writes
  cases writes with
  | nothing => exact .inl rfl
  | own other scheduler via =>
      rw [Shared.tasks_modify]
      split
      · next same =>
          subst same
          exact .inr ⟨by simp, via.imp_left fun ⟨dependencies, same⟩ => ⟨scheduler, dependencies, same⟩⟩
      · exact .inl rfl
  | start before => exact .inl (modified rfl)
  | wake before => exact .inl (modified rfl)
  | suspend incomplete => exact .inl (modified rfl)
  | coReturn => exact .inl (modified (by rw [TaskState.settle_eq]))
  | returned => exact .inl (modified (by rw [TaskState.settle_eq]))
  | register incomplete => exact .inl (modified rfl)
  | count => exact .inl (modified rfl)
  | complete => exact .inl (modified rfl)
  | swap => exact .inl (modified rfl)
  | park incomplete => exact .inl (modified rfl)
  | release front => exact .inl ((Shared.field_modify TaskState.scheduler rfl task).trans (modified rfl))
  | extract => exact .inl (modified (by rw [TaskState.observe_eq]))

theorem Moves.continuations (moves : Moves shared op choice shared' pushed) (task : TaskId) :
    (shared'.tasks task).continuations = (shared.tasks task).continuations ∨
      (shared'.tasks task).continuations = [] ∨
      (shared.tasks task).completed = false ∧ ∃ handle, op = .addContinuation task handle := by
  have modified : ∀ {other : TaskId} {change : TaskState T E → TaskState T E},
      (change (shared.tasks other)).continuations = (shared.tasks other).continuations →
      ((shared.modify other change).tasks task).continuations = (shared.tasks task).continuations :=
    fun same => Shared.field_modify TaskState.continuations same task
  generalize shared'.tasks = tasks, moves.writes = writes
  cases writes with
  | nothing => exact .inl rfl
  | own other scheduler via => exact .inl (modified rfl)
  | start before => exact .inl (modified rfl)
  | wake before => exact .inl (modified rfl)
  | suspend incomplete => exact .inl (modified rfl)
  | coReturn => exact .inl (modified (by rw [TaskState.settle_eq]))
  | returned => exact .inl (modified (by rw [TaskState.settle_eq]))
  | register incomplete => exact .inl (modified rfl)
  | count => exact .inl (modified rfl)
  | complete => exact .inl (modified rfl)
  | @swap other _ =>
      by_cases same : task = other
      · exact .inr (.inl (by simp [same]))
      · exact .inl (by rw [Shared.tasks_modify, if_neg same])
  | @park other handle _ incomplete =>
      by_cases same : task = other
      · subst same
        exact .inr (.inr ⟨incomplete, handle, rfl⟩)
      · exact .inl (by rw [Shared.tasks_modify, if_neg same])
  | release front => exact .inl ((Shared.field_modify TaskState.continuations rfl task).trans (modified rfl))
  | extract => exact .inl (modified (by rw [TaskState.observe_eq]))

end Tasks

section Schedulers

variable {T E : Type}

/-- The schedulers after a move. -/
inductive Serves (shared : Shared T E) : Op → Choice T E → (SchedulerId → TaskScheduler) → Prop where
  | nothing {op : Op} {choice : Choice T E} : Serves shared op choice shared.schedulers
  | enqueue {op : Op} {choice : Choice T E} (scheduler : SchedulerId) (job : Job) :
      Serves shared op choice
        (shared.modifyScheduler scheduler fun queue => { queue with jobs := queue.jobs ++ [job] }).schedulers
  | pop {choice : Choice T E} {scheduler : SchedulerId} {job : Job} {rest : List Job}
      (front : (shared.schedulers scheduler).jobs = job :: rest) :
      Serves shared (.waitPop scheduler) choice
        (shared.modifyScheduler scheduler fun queue => { queue with jobs := rest }).schedulers
  | leave {op : Op} {choice : Choice T E} {scheduler : SchedulerId}
      (from_ : op = .loopGuard scheduler ∨ op = .waitPop scheduler) :
      Serves shared op choice (shared.exitWorker scheduler).schedulers
  | stop {choice : Choice T E} {scheduler : SchedulerId} :
      Serves shared (.stop scheduler) choice
        (shared.modifyScheduler scheduler fun queue => { queue with running := false }).schedulers
  | run {op : Op} {scheduler : SchedulerId} (user : op.isUser = true) :
      Serves shared op (.call (.run scheduler))
        (shared.modifyScheduler scheduler fun queue => { queue with running := true }).schedulers

variable {shared shared' : Shared T E} {op : Op} {choice : Choice T E} {ops : List Op}

theorem Serves.dispatches {before : Shared T E} {handle : TaskId} {scheduler : Option SchedulerId}
    (same : before.schedulers = shared.schedulers) (dispatches : Dispatches before handle scheduler shared' ops) :
    Serves shared op choice shared'.schedulers := by
  cases dispatches with
  | enqueue scheduler =>
      have queued : (before.enqueue scheduler (.resumeHandle handle)).schedulers = (shared.modifyScheduler scheduler
          fun queue => { queue with jobs := queue.jobs ++ [.resumeHandle handle] }).schedulers := by
        simp [Shared.enqueue, Shared.modifyScheduler, same]
      rw [queued]
      exact .enqueue scheduler _
  | inline resumes =>
      have kept : shared'.schedulers = before.schedulers := by cases resumes <;> rfl
      rw [kept, same]
      exact .nothing

theorem Serves.perform {call : Call} (user : op.isUser = true)
    (performed : shared.perform call = some (shared', ops)) : Serves shared op (.call call) shared'.schedulers := by
  cases call with
  | runAsync scheduler task =>
      simp only [Shared.perform] at performed
      split at performed <;> cases performed
      exact .enqueue scheduler _
  | frameScheduleAfter frame delay name task dependencies =>
      simp only [Shared.perform] at performed
      split at performed <;> cases performed
      exact .nothing
  | run scheduler =>
      cases performed
      exact .run user
  | _ =>
      cases performed
      exact .nothing

theorem Moves.serves [Inhabited T] {pushed : List Op} (moves : Moves shared op choice shared' pushed) :
    Serves shared op choice shared'.schedulers := by
  cases moves with
  | call user performed => exact .perform user performed
  | runHandle of resumable resumes => exact .dispatches rfl (.inline resumes)
  | resumeNext dispatches => exact .dispatches rfl dispatches
  | continueNow completed dispatches => exact .dispatches rfl dispatches
  | @produce task _ _ _ resumable dispatches =>
      have same : (shared.record (.launched task)).schedulers = shared.schedulers := rfl
      exact .dispatches same dispatches
  | leaveLoop stopped => exact .leave (.inl rfl)
  | leaveWait stopped empty => exact .leave (.inr rfl)
  | pop front => exact .pop front
  | scheduleState => exact .enqueue _ _
  | stop => exact .stop
  | _ => exact .nothing

end Schedulers

section Log

/-- The coroutine that the operation hands to a scheduler or resumes inline. -/
def Op.dispatches : Op → Option TaskId
  | .resumeEach _ handles => handles.head?
  | .addContinuation _ handle | .resumeProducer handle => some handle
  | _ => none

/-- The operation resumes the coroutine. -/
def Op.Resumes (op : Op) (handle : TaskId) : Prop :=
  (∃ job : Job, op = .runJob job ∧ job.Resumes handle) ∨ op.dispatches = some handle

variable {T E : Type}

/-- The operations that log the event. -/
def Event.Of (op : Op) (choice : Choice T E) : Event T E → Prop
  | .scheduled task dependencies => ∃ scheduler, op = .schedule scheduler task dependencies
  | .launched task => (∃ scheduler, op = .scheduleState scheduler task) ∨ op = .resumeProducer task
  | .enqueued scheduler (.resumeState task) => op = .scheduleState scheduler task
  | .enqueued _ (.resumeHandle handle) => op.dispatches = some handle
  | .enqueued scheduler (.callable task) => op.isUser = true ∧ choice = .call (.runAsync scheduler task)
  | .dequeued scheduler _ => op = .waitPop scheduler
  | .executed scheduler job => op = .finishJob scheduler job
  | .started handle | .resumed handle _ | .misused handle => op.Resumes handle
  | .suspended handle awaited => op = .body handle ∧ choice = .coAwait awaited
  | .observed task _ => op = .extract task
  | .framed frame name token => op = .emplace frame name token
  | .barrier frame tasks => op = .waitTokens frame [] tasks

variable {shared shared' : Shared T E} {op : Op} {choice : Choice T E} {ops : List Op}

/-- What the operation appends to the log. -/
def Logs (shared : Shared T E) (op : Op) (choice : Choice T E) (shared' : Shared T E) : Prop :=
  ∃ events : List (Event T E), shared'.log = shared.log ++ events ∧ ∀ event ∈ events, event.Of op choice

theorem logs_nothing (same : shared'.log = shared.log) : Logs shared op choice shared' :=
  ⟨[], by rw [same, List.append_nil], fun _ member => absurd member List.not_mem_nil⟩

theorem logs_record {before : Shared T E} {event : Event T E} (logs : Logs shared op choice before)
    (of : event.Of op choice) : Logs shared op choice (before.record event) := by
  obtain ⟨events, log, all⟩ := logs
  refine ⟨events ++ [event], ?_, ?_⟩
  · rw [Shared.log_record, log, List.append_assoc]
  · intro other member
    rcases List.mem_append.mp member with old | new
    · exact all other old
    · rw [List.mem_singleton.mp new]
      exact of

theorem logs_resumes {before : Shared T E} {handle : TaskId} (logs : Logs shared op choice before)
    (of : op.Resumes handle) (resumes : Resumes before handle shared' ops) : Logs shared op choice shared' := by
  cases resumes with
  | start suspended => exact logs_record logs of
  | wake suspended => exact logs_record logs of
  | misuse broken => exact logs_record logs of

theorem logs_dispatches {before : Shared T E} {handle : TaskId} {scheduler : Option SchedulerId}
    (logs : Logs shared op choice before) (of : op.dispatches = some handle)
    (dispatches : Dispatches before handle scheduler shared' ops) : Logs shared op choice shared' := by
  cases dispatches with
  | enqueue scheduler => exact logs_record logs of
  | inline resumes => exact logs_resumes logs (.inr of) resumes

theorem logs_perform {call : Call} (user : op.isUser = true)
    (performed : shared.perform call = some (shared', ops)) : Logs shared op (.call call) shared' := by
  cases call with
  | runAsync scheduler task =>
      simp only [Shared.perform] at performed
      split at performed <;> cases performed
      exact logs_record (logs_nothing rfl) ⟨user, rfl⟩
  | frameScheduleAfter frame delay name task dependencies =>
      simp only [Shared.perform] at performed
      split at performed <;> cases performed
      exact logs_nothing rfl
  | _ =>
      cases performed
      exact logs_nothing rfl

variable [Inhabited T] {pushed : List Op}

theorem Moves.logs (moves : Moves shared op choice shared' pushed) : Logs shared op choice shared' := by
  have same : Logs shared op choice shared := logs_nothing rfl
  cases moves with
  | call user performed => exact logs_perform user performed
  | runHandle of resumable resumes => exact logs_resumes same (.inl ⟨_, rfl, of⟩) resumes
  | resumeNext dispatches => exact logs_dispatches same rfl dispatches
  | continueNow completed dispatches => exact logs_dispatches same rfl dispatches
  | @produce task _ _ _ resumable dispatches =>
      have launched : Logs shared (.resumeProducer task) choice (shared.record (.launched task)) :=
        logs_record same (.inr rfl)
      exact logs_dispatches launched rfl dispatches
  | @scheduleState scheduler task _ =>
      have launched : Logs shared (.scheduleState scheduler task) choice (shared.record (.launched task)) :=
        logs_record same (.inl ⟨scheduler, rfl⟩)
      exact logs_record launched rfl
  | pop front => exact logs_record same rfl
  | finishJob => exact logs_record same rfl
  | suspend incomplete => exact logs_record same ⟨rfl, rfl⟩
  | schedule => exact logs_record same ⟨_, rfl⟩
  | extract => exact logs_record same rfl
  | emplace => exact logs_record same rfl
  | passed => exact logs_record same rfl
  | _ => exact logs_nothing rfl

theorem Moves.logged (moves : Moves shared op choice shared' pushed) : shared.log ⊆ shared'.log := by
  obtain ⟨events, log, -⟩ := moves.logs
  rw [log]
  exact List.subset_append_left _ _

/-- What is read off the events that the operation cannot log stays the same. -/
theorem Moves.filterMap_log {α : Type} (moves : Moves shared op choice shared' pushed)
    {reading : Event T E → Option α} (none : ∀ event : Event T E, event.Of op choice → reading event = none) :
    shared'.log.filterMap reading = shared.log.filterMap reading := by
  obtain ⟨events, log, all⟩ := moves.logs
  have silent : events.filterMap reading = [] := by
    rw [List.filterMap_eq_nil_iff]
    intro event member
    exact none event (all event member)
  rw [log, List.filterMap_append, silent, List.append_nil]

theorem Moves.mem_log (moves : Moves shared op choice shared' pushed) {event : Event T E}
    (member : event ∈ shared'.log) : event ∈ shared.log ∨ event.Of op choice := by
  obtain ⟨events, log, all⟩ := moves.logs
  rw [log] at member
  exact (List.mem_append.mp member).imp_right (all event)

end Log

section Pushes

/-- The operations that call for the given one. -/
def Op.From (op : Op) : Op → Prop
  | .user => op = .user
  | .loopGuard scheduler => ∃ job, op = .finishJob scheduler job
  | .waitPop scheduler => op = .loopGuard scheduler
  | .runJob _ => ∃ scheduler, op = .waitPop scheduler
  | .finishJob scheduler _ => op = .waitPop scheduler
  | .body task => op = .body task ∨ op.Resumes task
  | .callable task => op = .callable task ∨ op = .runJob (.callable task)
  | .schedule .. | .get _ | .wait _ | .stop _ | .emplace .. | .waitForAll _ => op.isUser = true
  | .registerDependencies scheduler task dependencies pending =>
      op = .schedule scheduler task dependencies ∨
        (∃ token, op = .registerDependencies scheduler task (token :: dependencies) pending) ∨
        ∃ before, op = .countDependency scheduler task dependencies before
  | .countDependency scheduler task dependencies pending =>
      ∃ token, op = .registerDependencies scheduler task (token :: dependencies) pending
  | .scheduleState scheduler task => op = .registerDependencies scheduler task [] 0 ∨
      ∃ source ready, op = .releaseDependents scheduler source ready ∧ task ∈ ready
  | .onCompleted task => op = .body task ∨ op = .callable task
  | .resumeContinuations task => op = .onCompleted task
  | .resumeEach task handles => op = .resumeContinuations task ∨ ∃ handle, op = .resumeEach task (handle :: handles)
  | .notifyScheduler task => op = .resumeEach task []
  | .releaseDependents scheduler task _ => op = .notifyScheduler task ∨
      ∃ ready, op = .releaseDependents scheduler task ready
  | .addContinuation _ handle => op = .body handle
  | .resumeProducer task => op = .get task ∨ ∃ handle, op = .addContinuation task handle
  | .awaitCompletion task => op = .get task
  | .extract _ => True
  | .joinWorkers scheduler => op = .stop scheduler
  | .waitTokens frame _ _ => op = .waitForAll frame ∨ ∃ tokens tasks, op = .waitTokens frame tokens tasks

variable {T E : Type} {shared shared' : Shared T E} {op : Op} {ops : List Op}

theorem from_of_isRequest {other : Op} (user : op.isUser = true) (request : other.isRequest = true) :
    op.From other := by
  cases other <;> first | exact user | cases request

theorem from_self (user : op.isUser = true) : op.From op := by
  cases op with
  | user => rfl
  | body task => exact .inl rfl
  | callable task => exact .inl rfl
  | _ => cases user

theorem from_resumes {handle : TaskId} (via : op.Resumes handle) (resumes : Resumes shared handle shared' ops) :
    ∀ other ∈ ops, op.From other := by
  intro other member
  cases resumes with
  | start suspended =>
      obtain rfl := List.mem_singleton.mp member
      exact .inr via
  | wake suspended =>
      rcases List.mem_pair.mp member with rfl | rfl
      · trivial
      · exact .inr via
  | misuse broken => cases member

theorem from_dispatches {handle : TaskId} {scheduler : Option SchedulerId} (via : op.dispatches = some handle)
    (dispatches : Dispatches shared handle scheduler shared' ops) : ∀ other ∈ ops, op.From other := by
  cases dispatches with
  | enqueue scheduler => simp
  | inline resumes => exact from_resumes (.inr via) resumes

variable [Inhabited T] {choice : Choice T E} {pushed : List Op}

theorem Moves.pushes (moves : Moves shared op choice shared' pushed) : ∀ other ∈ pushed, op.From other := by
  -- the successors of an operation are what From lists for it
  cases moves with
  | call user performed =>
      intro other member
      rcases List.mem_append.mp member with request | self
      · exact from_of_isRequest user (isRequest_of_perform performed other request)
      · rw [List.mem_singleton.mp self]
        exact from_self user
  | runHandle of resumable resumes => exact from_resumes (.inl ⟨_, rfl, of⟩) resumes
  | resumeNext dispatches =>
      intro other member
      rcases List.mem_append.mp member with resumption | next
      · exact from_dispatches rfl dispatches other resumption
      · rw [List.mem_singleton.mp next]
        exact .inr ⟨_, rfl⟩
  | continueNow completed dispatches =>
      intro other member
      rcases List.mem_append.mp member with resumption | next
      · exact from_dispatches rfl dispatches other resumption
      · rw [List.mem_singleton.mp next]
        exact .inr ⟨_, rfl⟩
  | produce resumable dispatches => exact from_dispatches rfl dispatches
  | released empty =>
      intro other member
      obtain ⟨dependent, within, rfl⟩ := List.mem_map.mp member
      exact .inr ⟨_, _, rfl, within⟩
  -- from here on an operation pushes a fixed number of successors
  | enter running => exact List.forall_mem_singleton.mpr rfl
  | pop front => exact List.forall_mem_cons.mpr ⟨⟨_, rfl⟩, List.forall_mem_singleton.mpr rfl⟩
  | runCallable => exact List.forall_mem_singleton.mpr (.inr rfl)
  | finishJob => exact List.forall_mem_singleton.mpr ⟨_, rfl⟩
  | awaitReady completed => exact List.forall_mem_cons.mpr ⟨trivial, List.forall_mem_singleton.mpr (.inl rfl)⟩
  | suspend incomplete => exact List.forall_mem_singleton.mpr rfl
  | coReturn => exact List.forall_mem_singleton.mpr (.inl rfl)
  | returned => exact List.forall_mem_singleton.mpr (.inr rfl)
  | schedule => exact List.forall_mem_singleton.mpr (.inl rfl)
  | ungated => exact List.forall_mem_singleton.mpr (.inl rfl)
  | skipToken settled => exact List.forall_mem_singleton.mpr (.inr (.inl ⟨_, rfl⟩))
  | register incomplete => exact List.forall_mem_singleton.mpr ⟨_, rfl⟩
  | count => exact List.forall_mem_singleton.mpr (.inr (.inr ⟨_, rfl⟩))
  | complete => exact List.forall_mem_singleton.mpr rfl
  | swap => exact List.forall_mem_singleton.mpr (.inl rfl)
  | resumedAll => exact List.forall_mem_singleton.mpr rfl
  | notify on => exact List.forall_mem_singleton.mpr (.inl rfl)
  | release front => exact List.forall_mem_singleton.mpr (.inr ⟨_, rfl⟩)
  | park incomplete => exact List.forall_mem_singleton.mpr (.inr ⟨_, rfl⟩)
  | getReady completed => exact List.forall_mem_singleton.mpr trivial
  | getPending incomplete => exact List.forall_mem_cons.mpr ⟨.inl rfl, List.forall_mem_singleton.mpr rfl⟩
  | awaited completed => exact List.forall_mem_singleton.mpr trivial
  | stop => exact List.forall_mem_singleton.mpr rfl
  | waitForAll => exact List.forall_mem_singleton.mpr (.inl rfl)
  | passToken settled => exact List.forall_mem_singleton.mpr (.inr ⟨_, _, rfl⟩)
  | _ => exact fun other member => absurd member List.not_mem_nil

end Pushes

end SoulLib.Async
