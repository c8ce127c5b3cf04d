import SoulLib.Async.TaskScheduler

/-! Everything one operation can do.

`Moves` lists the outcomes of every operation once, with the condition under
which each occurs. Invariants are proved by cases on it and never unfold
`execute`.
-/

set_option autoImplicit false

namespace SoulLib.Async

variable {T E : Type}

namespace Shared

variable (shared : Shared T E) (task : TaskId) (scheduler : SchedulerId) (event : Event T E)
  (change : TaskState T E → TaskState T E) (adjust : TaskScheduler → TaskScheduler)

theorem tasks_modify (other : TaskId) :
    (shared.modify task change).tasks other =
      if other = task then change (shared.tasks task) else shared.tasks other := by
  simp [modify, Function.update_apply]

@[simp] theorem tasks_modify_self : (shared.modify task change).tasks task = change (shared.tasks task) := by
  simp [modify]

theorem field_modify {α : Type} (field : TaskState T E → α) {shared : Shared T E} {task : TaskId}
    {change : TaskState T E → TaskState T E}
    (same : field (change (shared.tasks task)) = field (shared.tasks task)) (other : TaskId) :
    field ((shared.modify task change).tasks other) = field (shared.tasks other) := by
  rw [tasks_modify]
  split
  · next here => rw [here, same]
  · rfl

theorem schedulers_modifyScheduler (other : SchedulerId) :
    (shared.modifyScheduler scheduler adjust).schedulers other =
      if other = scheduler then adjust (shared.schedulers scheduler) else shared.schedulers other := by
  simp [modifyScheduler, Function.update_apply]

theorem field_modifyScheduler {α : Type} (field : TaskScheduler → α) {shared : Shared T E}
    {scheduler : SchedulerId} {adjust : TaskScheduler → TaskScheduler} (other : SchedulerId)
    (same : other = scheduler → field (adjust (shared.schedulers scheduler)) = field (shared.schedulers scheduler)) :
    field ((shared.modifyScheduler scheduler adjust).schedulers other) = field (shared.schedulers other) := by
  rw [schedulers_modifyScheduler]
  split
  · next here => rw [same here, here]
  · rfl

@[simp] theorem schedulers_modify : (shared.modify task change).schedulers = shared.schedulers := rfl
@[simp] theorem frames_modify : (shared.modify task change).frames = shared.frames := rfl
@[simp] theorem log_modify : (shared.modify task change).log = shared.log := rfl

@[simp] theorem tasks_modifyScheduler : (shared.modifyScheduler scheduler adjust).tasks = shared.tasks := rfl
@[simp] theorem frames_modifyScheduler : (shared.modifyScheduler scheduler adjust).frames = shared.frames := rfl
@[simp] theorem log_modifyScheduler : (shared.modifyScheduler scheduler adjust).log = shared.log := rfl

@[simp] theorem tasks_record : (shared.record event).tasks = shared.tasks := rfl
@[simp] theorem schedulers_record : (shared.record event).schedulers = shared.schedulers := rfl
@[simp] theorem frames_record : (shared.record event).frames = shared.frames := rfl
@[simp] theorem log_record : (shared.record event).log = shared.log ++ [event] := rfl

@[simp] theorem tasks_enqueue (job : Job) : (shared.enqueue scheduler job).tasks = shared.tasks := rfl

end Shared

/-- User code, which goes on when a call it made has returned. -/
def Op.isUser : Op → Bool
  | .user | .body _ | .callable _ => true
  | _ => false

/-- The job that resumes a coroutine. -/
def Job.Resumes (job : Job) (handle : TaskId) : Prop :=
  job = .resumeState handle ∨ job = .resumeHandle handle

inductive Resumes (shared : Shared T E) (handle : TaskId) : Shared T E → List Op → Prop where
  | start (suspended : (shared.tasks handle).coroutine = .initial) :
      Resumes shared handle ((shared.setCoroutine handle .running).record (.started handle)) [.body handle]
  | wake {task : TaskId} (suspended : (shared.tasks handle).coroutine = .awaiting task) :
      Resumes shared handle ((shared.setCoroutine handle .running).record (.resumed handle task))
        [.extract task, .body handle]
  | misuse (broken : (shared.tasks handle).coroutine = .null ∨ (shared.tasks handle).coroutine = .running ∨
        (shared.tasks handle).coroutine = .final) :
      Resumes shared handle (shared.record (.misused handle)) []

inductive Dispatches (shared : Shared T E) (handle : TaskId) :
    Option SchedulerId → Shared T E → List Op → Prop where
  | enqueue (scheduler : SchedulerId) :
      Dispatches shared handle (some scheduler) (shared.enqueue scheduler (.resumeHandle handle)) []
  | inline {shared' : Shared T E} {ops : List Op} (resumes : Resumes shared handle shared' ops) :
      Dispatches shared handle none shared' ops

inductive Moves [Inhabited T] (shared : Shared T E) : Op → Choice T E → Shared T E → List Op → Prop where
  | call {self : Op} {call : Call} {shared' : Shared T E} {ops : List Op} (user : self.isUser = true)
      (performed : shared.perform call = some (shared', ops)) :
      Moves shared self (.call call) shared' (ops ++ [self])
  | enter {scheduler : SchedulerId} {choice : Choice T E}
      (running : (shared.schedulers scheduler).running = true) :
      Moves shared (.loopGuard scheduler) choice shared [.waitPop scheduler]
  | leaveLoop {scheduler : SchedulerId} {choice : Choice T E}
      (stopped : (shared.schedulers scheduler).running = false) :
      Moves shared (.loopGuard scheduler) choice (shared.exitWorker scheduler) []
  | leaveWait {scheduler : SchedulerId} {choice : Choice T E}
      (stopped : (shared.schedulers scheduler).running = false)
      (empty : (shared.schedulers scheduler).jobs = []) :
      Moves shared (.waitPop scheduler) choice (shared.exitWorker scheduler) []
  | pop {scheduler : SchedulerId} {choice : Choice T E} {job : Job} {rest : List Job}
      (front : (shared.schedulers scheduler).jobs = job :: rest) :
      Moves shared (.waitPop scheduler) choice
        ((shared.modifyScheduler scheduler fun queue => { queue with jobs := rest }).record
          (.dequeued scheduler job)) [.runJob job, .finishJob scheduler job]
  | runHandle {job : Job} {handle : TaskId} {choice : Choice T E} {shared' : Shared T E} {ops : List Op}
      (of : job.Resumes handle) (resumable : (shared.tasks handle).coroutine.resumable = true)
      (resumes : Resumes shared handle shared' ops) : Moves shared (.runJob job) choice shared' ops
  | skipHandle {job : Job} {handle : TaskId} {choice : Choice T E} (of : job.Resumes handle)
      (idle : (shared.tasks handle).coroutine.resumable = false) : Moves shared (.runJob job) choice shared []
  | runCallable {task : TaskId} {choice : Choice T E} :
      Moves shared (.runJob (.callable task)) choice shared [.callable task]
  | finishJob {scheduler : SchedulerId} {job : Job} {choice : Choice T E} :
      Moves shared (.finishJob scheduler job) choice (shared.record (.executed scheduler job))
        [.loopGuard scheduler]
  | awaitReady {task awaited : TaskId} (completed : (shared.tasks awaited).completed = true) :
      Moves shared (.body task) (.coAwait awaited) shared [.extract awaited, .body task]
  | suspend {task awaited : TaskId} (incomplete : (shared.tasks awaited).completed = false) :
      Moves shared (.body task) (.coAwait awaited)
        ((shared.setCoroutine task (.awaiting awaited)).record (.suspended task awaited))
        [.addContinuation awaited task]
  | coReturn {task : TaskId} {outcome : Except E T} :
      Moves shared (.body task) (.finish outcome)
        (shared.modify task fun state => { state.settle outcome with coroutine := .final }) [.onCompleted task]
  | returned {task : TaskId} {outcome : Except E T} :
      Moves shared (.callable task) (.finish outcome) (shared.modify task fun state => state.settle outcome)
        [.onCompleted task]
  | schedule {scheduler : SchedulerId} {task : TaskId} {dependencies : List TaskToken} {choice : Choice T E} :
      Moves shared (.schedule scheduler task dependencies) choice
        ((shared.modify task fun state => { state with scheduler := some scheduler }).record
          (.scheduled task dependencies)) [.registerDependencies scheduler task dependencies 0]
  | gated {scheduler : SchedulerId} {task : TaskId} {pending : BitVec 32} {choice : Choice T E}
      (some : pending ≠ 0) : Moves shared (.registerDependencies scheduler task [] pending) choice shared []
  | ungated {scheduler : SchedulerId} {task : TaskId} {choice : Choice T E} :
      Moves shared (.registerDependencies scheduler task [] 0) choice shared [.scheduleState scheduler task]
  | skipToken {scheduler : SchedulerId} {task : TaskId} {token : TaskToken} {rest : List TaskToken}
      {pending : BitVec 32} {choice : Choice T E}
      (settled : ∀ dependency, token = some dependency → (shared.tasks dependency).completed = true) :
      Moves shared (.registerDependencies scheduler task (token :: rest) pending) choice shared
        [.registerDependencies scheduler task rest pending]
  | register {scheduler : SchedulerId} {task dependency : TaskId} {rest : List TaskToken}
      {pending : BitVec 32} {choice : Choice T E}
      (incomplete : (shared.tasks dependency).completed = false) :
      Moves shared (.registerDependencies scheduler task (some dependency :: rest) pending) choice
        (shared.modify dependency fun state => { state with dependents := state.dependents ++ [task] })
        [.countDependency scheduler task rest pending]
  | count {scheduler : SchedulerId} {task : TaskId} {rest : List TaskToken} {pending : BitVec 32}
      {choice : Choice T E} :
      Moves shared (.countDependency scheduler task rest pending) choice
        (shared.modify task fun state => { state with pendingDependencies := state.pendingDependencies + 1 })
        [.registerDependencies scheduler task rest (pending + 1)]
  | scheduleState {scheduler : SchedulerId} {task : TaskId} {choice : Choice T E} :
      Moves shared (.scheduleState scheduler task) choice
        ((shared.record (.launched task)).enqueue scheduler (.resumeState task)) []
  | complete {task : TaskId} {choice : Choice T E} :
      Moves shared (.onCompleted task) choice (shared.modify task fun state => { state with completed := true })
        [.resumeContinuations task]
  | swap {task : TaskId} {choice : Choice T E} :
      Moves shared (.resumeContinuations task) choice
        (shared.modify task fun state => { state with continuations := [] })
        [.resumeEach task (shared.tasks task).continuations]
  | resumedAll {task : TaskId} {choice : Choice T E} :
      Moves shared (.resumeEach task []) choice shared [.notifyScheduler task]
  | resumeNext {task handle : TaskId} {rest : List TaskId} {choice : Choice T E} {shared' : Shared T E}
      {ops : List Op} (dispatches : Dispatches shared handle (shared.tasks task).scheduler shared' ops) :
      Moves shared (.resumeEach task (handle :: rest)) choice shared' (ops ++ [.resumeEach task rest])
  | notify {task : TaskId} {scheduler : SchedulerId} {choice : Choice T E}
      (on : (shared.tasks task).scheduler = some scheduler) :
      Moves shared (.notifyScheduler task) choice shared [.releaseDependents scheduler task []]
  | unnotified {task : TaskId} {choice : Choice T E} (off : (shared.tasks task).scheduler = none) :
      Moves shared (.notifyScheduler task) choice shared []
  | released {scheduler : SchedulerId} {task : TaskId} {ready : List TaskId} {choice : Choice T E}
      (empty : (shared.tasks task).dependents = []) :
      Moves shared (.releaseDependents scheduler task ready) choice shared (ready.map (.scheduleState scheduler))
  | release {scheduler : SchedulerId} {task dependent : TaskId} {ready rest : List TaskId}
      {choice : Choice T E} (front : (shared.tasks task).dependents = dependent :: rest) :
      Moves shared (.releaseDependents scheduler task ready) choice
        ((shared.modify task fun state => { state with dependents := rest }).modify dependent fun state =>
          { state with pendingDependencies := state.pendingDependencies - 1 })
        [.releaseDependents scheduler task
          (if (shared.tasks dependent).pendingDependencies = 1 then ready ++ [dependent] else ready)]
  | continueNow {task handle : TaskId} {choice : Choice T E} {shared' : Shared T E} {ops : List Op}
      (completed : (shared.tasks task).completed = true)
      (dispatches : Dispatches shared handle (shared.tasks task).scheduler shared' ops) :
      Moves shared (.addContinuation task handle) choice shared' (ops ++ [.resumeProducer task])
  | park {task handle : TaskId} {choice : Choice T E} (incomplete : (shared.tasks task).completed = false) :
      Moves shared (.addContinuation task handle) choice
        (shared.modify task fun state => { state with continuations := state.continuations ++ [handle] })
        [.resumeProducer task]
  | produce {task : TaskId} {choice : Choice T E} {shared' : Shared T E} {ops : List Op}
      (resumable : (shared.tasks task).coroutine.resumable = true)
      (dispatches : Dispatches (shared.record (.launched task)) task (shared.tasks task).scheduler shared' ops) :
      Moves shared (.resumeProducer task) choice shared' ops
  | produced {task : TaskId} {choice : Choice T E}
      (idle : (shared.tasks task).coroutine.resumable = false) :
      Moves shared (.resumeProducer task) choice shared []
  | getReady {task : TaskId} {choice : Choice T E} (completed : (shared.tasks task).completed = true) :
      Moves shared (.get task) choice shared [.extract task]
  | getPending {task : TaskId} {choice : Choice T E} (incomplete : (shared.tasks task).completed = false) :
      Moves shared (.get task) choice shared [.resumeProducer task, .awaitCompletion task]
  | awaited {task : TaskId} {choice : Choice T E} (completed : (shared.tasks task).completed = true) :
      Moves shared (.awaitCompletion task) choice shared [.extract task]
  | extract {task : TaskId} {choice : Choice T E} :
      Moves shared (.extract task) choice
        ((shared.modify task fun state => state.observe.1).record
          (.observed task (shared.tasks task).observe.2)) []
  | waited {task : TaskId} {choice : Choice T E} (completed : (shared.tasks task).completed = true) :
      Moves shared (.wait task) choice shared []
  | stop {scheduler : SchedulerId} {choice : Choice T E} :
      Moves shared (.stop scheduler) choice
        (shared.modifyScheduler scheduler fun queue => { queue with running := false }) [.joinWorkers scheduler]
  | joined {scheduler : SchedulerId} {choice : Choice T E} (gone : (shared.schedulers scheduler).workers = 0) :
      Moves shared (.joinWorkers scheduler) choice shared []
  | emplace {frame : FrameId} {name : String} {token : TaskToken} {choice : Choice T E} :
      Moves shared (.emplace frame name token) choice
        ((shared.emplace frame name token).record (.framed frame name token)) []
  | waitForAll {frame : FrameId} {choice : Choice T E} :
      Moves shared (.waitForAll frame) choice shared
        [.waitTokens frame ((shared.frames frame).tokens.map Prod.snd) (shared.framed frame)]
  | passed {frame : FrameId} {tasks : List TaskId} {choice : Choice T E} :
      Moves shared (.waitTokens frame [] tasks) choice (shared.record (.barrier frame tasks)) []
  | passToken {frame : FrameId} {token : TaskToken} {rest : List TaskToken} {tasks : List TaskId}
      {choice : Choice T E}
      (settled : ∀ task, token = some task → (shared.tasks task).completed = true) :
      Moves shared (.waitTokens frame (token :: rest) tasks) choice shared [.waitTokens frame rest tasks]

variable {shared shared' : Shared T E} {ops : List Op}

theorem resumes_of_resume {handle : TaskId} (result : shared.resume handle = (shared', ops)) :
    Resumes shared handle shared' ops := by
  unfold Shared.resume at result
  split at result
  · next suspended =>
      cases result
      exact .start suspended
  · next suspended =>
      cases result
      exact .wake suspended
  all_goals
    cases result
    exact .misuse (by simp [*])

theorem dispatches_of_dispatch {scheduler : Option SchedulerId} {handle : TaskId}
    (result : shared.dispatch scheduler handle = (shared', ops)) :
    Dispatches shared handle scheduler shared' ops := by
  cases scheduler with
  | some scheduler =>
      cases result
      exact .enqueue scheduler
  | none => exact .inline (resumes_of_resume result)

/-- What a call pushes. -/
def Op.isRequest : Op → Bool
  | .schedule .. | .get _ | .wait _ | .stop _ | .emplace .. | .waitForAll _ => true
  | _ => false

theorem isRequest_of_perform {call : Call} (performed : shared.perform call = some (shared', ops)) :
    ∀ op ∈ ops, op.isRequest = true := by
  -- Both FrameScheduler entry points end in the same pushes, so they are read once.
  have frame : ∀ frame name token dependencies,
      ∀ op ∈ shared.frameSchedule frame name token dependencies, op.isRequest = true := by
    intro frame name token dependencies op member
    rcases List.mem_append.mp member with member | member
    · obtain ⟨task, -, rfl⟩ := List.mem_map.mp member
      rfl
    · obtain rfl := List.mem_singleton.mp member
      rfl
  intro op member
  cases call with
  | schedule scheduler token dependencies =>
      cases performed
      obtain ⟨task, -, rfl⟩ := List.mem_map.mp member
      rfl
  | runAsync scheduler task =>
      simp only [Shared.perform] at performed
      split at performed <;> cases performed
      cases member
  | get task =>
      cases performed
      obtain rfl := List.mem_singleton.mp member
      rfl
  | wait token =>
      cases performed
      obtain ⟨task, -, rfl⟩ := List.mem_map.mp member
      rfl
  | run scheduler =>
      cases performed
      cases member
  | stop scheduler =>
      cases performed
      obtain rfl := List.mem_singleton.mp member
      rfl
  | frameSchedule id name token dependencies =>
      cases performed
      exact frame _ _ _ _ op member
  | frameScheduleAfter id delay name token dependencies =>
      simp only [Shared.perform] at performed
      split at performed <;> cases performed
      rcases List.mem_cons.mp member with rfl | member
      · rfl
      · exact frame _ _ _ _ op member
  | waitForAll id =>
      cases performed
      obtain rfl := List.mem_singleton.mp member
      rfl

/-- What resuming a coroutine pushes. -/
def Op.isResumption : Op → Bool
  | .body _ | .extract _ => true
  | _ => false

theorem isResumption_of_resumes {handle : TaskId} (resumes : Resumes shared handle shared' ops) :
    ∀ op ∈ ops, op.isResumption = true := by
  intro op member
  cases resumes with
  | start =>
      obtain rfl := List.mem_singleton.mp member
      rfl
  | wake suspended => rcases List.mem_pair.mp member with rfl | rfl <;> rfl
  | misuse broken => cases member

theorem isResumption_of_dispatches {handle : TaskId} {scheduler : Option SchedulerId}
    (dispatches : Dispatches shared handle scheduler shared' ops) : ∀ op ∈ ops, op.isResumption = true := by
  cases dispatches with
  | enqueue scheduler => simp
  | inline resumes => exact isResumption_of_resumes resumes

variable [Inhabited T] {choice : Choice T E}

theorem moves_of_call {self : Op} {call : Call} (user : self.isUser = true)
    (executed : executeCall shared call self = some (shared', ops)) :
    Moves shared self (.call call) shared' ops := by
  obtain ⟨⟨after, pushed⟩, performed, same⟩ := Option.map_eq_some_iff.mp executed
  cases same
  exact .call user performed

theorem moves_of_resumeUnlessDone {job : Job} {handle : TaskId} (of : job.Resumes handle)
    (result : shared.resumeUnlessDone handle = (shared', ops)) :
    Moves shared (.runJob job) choice shared' ops := by
  unfold Shared.resumeUnlessDone at result
  split at result
  · next resumable => exact .runHandle of resumable (resumes_of_resume result)
  · next idle =>
      cases result
      exact .skipHandle of (by simpa using idle)

theorem moves_of_register {scheduler : SchedulerId} {task : TaskId} {dependencies : List TaskToken}
    {pending : BitVec 32}
    (result : executeRegister shared scheduler task pending dependencies = (shared', ops)) :
    Moves shared (.registerDependencies scheduler task dependencies pending) choice shared' ops := by
  unfold executeRegister at result
  split at result
  · cases result
    split
    · next zero =>
        subst zero
        exact .ungated
    · next some => exact .gated some
  · cases result
    exact .skipToken (by simp)
  · split at result
    · next completed =>
        cases result
        exact .skipToken (by simpa using completed)
    · next incomplete =>
        cases result
        exact .register (by simpa using incomplete)

theorem moves_of_release {scheduler : SchedulerId} {task : TaskId} {ready : List TaskId}
    (result : executeRelease shared scheduler task ready = (shared', ops)) :
    Moves shared (.releaseDependents scheduler task ready) choice shared' ops := by
  unfold executeRelease at result
  split at result
  · next empty =>
      cases result
      exact .released empty
  · next front =>
      cases result
      exact .release front

section Operations

variable {task handle : TaskId} {scheduler : SchedulerId} {frame : FrameId}

theorem moves_of_loopGuard (executed : execute shared (.loopGuard scheduler) choice = some (shared', ops)) :
    Moves shared (.loopGuard scheduler) choice shared' ops := by
  simp only [execute] at executed
  split at executed
  · next running =>
      cases executed
      exact .enter running
  · next stopped =>
      cases executed
      exact .leaveLoop (by simpa using stopped)

/-- The wait predicate is `stopping || !queue.empty()`; a nonempty queue wins over a stop. -/
theorem moves_of_waitPop (executed : execute shared (.waitPop scheduler) choice = some (shared', ops)) :
    Moves shared (.waitPop scheduler) choice shared' ops := by
  simp only [execute] at executed
  split at executed
  · next front =>
      cases executed
      exact .pop front
  · next empty =>
      split at executed
      · cases executed
      · next stopped =>
          cases executed
          exact .leaveWait (by simpa using stopped) empty

theorem moves_of_runJob {job : Job} (executed : execute shared (.runJob job) choice = some (shared', ops)) :
    Moves shared (.runJob job) choice shared' ops := by
  cases job with
  | resumeState task => exact moves_of_resumeUnlessDone (.inl rfl) (Option.some.inj executed)
  | resumeHandle handle => exact moves_of_resumeUnlessDone (.inr rfl) (Option.some.inj executed)
  | callable task =>
      cases executed
      exact .runCallable

theorem moves_of_user (executed : execute shared .user choice = some (shared', ops)) :
    Moves shared .user choice shared' ops := by
  cases choice with
  | call call => exact moves_of_call rfl executed
  | proceed => cases executed
  | coAwait awaited => cases executed
  | finish outcome => cases executed

theorem moves_of_body (executed : execute shared (.body task) choice = some (shared', ops)) :
    Moves shared (.body task) choice shared' ops := by
  cases choice with
  | call call => exact moves_of_call rfl executed
  | proceed => cases executed
  | coAwait awaited =>
      simp only [execute] at executed
      split at executed
      · next completed =>
          cases executed
          exact .awaitReady completed
      · next incomplete =>
          cases executed
          exact .suspend (by simpa using incomplete)
  | finish outcome =>
      cases executed
      exact .coReturn

theorem moves_of_callable (executed : execute shared (.callable task) choice = some (shared', ops)) :
    Moves shared (.callable task) choice shared' ops := by
  cases choice with
  | call call => exact moves_of_call rfl executed
  | proceed => cases executed
  | coAwait awaited => cases executed
  | finish outcome =>
      cases executed
      exact .returned

theorem moves_of_resumeEach {handles : List TaskId}
    (executed : execute shared (.resumeEach task handles) choice = some (shared', ops)) :
    Moves shared (.resumeEach task handles) choice shared' ops := by
  cases handles with
  | nil =>
      cases executed
      exact .resumedAll
  | cons handle rest =>
      cases executed
      exact .resumeNext (dispatches_of_dispatch rfl)

theorem moves_of_notifyScheduler (executed : execute shared (.notifyScheduler task) choice = some (shared', ops)) :
    Moves shared (.notifyScheduler task) choice shared' ops := by
  simp only [execute] at executed
  split at executed
  · next on =>
      cases executed
      exact .notify on
  · next off =>
      cases executed
      exact .unnotified off

theorem moves_of_addContinuation
    (executed : execute shared (.addContinuation task handle) choice = some (shared', ops)) :
    Moves shared (.addContinuation task handle) choice shared' ops := by
  simp only [execute] at executed
  split at executed
  · next completed =>
      cases executed
      exact .continueNow completed (dispatches_of_dispatch rfl)
  · next incomplete =>
      cases executed
      exact .park (by simpa using incomplete)

theorem moves_of_resumeProducer (executed : execute shared (.resumeProducer task) choice = some (shared', ops)) :
    Moves shared (.resumeProducer task) choice shared' ops := by
  simp only [execute] at executed
  split at executed
  · next resumable => exact .produce resumable (dispatches_of_dispatch (Option.some.inj executed))
  · next idle =>
      cases executed
      exact .produced (by simpa using idle)

theorem moves_of_get (executed : execute shared (.get task) choice = some (shared', ops)) :
    Moves shared (.get task) choice shared' ops := by
  simp only [execute] at executed
  split at executed
  · next completed =>
      cases executed
      exact .getReady completed
  · next incomplete =>
      cases executed
      exact .getPending (by simpa using incomplete)

/-- A condition-variable wait is disabled, not failed, while its predicate is false. -/
theorem moves_of_awaitCompletion (executed : execute shared (.awaitCompletion task) choice = some (shared', ops)) :
    Moves shared (.awaitCompletion task) choice shared' ops := by
  simp only [execute] at executed
  split at executed
  · next completed =>
      cases executed
      exact .awaited completed
  · cases executed

theorem moves_of_wait (executed : execute shared (.wait task) choice = some (shared', ops)) :
    Moves shared (.wait task) choice shared' ops := by
  simp only [execute] at executed
  split at executed
  · next completed =>
      cases executed
      exact .waited completed
  · cases executed

theorem moves_of_joinWorkers (executed : execute shared (.joinWorkers scheduler) choice = some (shared', ops)) :
    Moves shared (.joinWorkers scheduler) choice shared' ops := by
  simp only [execute] at executed
  split at executed
  · next gone =>
      cases executed
      exact .joined gone
  · cases executed

theorem moves_of_waitTokens {tokens : List TaskToken} {tasks : List TaskId}
    (executed : execute shared (.waitTokens frame tokens tasks) choice = some (shared', ops)) :
    Moves shared (.waitTokens frame tokens tasks) choice shared' ops := by
  simp only [execute] at executed
  split at executed
  · cases executed
    exact .passed
  · cases executed
    exact .passToken (by simp)
  · split at executed
    · next completed =>
        cases executed
        exact .passToken (by simpa using completed)
    · cases executed

end Operations

theorem execute_moves {op : Op} (executed : execute shared op choice = some (shared', ops)) :
    Moves shared op choice shared' ops := by
  cases op with
  | user => exact moves_of_user executed
  | loopGuard scheduler => exact moves_of_loopGuard executed
  | waitPop scheduler => exact moves_of_waitPop executed
  | runJob job => exact moves_of_runJob executed
  | finishJob scheduler job =>
      cases executed
      exact .finishJob
  | body task => exact moves_of_body executed
  | callable task => exact moves_of_callable executed
  | schedule scheduler task dependencies =>
      cases executed
      exact .schedule
  | registerDependencies scheduler task dependencies pending => exact moves_of_register (Option.some.inj executed)
  | countDependency scheduler task dependencies pending =>
      cases executed
      exact .count
  | scheduleState scheduler task =>
      cases executed
      exact .scheduleState
  | onCompleted task =>
      cases executed
      exact .complete
  | resumeContinuations task =>
      cases executed
      exact .swap
  | resumeEach task handles => exact moves_of_resumeEach executed
  | notifyScheduler task => exact moves_of_notifyScheduler executed
  | releaseDependents scheduler task ready => exact moves_of_release (Option.some.inj executed)
  | addContinuation task handle => exact moves_of_addContinuation executed
  | resumeProducer task => exact moves_of_resumeProducer executed
  | get task => exact moves_of_get executed
  | awaitCompletion task => exact moves_of_awaitCompletion executed
  | extract task =>
      cases executed
      exact .extract
  | wait task => exact moves_of_wait executed
  | stop scheduler =>
      cases executed
      exact .stop
  | joinWorkers scheduler => exact moves_of_joinWorkers executed
  | emplace frame name token =>
      cases executed
      exact .emplace
  | waitForAll frame =>
      cases executed
      exact .waitForAll
  | waitTokens frame tokens tasks => exact moves_of_waitTokens executed

end SoulLib.Async
