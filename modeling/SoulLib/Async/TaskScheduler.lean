import SoulLib.Async.Task
import SoulLib.Semantics.Interleaving

/-! Task schedulers, their workers and their clients as interleaved threads.

An operation is one region of the source that runs under a mutex, one atomic
read-modify-write, or the code between two of them. A thread is a stack of
operations: a call pushes the operations of the callee, and a coroutine resumed
inline runs on top of its resumer. What user code does (client threads, coroutine
bodies and `run_async` callables) is left to the choice of each step. Task states
are never destroyed, and a state that is yet to be made differs in nothing from
one that nobody has used, so all of them are there from the start. The log only
records what happened.
-/

set_option autoImplicit false

namespace SoulLib.Async

open SoulLib.Semantics (Pool System)

abbrev FrameId := Nat

structure TaskScheduler where
  jobs : List Job := []
  running : Bool := true
  -- Threads of `m_workers` that have not returned from `Worker::run`.
  workers : Nat := 0

structure FrameScheduler where
  scheduler : SchedulerId := 0
  tokens : List (String × TaskToken) := []

inductive Event (T E : Type) where
  | scheduled (task : TaskId) (dependencies : List TaskToken)
  | launched (task : TaskId)
  | enqueued (scheduler : SchedulerId) (job : Job)
  | dequeued (scheduler : SchedulerId) (job : Job)
  | executed (scheduler : SchedulerId) (job : Job)
  | started (task : TaskId)
  | suspended (handle awaited : TaskId)
  | resumed (handle awaited : TaskId)
  | misused (handle : TaskId)
  | observed (task : TaskId) (outcome : Except E T)
  | framed (frame : FrameId) (name : String) (token : TaskToken)
  | barrier (frame : FrameId) (tasks : List TaskId)

structure Shared (T E : Type) where
  tasks : TaskId → TaskState T E
  schedulers : SchedulerId → TaskScheduler := fun _ => {}
  frames : FrameId → FrameScheduler := fun _ => {}
  log : List (Event T E) := []

inductive Op where
  | user
  | loopGuard (scheduler : SchedulerId)
  | waitPop (scheduler : SchedulerId)
  | runJob (job : Job)
  | finishJob (scheduler : SchedulerId) (job : Job)
  | body (task : TaskId)
  | callable (task : TaskId)
  | schedule (scheduler : SchedulerId) (task : TaskId) (dependencies : List TaskToken)
  | registerDependencies (scheduler : SchedulerId) (task : TaskId) (dependencies : List TaskToken)
      (pending : BitVec 32)
  | countDependency (scheduler : SchedulerId) (task : TaskId) (dependencies : List TaskToken)
      (pending : BitVec 32)
  | scheduleState (scheduler : SchedulerId) (task : TaskId)
  | onCompleted (task : TaskId)
  | resumeContinuations (task : TaskId)
  | resumeEach (task : TaskId) (handles : List TaskId)
  | notifyScheduler (task : TaskId)
  | releaseDependents (scheduler : SchedulerId) (task : TaskId) (ready : List TaskId)
  | addContinuation (task handle : TaskId)
  | resumeProducer (task : TaskId)
  | get (task : TaskId)
  | awaitCompletion (task : TaskId)
  | extract (task : TaskId)
  | wait (task : TaskId)
  | stop (scheduler : SchedulerId)
  | joinWorkers (scheduler : SchedulerId)
  | emplace (frame : FrameId) (name : String) (token : TaskToken)
  | waitForAll (frame : FrameId)
  | waitTokens (frame : FrameId) (tokens : List TaskToken) (tasks : List TaskId)
  deriving DecidableEq, Repr

/-- What user code may call. -/
inductive Call where
  | schedule (scheduler : SchedulerId) (task : TaskToken) (dependencies : List TaskToken)
  | runAsync (scheduler : SchedulerId) (task : TaskId)
  | get (task : TaskId)
  | wait (token : TaskToken)
  | run (scheduler : SchedulerId)
  | stop (scheduler : SchedulerId)
  | frameSchedule (frame : FrameId) (name : String) (task : TaskToken) (dependencies : List TaskToken)
  | frameScheduleAfter (frame : FrameId) (delay : TaskId) (name : String) (task : TaskToken)
      (dependencies : List TaskToken)
  | waitForAll (frame : FrameId)
  deriving DecidableEq, Repr

/-- Only user code chooses; every other operation ignores the choice. -/
inductive Choice (T E : Type) where
  | proceed
  | call (call : Call)
  | coAwait (task : TaskId)
  | finish (outcome : Except E T)

namespace Shared

variable {T E : Type} (shared : Shared T E)

def modify (task : TaskId) (change : TaskState T E → TaskState T E) : Shared T E :=
  { shared with tasks := Function.update shared.tasks task (change (shared.tasks task)) }

def setCoroutine (task : TaskId) (coroutine : Coroutine) : Shared T E :=
  shared.modify task fun state => { state with coroutine }

def modifyScheduler (scheduler : SchedulerId) (change : TaskScheduler → TaskScheduler) : Shared T E :=
  { shared with schedulers := Function.update shared.schedulers scheduler (change (shared.schedulers scheduler)) }

def record (event : Event T E) : Shared T E := { shared with log := shared.log ++ [event] }

def enqueue (scheduler : SchedulerId) (job : Job) : Shared T E :=
  (shared.modifyScheduler scheduler fun queue => { queue with jobs := queue.jobs ++ [job] }).record
    (.enqueued scheduler job)

def exitWorker (scheduler : SchedulerId) : Shared T E :=
  shared.modifyScheduler scheduler fun queue => { queue with workers := queue.workers - 1 }

/-- `coroutine_handle::resume`, which must not be called on a coroutine that is
running, done, or null. -/
def resume (handle : TaskId) : Shared T E × List Op :=
  match (shared.tasks handle).coroutine with
  | .initial => ((shared.setCoroutine handle .running).record (.started handle), [.body handle])
  | .awaiting task =>
      ((shared.setCoroutine handle .running).record (.resumed handle task), [.extract task, .body handle])
  | .null | .running | .final => (shared.record (.misused handle), [])

/-- `resume_coroutine` on a scheduler, or `resume` inline without one. -/
def dispatch (scheduler : Option SchedulerId) (handle : TaskId) : Shared T E × List Op :=
  match scheduler with
  | some scheduler => (shared.enqueue scheduler (.resumeHandle handle), [])
  | none => shared.resume handle

/-- The jobs of `schedule_state` and `resume_coroutine` test the handle first. -/
def resumeUnlessDone (handle : TaskId) : Shared T E × List Op :=
  if (shared.tasks handle).coroutine.resumable then shared.resume handle else (shared, [])

/-- The tasks scheduled through a frame scheduler so far. -/
def framed (frame : FrameId) : List TaskId :=
  shared.log.filterMap fun
    | .framed other _ (some task) => if other = frame then some task else none
    | _ => none

/-- `unordered_map::emplace` keeps the entry of a name that is already there. -/
def emplace (frame : FrameId) (name : String) (token : TaskToken) : Shared T E :=
  let entry := shared.frames frame
  { shared with
    frames := Function.update shared.frames frame
      { entry with
        tokens := if name ∈ entry.tokens.map Prod.fst then entry.tokens else entry.tokens ++ [(name, token)] } }

/-- `FrameScheduler::schedule` on the frame's task scheduler, then `emplace`. -/
def frameSchedule (frame : FrameId) (name : String) (task : TaskToken) (dependencies : List TaskToken) :
    List Op :=
  (task.toList.map fun task => .schedule (shared.frames frame).scheduler task dependencies) ++
    [.emplace frame name task]

def perform : Call → Option (Shared T E × List Op)
  | .schedule scheduler task dependencies =>
      some (shared, task.toList.map fun task => .schedule scheduler task dependencies)
  | .runAsync scheduler task =>
      -- The new state is one that has no coroutine and has not been used.
      if (shared.tasks task).coroutine = .null ∧ (shared.tasks task).scheduler = none then
        some ((shared.modify task fun state => { state with scheduler := some scheduler }).enqueue scheduler
          (.callable task), [])
      else none
  | .get task => some (shared, [.get task])
  | .wait token => some (shared, token.toList.map .wait)
  | .run scheduler => some (shared.modifyScheduler scheduler fun queue => { queue with running := true }, [])
  | .stop scheduler => some (shared, [.stop scheduler])
  | .frameSchedule frame name task dependencies =>
      some (shared, shared.frameSchedule frame name task dependencies)
  | .frameScheduleAfter frame delay name task dependencies =>
      -- The delay coroutine sleeps and returns; like every body it is left open here.
      if (shared.tasks delay).coroutine = .initial ∧ (shared.tasks delay).scheduler = none then
        some (shared, .schedule (shared.frames frame).scheduler delay [] ::
          shared.frameSchedule frame name task (dependencies ++ [some delay]))
      else none
  | .waitForAll frame => some (shared, [.waitForAll frame])

end Shared

section Execution

variable {T E : Type} [Inhabited T]

/-- User code calls, and goes on as `self` when the call has returned. -/
def executeCall (shared : Shared T E) (call : Call) (self : Op) : Option (Shared T E × List Op) :=
  (shared.perform call).map fun result => (result.1, result.2 ++ [self])

/-- `schedule` after the loop has reached the given rest of its dependencies. -/
def executeRegister (shared : Shared T E) (scheduler : SchedulerId) (task : TaskId) (pending : BitVec 32) :
    List TaskToken → Shared T E × List Op
  | [] => (shared, if pending = 0 then [.scheduleState scheduler task] else [])
  | none :: rest => (shared, [.registerDependencies scheduler task rest pending])
  | some dependency :: rest =>
      if (shared.tasks dependency).completed then
        (shared, [.registerDependencies scheduler task rest pending])
      else
        (shared.modify dependency fun state => { state with dependents := state.dependents ++ [task] },
          [.countDependency scheduler task rest pending])

/-- One round of the loop of `on_task_finished`. The dependents are consumed as
they are visited; no other operation reads them once the task is completed. -/
def executeRelease (shared : Shared T E) (scheduler : SchedulerId) (task : TaskId) (ready : List TaskId) :
    Shared T E × List Op :=
  match (shared.tasks task).dependents with
  | [] => (shared, ready.map (.scheduleState scheduler))
  | dependent :: rest =>
      let previous := (shared.tasks dependent).pendingDependencies
      ((shared.modify task fun state => { state with dependents := rest }).modify dependent fun state =>
          { state with pendingDependencies := state.pendingDependencies - 1 },
        [.releaseDependents scheduler task (if previous = 1 then ready ++ [dependent] else ready)])

def execute (shared : Shared T E) (op : Op) (choice : Choice T E) : Option (Shared T E × List Op) :=
  match op with
  | .user =>
      match choice with
      | .call call => executeCall shared call .user
      | .proceed | .coAwait _ | .finish _ => none
  | .loopGuard scheduler =>
      if (shared.schedulers scheduler).running then some (shared, [.waitPop scheduler])
      else some (shared.exitWorker scheduler, [])
  | .waitPop scheduler =>
      match (shared.schedulers scheduler).jobs with
      | job :: rest =>
          some ((shared.modifyScheduler scheduler fun queue => { queue with jobs := rest }).record
            (.dequeued scheduler job), [.runJob job, .finishJob scheduler job])
      | [] =>
          -- The condition variable blocks a worker of a running scheduler.
          if (shared.schedulers scheduler).running then none
          else some (shared.exitWorker scheduler, [])
  | .runJob (.resumeState task) => some (shared.resumeUnlessDone task)
  | .runJob (.resumeHandle handle) => some (shared.resumeUnlessDone handle)
  | .runJob (.callable task) => some (shared, [.callable task])
  | .finishJob scheduler job => some (shared.record (.executed scheduler job), [.loopGuard scheduler])
  | .body task =>
      match choice with
      | .call call => executeCall shared call (.body task)
      | .coAwait awaited =>
          if (shared.tasks awaited).completed then some (shared, [.extract awaited, .body task])
          else
            some ((shared.setCoroutine task (.awaiting awaited)).record (.suspended task awaited),
              [.addContinuation awaited task])
      | .finish outcome =>
          some (shared.modify task fun state => { state.settle outcome with coroutine := .final },
            [.onCompleted task])
      | .proceed => none
  | .callable task =>
      match choice with
      | .call call => executeCall shared call (.callable task)
      | .finish outcome => some (shared.modify task fun state => state.settle outcome, [.onCompleted task])
      | .proceed | .coAwait _ => none
  | .schedule scheduler task dependencies =>
      some ((shared.modify task fun state => { state with scheduler := some scheduler }).record
        (.scheduled task dependencies), [.registerDependencies scheduler task dependencies 0])
  | .registerDependencies scheduler task dependencies pending =>
      some (executeRegister shared scheduler task pending dependencies)
  | .countDependency scheduler task dependencies pending =>
      some (shared.modify task fun state =>
          { state with pendingDependencies := state.pendingDependencies + 1 },
        [.registerDependencies scheduler task dependencies (pending + 1)])
  | .scheduleState scheduler task =>
      some ((shared.record (.launched task)).enqueue scheduler (.resumeState task), [])
  | .onCompleted task =>
      some (shared.modify task fun state => { state with completed := true }, [.resumeContinuations task])
  | .resumeContinuations task =>
      some (shared.modify task fun state => { state with continuations := [] },
        [.resumeEach task (shared.tasks task).continuations])
  | .resumeEach task [] => some (shared, [.notifyScheduler task])
  | .resumeEach task (handle :: rest) =>
      let (shared, ops) := shared.dispatch (shared.tasks task).scheduler handle
      some (shared, ops ++ [.resumeEach task rest])
  | .notifyScheduler task =>
      match (shared.tasks task).scheduler with
      | some scheduler => some (shared, [.releaseDependents scheduler task []])
      | none => some (shared, [])
  | .releaseDependents scheduler task ready => some (executeRelease shared scheduler task ready)
  | .addContinuation task handle =>
      if (shared.tasks task).completed then
        let (shared, ops) := shared.dispatch (shared.tasks task).scheduler handle
        some (shared, ops ++ [.resumeProducer task])
      else
        some (shared.modify task fun state => { state with continuations := state.continuations ++ [handle] },
          [.resumeProducer task])
  | .resumeProducer task =>
      if (shared.tasks task).coroutine.resumable then
        some ((shared.record (.launched task)).dispatch (shared.tasks task).scheduler task)
      else some (shared, [])
  | .get task =>
      if (shared.tasks task).completed then some (shared, [.extract task])
      else some (shared, [.resumeProducer task, .awaitCompletion task])
  | .awaitCompletion task =>
      if (shared.tasks task).completed then some (shared, [.extract task]) else none
  | .extract task =>
      let (state, outcome) := (shared.tasks task).observe
      some ((shared.modify task fun _ => state).record (.observed task outcome), [])
  | .wait task => if (shared.tasks task).completed then some (shared, []) else none
  | .stop scheduler =>
      some (shared.modifyScheduler scheduler fun queue => { queue with running := false },
        [.joinWorkers scheduler])
  | .joinWorkers scheduler => if (shared.schedulers scheduler).workers = 0 then some (shared, []) else none
  | .emplace frame name token => some ((shared.emplace frame name token).record (.framed frame name token), [])
  | .waitForAll frame =>
      some (shared, [.waitTokens frame ((shared.frames frame).tokens.map Prod.snd) (shared.framed frame)])
  | .waitTokens frame tokens tasks =>
      match tokens with
      | [] => some (shared.record (.barrier frame tasks), [])
      | none :: rest => some (shared, [.waitTokens frame rest tasks])
      | some task :: rest =>
          if (shared.tasks task).completed then some (shared, [.waitTokens frame rest tasks]) else none

/-- Workers, one for each entry of the list, and clients. -/
def threads (workers : List SchedulerId) (clients : Nat) : List (List Op) :=
  workers.map (fun scheduler => [.loopGuard scheduler]) ++ List.replicate clients [.user]

/-- Schedulers, frame schedulers and tasks are there and nothing has run. -/
def initial (coroutines : TaskId → Bool) (workers : List SchedulerId) (clients : Nat)
    (frames : FrameId → SchedulerId) : Pool (Shared T E) Op where
  shared :=
    { tasks := fun task => if coroutines task then .ofCoroutine else {}
      schedulers := fun scheduler => { workers := workers.count scheduler }
      frames := fun frame => { scheduler := frames frame } }
  threads := threads workers clients

/-- All threads, interleaved. -/
def runtime (T E : Type) [Inhabited T] : System (Pool (Shared T E) Op) (Nat × Choice T E) :=
  Pool.machine execute

/-- Labels that let one thread perform operations without a choice. -/
def proceed (thread count : Nat) : List (Nat × Choice T E) := List.replicate count (thread, .proceed)

end Execution

end SoulLib.Async
