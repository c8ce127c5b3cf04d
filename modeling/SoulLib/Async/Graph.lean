import SoulLib.Async.Suspension

/-! Acyclic graphs of tasks.

Tasks are scheduled one by one, each with dependencies that were scheduled before
it, and their bodies run from start to end. Then the tasks run in topological
order, each of them once, and when all queues are empty and no worker is at work
all of them are completed.
-/

set_option autoImplicit false

namespace SoulLib.Async

open SoulLib.Semantics (Pool System)

section Order

variable {α : Type}

/-- Each entry names only entries before it. -/
inductive Ordered : List (α × List (Option α)) → Prop where
  | nil : Ordered []
  | snoc {order : List (α × List (Option α))} {node : α} {sources : List (Option α)} (ordered : Ordered order)
      (earlier : ∀ source, some source ∈ sources → source ∈ order.map Prod.fst) :
      Ordered (order ++ [(node, sources)])

theorem Ordered.forall {order : List (α × List (Option α))} (ordered : Ordered order) {holds : α → Prop}
    (passes : ∀ node sources, (node, sources) ∈ order → (∀ source, some source ∈ sources → holds source) →
      holds node) : ∀ node ∈ order.map Prod.fst, holds node := by
  induction ordered with
  | nil =>
      intro node member
      cases member
  | @snoc order last sources ordered earlier ih =>
      have before := ih fun node sources member => passes node sources (List.mem_append_left _ member)
      intro node member
      rw [List.map_append, List.mem_append] at member
      rcases member with old | new
      · exact before node old
      · rw [List.mem_singleton.mp new]
        apply passes last sources (List.mem_append_right _ (List.mem_singleton_self _))
        exact fun source named => before source (earlier source named)

theorem Ordered.earlier {order : List (α × List (Option α))} (ordered : Ordered order) {node source : α}
    {sources : List (Option α)} (member : (node, sources) ∈ order) (named : some source ∈ sources) :
    source ∈ order.map Prod.fst := by
  induction ordered with
  | nil => cases member
  | @snoc order last others ordered earlier ih =>
      rw [List.map_append, List.mem_append]
      rcases List.mem_append.mp member with old | new
      · exact .inl (ih old)
      · cases List.mem_singleton.mp new
        exact .inl (earlier source named)

end Order

section Guard

variable {T E : Type}

def Call.plain : Call → Bool
  | .schedule .. | .wait _ => true
  | _ => false

def Choice.plain : Choice T E → Bool
  | .call request => request.plain
  | _ => true

/-- The operation is not part of a job or of a call of `schedule`. -/
def Op.idle : Op → Bool
  | .user | .loopGuard _ | .waitPop _ | .wait _ => true
  | _ => false

theorem Op.idle.spec {op : Op} (idle : op.idle = true) :
    op.completing = none ∧ ∀ task, op.scheduling task = false ∧ op.tickets task = [] := by
  cases op <;> first | exact ⟨rfl, fun _ => ⟨rfl, rfl⟩⟩ | cases idle

/-- The operation is inside the loop of `schedule`. -/
def Op.registering : Op → Bool
  | .registerDependencies .. | .countDependency .. => true
  | _ => false

/-- No body suspends. A task is scheduled once, as a coroutine that has not started,
with dependencies that were scheduled before. -/
def Op.InGraph (shared : Shared T E) (choice : Choice T E) : Op → Prop
  | .body _ => ∀ awaited ∈ choice.awaited, (shared.tasks awaited).completed = true
  | .schedule _ task dependencies => shared.schedules task = [] ∧ (shared.tasks task).coroutine = .initial ∧
      ∀ token ∈ dependencies, ∀ dependency ∈ token, shared.schedules dependency ≠ []
  | _ => True

instance (shared : Shared T E) (choice : Choice T E) : (op : Op) → Decidable (op.InGraph shared choice)
  | .body _ => inferInstanceAs (Decidable (∀ awaited ∈ choice.awaited, (shared.tasks awaited).completed = true))
  | .schedule _ task dependencies => inferInstanceAs (Decidable (shared.schedules task = [] ∧
      (shared.tasks task).coroutine = .initial ∧
      ∀ token ∈ dependencies, ∀ dependency ∈ token, shared.schedules dependency ≠ []))
  | .user | .loopGuard _ | .waitPop _ | .runJob _ | .finishJob .. | .callable _ | .registerDependencies ..
  | .countDependency .. | .scheduleState .. | .onCompleted _ | .resumeContinuations _ | .resumeEach ..
  | .notifyScheduler _ | .releaseDependents .. | .addContinuation .. | .resumeProducer _ | .get _
  | .awaitCompletion _ | .extract _ | .wait _ | .stop _ | .joinWorkers _ | .emplace .. | .waitForAll _
  | .waitTokens .. => inferInstanceAs (Decidable True)

/-- The loop of `schedule` is not interrupted, and user code calls only `schedule` and `wait`. -/
def Graph (shared : Shared T E) (ops : Multiset Op) (op : Op) (choice : Choice T E) : Prop :=
  (op.registering = false → ∀ pending ∈ ops, pending.registering = false) ∧
    (op.isUser = true → choice.plain = true) ∧ op.InGraph shared choice

/-- A list of dependencies that the 32-bit counter can count. -/
def Op.Bounded : Op → Prop
  | .schedule _ _ dependencies => dependencies.length < 2 ^ 32
  | _ => True

instance : (op : Op) → Decidable op.Bounded
  | .schedule _ _ dependencies => inferInstanceAs (Decidable (dependencies.length < 2 ^ 32))
  | .user | .loopGuard _ | .waitPop _ | .runJob _ | .finishJob .. | .body _ | .callable _
  | .registerDependencies .. | .countDependency .. | .scheduleState .. | .onCompleted _
  | .resumeContinuations _ | .resumeEach .. | .notifyScheduler _ | .releaseDependents ..
  | .addContinuation .. | .resumeProducer _ | .get _ | .awaitCompletion _ | .extract _ | .wait _ | .stop _
  | .joinWorkers _ | .emplace .. | .waitForAll _ | .waitTokens .. => inferInstanceAs (Decidable True)

def BoundedGraph (shared : Shared T E) (ops : Multiset Op) (op : Op) (choice : Choice T E) : Prop :=
  Graph shared ops op choice ∧ op.Bounded

instance (shared : Shared T E) (ops : Multiset Op) (op : Op) (choice : Choice T E) :
    Decidable (Graph shared ops op choice) :=
  inferInstanceAs (Decidable ((op.registering = false → ∀ pending ∈ ops, pending.registering = false) ∧
    (op.isUser = true → choice.plain = true) ∧ op.InGraph shared choice))

instance (shared : Shared T E) (ops : Multiset Op) (op : Op) (choice : Choice T E) :
    Decidable (BoundedGraph shared ops op choice) :=
  inferInstanceAs (Decidable (Graph shared ops op choice ∧ op.Bounded))

end Guard

section Invariants

variable {T E : Type} {shared shared' : Shared T E} {op : Op} {choice : Choice T E} {pushed : List Op}

def Event.order : Event T E → Option (TaskId × List TaskToken)
  | .scheduled task dependencies => some (task, dependencies)
  | _ => none

/-- The tasks in the order in which they were scheduled, with their dependencies. -/
def Shared.order (shared : Shared T E) : List (TaskId × List TaskToken) := shared.log.filterMap Event.order

theorem mem_order {task : TaskId} {dependencies : List TaskToken} :
    (task, dependencies) ∈ shared.order ↔ dependencies ∈ shared.schedules task := by
  constructor
  · intro member
    obtain ⟨event, logged, same⟩ := List.mem_filterMap.mp member
    cases event <;> cases same
    exact List.mem_filterMap.mpr ⟨_, logged, if_pos rfl⟩
  · intro member
    obtain ⟨event, logged, same⟩ := List.mem_filterMap.mp member
    unfold Event.schedules at same
    split at same
    · next other _ =>
        by_cases here : other = task
        · rw [if_pos here, Option.some.injEq] at same
          subst here same
          exact List.mem_filterMap.mpr ⟨_, logged, rfl⟩
        · rw [if_neg here] at same
          cases same
    · cases same

theorem mem_order_map {task : TaskId} : task ∈ shared.order.map Prod.fst ↔ shared.schedules task ≠ [] := by
  constructor
  · intro member
    obtain ⟨⟨other, dependencies⟩, entry, rfl⟩ := List.mem_map.mp member
    exact List.ne_nil_of_mem (mem_order.mp entry)
  · intro some
    obtain ⟨dependencies, member⟩ := List.exists_mem_of_ne_nil _ some
    exact List.mem_map.mpr ⟨(task, dependencies), mem_order.mpr member, rfl⟩

variable [Inhabited T]

theorem Moves.order (moves : Moves shared op choice shared' pushed) :
    shared'.order = shared.order ∨ ∃ scheduler task dependencies, op = .schedule scheduler task dependencies ∧
      shared'.order = shared.order ++ [(task, dependencies)] := by
  by_cases schedules : ∃ scheduler task dependencies, op = .schedule scheduler task dependencies
  · obtain ⟨scheduler, task, dependencies, rfl⟩ := schedules
    cases moves with
    | call user performed => cases user
    | schedule => exact .inr ⟨scheduler, task, dependencies, rfl, by simp [Shared.order, Event.order]⟩
  · left
    apply moves.filterMap_log
    intro event of
    cases event with
    | scheduled task dependencies =>
        obtain ⟨scheduler, same⟩ := of
        exact absurd ⟨scheduler, task, dependencies, same⟩ schedules
    | _ => rfl

/-- The operations that occur in a graph. -/
def Op.ordinary : Op → Bool
  | .runJob (.resumeState _) => true
  | .resumeEach _ handles => handles.isEmpty
  | .runJob _ | .callable _ | .addContinuation .. | .resumeProducer _ | .get _ | .awaitCompletion _ | .stop _
  | .joinWorkers _ | .emplace .. | .waitForAll _ | .waitTokens .. => false
  | _ => true

/-- Nobody waits for a task in a coroutine, and all jobs come from `schedule_state`. -/
structure Ordinary (shared : Shared T E) (ops : Multiset Op) : Prop where
  ops : ∀ op ∈ ops, op.ordinary = true
  continuations : ∀ task, (shared.tasks task).continuations = []
  jobs : ∀ scheduler job, .enqueued scheduler job ∈ shared.log → ∃ task, job = .resumeState task
  awake : ∀ task, (shared.tasks task).coroutine.isAwaiting = false

theorem dispatches_of_ordinary (ordinary : op.ordinary = true) : op.dispatches = none := by
  cases op with
  | resumeEach task handles =>
      cases handles with
      | nil => rfl
      | cons handle rest => cases ordinary
  | addContinuation task handle => cases ordinary
  | resumeProducer task => cases ordinary
  | _ => rfl

theorem ordinary_of_isResumption (resumption : op.isResumption = true) : op.ordinary = true := by
  cases op <;> first | rfl | cases resumption

theorem Moves.ordinary {ops : Multiset Op} (moves : Moves shared op choice shared' pushed) (fifo : Fifo shared)
    (graph : Graph shared (op ::ₘ ops) op choice) (ordinary : Ordinary shared (op ::ₘ ops)) :
    ∀ other ∈ pushed, other.ordinary = true := by
  have self := ordinary.ops op (Multiset.mem_cons_self _ _)
  cases moves with
  | @call _ call _ _ user performed =>
      intro other member
      rcases List.mem_append.mp member with request | same
      · have plain := graph.2.1 user
        cases call with
        | schedule scheduler token dependencies =>
            cases performed
            obtain ⟨task, -, rfl⟩ := List.mem_map.mp request
            rfl
        | wait token =>
            cases performed
            obtain ⟨task, -, rfl⟩ := List.mem_map.mp request
            rfl
        | _ => cases plain
      · rw [List.mem_singleton.mp same]
        exact self
  | runHandle of resumable resumes =>
      exact fun other member => ordinary_of_isResumption (isResumption_of_resumes resumes other member)
  | @pop scheduler _ job rest front =>
      have queued : job ∈ (shared.schedulers scheduler).jobs := by
        rw [front]
        exact List.mem_cons_self
      obtain ⟨task, rfl⟩ := ordinary.jobs scheduler job (mem_enqueued.mp (fifo.mem_enqueued queued))
      exact List.forall_mem_cons.mpr ⟨rfl, List.forall_mem_singleton.mpr rfl⟩
  -- A body of the graph only awaits tasks that are completed.
  | suspend incomplete =>
      rw [graph.2.2 _ rfl] at incomplete
      cases incomplete
  | @swap task _ =>
      rw [ordinary.continuations task]
      exact List.forall_mem_singleton.mpr rfl
  | released empty =>
      intro other member
      obtain ⟨dependent, -, rfl⟩ := List.mem_map.mp member
      rfl
  | awaitReady completed => exact List.forall_mem_cons.mpr ⟨rfl, List.forall_mem_singleton.mpr rfl⟩
  -- The remaining moves start from operations that a graph run never contains.
  | runCallable => cases self
  | resumeNext dispatches => cases self
  | continueNow completed dispatches => cases self
  | produce resumable dispatches => cases self
  | park incomplete => cases self
  | getReady completed => cases self
  | getPending incomplete => cases self
  | awaited completed => cases self
  | stop => cases self
  | waitForAll => cases self
  | passToken settled => cases self
  | _ =>
      first
        | exact fun other member => absurd member List.not_mem_nil
        | exact List.forall_mem_singleton.mpr rfl

theorem Ordinary.moves {ops : Multiset Op} (ordinary : Ordinary shared (op ::ₘ ops))
    (moves : Moves shared op choice shared' pushed) (fifo : Fifo shared)
    (graph : Graph shared (op ::ₘ ops) op choice) : Ordinary shared' (pushed + ops) := by
  have self := ordinary.ops op (Multiset.mem_cons_self _ _)
  constructor
  · intro other member
    rcases Multiset.mem_add.mp member with new | old
    · exact moves.ordinary fifo graph ordinary other (Multiset.mem_coe.mp new)
    · exact ordinary.ops other (Multiset.mem_cons_of_mem old)
  · intro task
    rcases moves.continuations task with same | empty | ⟨-, handle, rfl⟩
    · rw [same]
      exact ordinary.continuations task
    · exact empty
    · cases self
  · intro scheduler job logged
    rcases moves.mem_log logged with old | of
    · exact ordinary.jobs scheduler job old
    · cases job with
      | resumeState task => exact ⟨task, rfl⟩
      -- Handles would be queued for awaiters, and nobody waits inside a body.
      | resumeHandle handle =>
          have via : op.dispatches = some handle := of
          rw [dispatches_of_ordinary self] at via
          cases via
      | callable task =>
          obtain ⟨user, rfl⟩ := of
          cases graph.2.1 user
  · intro task
    cases moves.advances task with
    | stay coroutine life =>
        rw [coroutine]
        exact ordinary.awake task
    | start via before after life =>
        rw [after]
        rfl
    | wake before after life =>
        rw [after]
        rfl
    | suspend awaited body chosen incomplete after life =>
        subst body
        rw [graph.2.2 awaited chosen] at incomplete
        cases incomplete
    | finish outcome body chosen after life =>
        rw [after]
        rfl

end Invariants

section Runs

variable {T E : Type} [Inhabited T] {coroutines : TaskId → Bool} {workers : List SchedulerId} {clients : Nat}
  {frames : FrameId → SchedulerId} {pool : Pool (Shared T E) Op}

section Unguarded

variable {guard : Shared T E → Multiset Op → Op → Choice T E → Prop}
  (reach : (runtime T E).Reaches (Pool.admits guard) (initial coroutines workers clients frames) pool)

include reach in
theorem scheduler_of_scheduled {task : TaskId} :
    pool.shared.schedules task ≠ [] → (pool.shared.tasks task).scheduler ≠ none := by
  apply Pool.invariant (fun shared _ => shared.schedules task ≠ [] → (shared.tasks task).scheduler ≠ none) _ _ reach
  · intro scheduled
    exact absurd rfl scheduled
  · intro shared shared' op pushed rest choice before _ executed scheduled
    have moves := execute_moves executed
    rcases moves.schedules task with same | ⟨scheduler, dependencies, rfl, -⟩
    · rw [same] at scheduled
      rcases moves.scheduler task with kept | ⟨owned, -⟩
      · rw [kept]
        exact before scheduled
      · exact owned
    · cases moves with
      | call user performed => cases user
      | schedule => simp

include reach in
theorem started_of_dequeued {job : Job} {handle : TaskId} (of : job.Resumes handle) :
    (∃ scheduler, .dequeued scheduler job ∈ pool.shared.log) →
      .runJob job ∈ pool.ops ∨ (pool.shared.tasks handle).coroutine ≠ .initial := by
  apply Pool.invariant (fun shared ops => (∃ scheduler, .dequeued scheduler job ∈ shared.log) →
    .runJob job ∈ ops ∨ (shared.tasks handle).coroutine ≠ .initial) _ _ reach
  · rintro ⟨scheduler, logged⟩
    cases logged
  · intro shared shared' op pushed rest choice before _ executed taken
    have moves := execute_moves executed
    have kept : (∃ scheduler, .dequeued scheduler job ∈ shared.log) →
        .runJob job ∈ (pushed : Multiset Op) + rest ∨ (shared'.tasks handle).coroutine ≠ .initial := by
      intro old
      rcases before old with pending | left
      · rcases Multiset.mem_cons.mp pending with rfl | later
        · exact .inr (moves.left_of_runJob of)
        · exact .inl (Multiset.mem_add.mpr (.inr later))
      · exact .inr ((moves.advances handle).left.1 left)
    obtain ⟨scheduler, logged⟩ := taken
    rcases moves.mem_log logged with old | new
    · exact kept ⟨scheduler, old⟩
    · obtain rfl : op = .waitPop scheduler := new
      cases moves with
      | call user performed => cases user
      | leaveWait stopped empty => exact kept ⟨scheduler, logged⟩
      | pop front =>
          rcases List.mem_append.mp logged with old | new
          · exact kept ⟨scheduler, old⟩
          · cases List.mem_singleton.mp new
            exact .inl (Multiset.mem_add.mpr (.inl (by simp)))

end Unguarded

section Guarded

variable
  (reach : (runtime T E).Reaches (Pool.admits Graph) (initial coroutines workers clients frames) pool)

include reach in
theorem ordinary_reached : Ordinary pool.shared pool.ops := by
  apply Pool.invariant_of (fun shared _ => Fifo shared) Ordinary fifo _ _ reach
  · constructor
    · intro op member
      rcases mem_initial member with rfl | ⟨scheduler, rfl⟩ <;> rfl
    · intro task
      simp only [initial]
      split <;> rfl
    · intro scheduler job logged
      cases logged
    · intro task
      simp only [initial]
      split <;> rfl
  · intro shared shared' op pushed rest choice fifo _ ordinary graph executed
    exact ordinary.moves (execute_moves executed) fifo graph

include reach in
theorem unhurried_of_graph (handle : TaskId) :
    (runtime T E).Reaches (Pool.admits (Unhurried handle)) (initial coroutines workers clients frames) pool := by
  apply reach.of_reached
  intro reached label earlier admitted op moving
  have ordinary := ordinary_reached earlier
  have graph := admitted op moving
  cases op with
  | body task =>
      intro _ awaited chosen incomplete
      rw [graph.2.2 awaited chosen] at incomplete
      cases incomplete
  | scheduleState scheduler task => exact fun _ => ordinary.awake handle
  | resumeProducer task => exact fun _ => ordinary.awake handle
  | _ => trivial

include reach in
theorem ordered_reached : Ordered pool.shared.order := by
  apply Pool.invariant (fun shared _ => Ordered shared.order) _ _ reach
  · exact .nil
  · intro shared shared' op pushed rest choice before graph executed
    rcases (execute_moves executed).order with same | ⟨scheduler, task, dependencies, rfl, more⟩
    · rw [same]
      exact before
    · rw [more]
      apply before.snoc
      intro source named
      exact mem_order_map.mpr (graph.2.2.2.2 _ named source rfl)

include reach in
theorem coroutine_of_scheduled {task : TaskId} :
    pool.shared.schedules task ≠ [] → (pool.shared.tasks task).coroutine ≠ .null := by
  apply Pool.invariant (fun shared _ => shared.schedules task ≠ [] → (shared.tasks task).coroutine ≠ .null)
    _ _ reach
  · intro scheduled
    exact absurd rfl scheduled
  · intro shared shared' op pushed rest choice before graph executed scheduled
    have moves := execute_moves executed
    apply (moves.advances task).left.2
    rcases moves.schedules task with same | ⟨scheduler, dependencies, rfl, -⟩
    · rw [same] at scheduled
      exact before scheduled
    · rw [graph.2.2.2.1]
      simp

include reach in
theorem launched_of_started {task : TaskId} :
    (pool.shared.tasks task).coroutine ≠ .null → (pool.shared.tasks task).coroutine ≠ .initial →
      ∃ scheduler, .enqueued scheduler (.resumeState task) ∈ pool.shared.log := by
  apply Pool.invariant_of
    (fun shared ops => Ordinary shared ops ∧ Fifo shared ∧ Rests task (tickets task shared ops) shared.tasks ∧
      ∀ job, .runJob job ∈ ops → ∃ scheduler, .dequeued scheduler job ∈ shared.log)
    (fun shared _ => (shared.tasks task).coroutine ≠ .null → (shared.tasks task).coroutine ≠ .initial →
      ∃ scheduler, .enqueued scheduler (.resumeState task) ∈ shared.log) _ _ _ reach
  · intro reached earlier
    exact ⟨ordinary_reached earlier, fifo earlier, rests_reached (unhurried_of_graph earlier task),
      taken_of_runJob earlier⟩
  · intro exists_ started
    simp only [initial] at exists_ started
    split at started
    · exact absurd rfl started
    · next null => simp [null] at exists_
  · rintro shared shared' op pushed rest choice ⟨ordinary, fifo, rests, taken⟩ - before - executed exists_ started
    have moves := execute_moves executed
    have self := ordinary.ops op (Multiset.mem_cons_self _ _)
    have kept : (∃ scheduler, .enqueued scheduler (.resumeState task) ∈ shared.log) →
        ∃ scheduler, .enqueued scheduler (.resumeState task) ∈ shared'.log := by
      rintro ⟨scheduler, logged⟩
      exact ⟨scheduler, moves.logged logged⟩
    have running : op = .body task → (shared.tasks task).coroutine = .running := by
      rintro rfl
      exact rests.running (by simp [tickets, Op.tickets])
    apply kept
    cases moves.advances task with
    | stay coroutine life =>
        rw [coroutine] at exists_ started
        exact before exists_ started
    -- The start runs the job that a worker took from the queue.
    | start via fresh after life =>
        rcases via with ⟨job, rfl, of⟩ | via
        · obtain ⟨scheduler, dequeued⟩ := taken job (Multiset.mem_cons_self _ _)
          have enqueued := mem_enqueued.mp (fifo.dequeued_subset (mem_dequeued.mpr dequeued))
          rcases of with rfl | rfl
          · exact ⟨scheduler, enqueued⟩
          · cases self
        · rw [dispatches_of_ordinary self] at via
          cases via
    | wake suspended after life => exact before (by simp [suspended]) (by simp [suspended])
    | suspend awaited body chosen incomplete after life =>
        exact before (by simp [running body]) (by simp [running body])
    | finish outcome body chosen after life => exact before (by simp [running body]) (by simp [running body])

end Guarded

/-- All queues are empty, and every thread is between two jobs or two calls. -/
structure Resting (pool : Pool (Shared T E) Op) : Prop where
  jobs : ∀ scheduler, (pool.shared.schedulers scheduler).jobs = []
  ops : ∀ op ∈ pool.ops, op.idle = true

section Bounded

variable
  (reach : (runtime T E).Reaches (Pool.admits BoundedGraph) (initial coroutines workers clients frames) pool)

include reach in
theorem graph_of_bounded :
    (runtime T E).Reaches (Pool.admits Graph) (initial coroutines workers clients frames) pool := by
  apply reach.of_reached
  intro reached label _ admitted op moving
  exact (admitted op moving).1

include reach in
theorem timely_of_graph (task : TaskId) :
    (runtime T E).Reaches (Pool.admits (Timely task)) (initial coroutines workers clients frames) pool := by
  apply reach.of_reached
  intro reached label earlier admitted op moving
  have graph := admitted op moving
  cases op with
  | schedule scheduler other dependencies =>
      rintro rfl
      exact ⟨graph.1.2.2.1, graph.2⟩
  | releaseDependents scheduler dependency ready =>
      -- The loop of `schedule` is not interrupted, so no registration is under way.
      intro _ pending member phase stands
      have idle := graph.1.1 rfl pending member
      cases pending <;> first | cases stands | cases idle
  | notifyScheduler dependency =>
      intro held
      obtain ⟨dependencies, scheduled, named⟩ := (named earlier).1 dependency held
      apply scheduler_of_scheduled earlier
      have ordered := ordered_reached (graph_of_bounded earlier)
      exact mem_order_map.mp (ordered.earlier (mem_order.mpr scheduled) named)
  | _ => trivial

include reach in
theorem complete_of_started {task : TaskId} {dependencies : List TaskToken}
    (scheduled : dependencies ∈ pool.shared.schedules task) (started : .started task ∈ pool.shared.log) :
    Complete (fun dependency => (pool.shared.tasks dependency).completed) dependencies := by
  have graph := graph_of_bounded reach
  have lived := (lived_reached (unhurried_of_graph graph task)).count_started
  have turn : .started ∈ pool.shared.life task := List.mem_filterMap.mpr ⟨_, started, if_pos rfl⟩
  have once := List.count_pos_iff.mpr turn
  rw [lived] at once
  split at once
  · omega
  · next begun =>
      push Not at begun
      have applied := Shared.applied_pos.mpr (launched_of_started graph begun.1 begun.2)
      exact complete_of_applied (timely_of_graph reach task) applied scheduled

include reach in
theorem completed_of_resting (resting : Resting pool) {task : TaskId} {dependencies : List TaskToken}
    (scheduled : dependencies ∈ pool.shared.schedules task)
    (complete : Complete (fun dependency => (pool.shared.tasks dependency).completed) dependencies) :
    (pool.shared.tasks task).completed = true ∧ (pool.shared.tasks task).coroutine = .final := by
  have graph := graph_of_bounded reach
  have busy : ∀ {op : Op}, op.idle = false → op ∉ pool.ops := by
    intro op works member
    rw [resting.ops op member] at works
    cases works
  -- No operation of the resting pool is about the task or its dependencies.
  have returned : Returned task dependencies pool := by
    refine ⟨scheduled, ?_, complete, ?_⟩
    · intro op member
      exact ((Op.idle.spec (resting.ops op member)).2 task).1
    · intro dependency _ op member
      rw [(Op.idle.spec (resting.ops op member)).1]
      simp
  have applied : 0 < pool.shared.applied task := by
    rw [(returned.gate (timely_of_graph reach task)).2]
    exact Nat.zero_lt_one
  -- `schedule_state` has queued the job, a worker has taken it and the coroutine has started.
  obtain ⟨scheduler, enqueued⟩ := Shared.applied_pos.mp applied
  have dequeued := (fifo reach).mem_dequeued (resting.jobs scheduler) (mem_enqueued.mpr enqueued)
  have left := (started_of_dequeued reach (.inl rfl) ⟨scheduler, mem_dequeued.mp dequeued⟩).resolve_left (busy rfl)
  have rests := rests_reached (unhurried_of_graph graph task)
  -- It is neither suspended nor inside its body, so it has returned.
  cases here : (pool.shared.tasks task).coroutine with
  | null => exact absurd here (coroutine_of_scheduled graph (List.ne_nil_of_mem scheduled))
  | initial => exact absurd here left
  | awaiting awaited =>
      have awake := (ordinary_reached graph).awake task
      rw [here] at awake
      cases awake
  | running =>
      have body : .body ∈ tickets task pool.shared pool.ops := by
        rw [Rests.awake ((ordinary_reached graph).awake task), here] at rests
        rw [← Multiset.count_pos, rests.1]
        simp
      rcases Multiset.mem_add.mp body with queued | pending
      · cases Multiset.eq_of_mem_replicate queued
      · obtain ⟨op, member, ticket⟩ := Multiset.mem_bind.mp pending
        rw [((Op.idle.spec (resting.ops op member)).2 task).2] at ticket
        cases ticket
  | final => exact ⟨(completed_of_final reach here).resolve_left (busy rfl), rfl⟩

/-- Acyclic graphs run in topological order, each task once, and to their end. -/
theorem graph_in_topological_order
    (reach : (runtime T E).Reaches (Pool.admits BoundedGraph) (initial coroutines workers clients frames) pool) :
    (∀ task dependencies, dependencies ∈ pool.shared.schedules task → .started task ∈ pool.shared.log →
        Complete (fun dependency => (pool.shared.tasks dependency).completed) dependencies) ∧
      (∀ task, (pool.shared.life task).count .started ≤ 1) ∧
      (Resting pool → ∀ task, pool.shared.schedules task ≠ [] →
        (pool.shared.tasks task).completed = true ∧ (pool.shared.life task).count .started = 1) := by
  have graph := graph_of_bounded reach
  refine ⟨fun task dependencies => complete_of_started reach, ?_, ?_⟩
  · intro task
    rw [(lived_reached (unhurried_of_graph graph task)).count_started]
    split <;> omega
  · intro resting task scheduled
    have ended : (pool.shared.tasks task).completed = true ∧ (pool.shared.tasks task).coroutine = .final := by
      apply (ordered_reached graph).forall _ task (mem_order_map.mpr scheduled)
      intro node sources member before
      apply completed_of_resting reach resting (mem_order.mp member)
      exact fun source named => (before source named).1
    refine ⟨ended.1, ?_⟩
    rw [(lived_reached (unhurried_of_graph graph task)).count_started, ended.2]
    rfl

end Bounded

end Runs

/-- The client schedules task 1, and task 0 after it with a repeated and an empty token;
then the worker runs both. -/
def drained : Pool (Shared Unit Unit) Op :=
  (runtime Unit Unit).after (Pool.admits BoundedGraph) small
    ((1, .call (.schedule 0 (some 1) [])) :: proceed 1 3 ++
      (1, .call (.schedule 0 (some 0) [some 1, none, some 1])) :: proceed 1 7 ++ proceed 0 3 ++
      (0, .finish (.ok ())) :: proceed 0 12 ++ (0, .finish (.ok ())) :: proceed 0 6) (by decide)

theorem resting_drained : Resting drained := by
  have reached : (runtime Unit Unit).Reaches (Pool.admits BoundedGraph) small drained := System.reaches_after _
  have taken : drained.shared.enqueued = drained.shared.dequeued := by decide
  constructor
  · intro scheduler
    have order := fifo reached scheduler
    rw [taken] at order
    exact List.self_eq_append_right.mp order
  · decide

theorem graph_in_topological_order_drained :
    (drained.shared.tasks 0).completed = true ∧ (drained.shared.life 0).count .started = 1 :=
  (graph_in_topological_order (System.reaches_after _)).2.2 resting_drained 0 (by decide)

/-- Two workers. One is inside task 1, the other waits for a job. -/
def occupied : Pool (Shared Unit Unit) Op :=
  (runtime Unit Unit).after (Pool.admits Graph) (initial (· < 10) [0, 0] 1 fun _ => 0)
    ((2, .call (.schedule 0 (some 1) [])) :: proceed 2 3 ++ proceed 0 3 ++ proceed 1 1) (by decide)

section Wrapping

/-- The same but for the bookkeeping of dependencies. -/
structure Agrees (shared shared' : Shared Unit Unit) : Prop where
  log : shared'.log = shared.log
  schedulers : shared'.schedulers = shared.schedulers
  coroutine : ∀ task, (shared'.tasks task).coroutine = (shared.tasks task).coroutine
  completed : ∀ task, (shared'.tasks task).completed = (shared.tasks task).completed

variable {first second rest : List Op}

/-- The loop of `schedule` counts a repeated token modulo `2 ^ 32`. -/
theorem reaches_registered (count : Nat) {shared : Shared Unit Unit} {pending : BitVec 32}
    (incomplete : (shared.tasks 1).completed = false)
    (reach : (runtime Unit Unit).Reaches (Pool.admits Graph) (initial (· < 10) [0, 0] 1 fun _ => 0)
      ⟨shared, [first, second, .registerDependencies 0 0 (List.replicate count (some 1)) pending :: rest]⟩) :
    ∃ shared', Agrees shared shared' ∧
      (runtime Unit Unit).Reaches (Pool.admits Graph) (initial (· < 10) [0, 0] 1 fun _ => 0)
        ⟨shared', [first, second, .registerDependencies 0 0 [] (pending + BitVec.ofNat 32 count) :: rest]⟩ := by
  induction count generalizing shared pending with
  | zero => exact ⟨shared, ⟨rfl, rfl, fun _ => rfl, fun _ => rfl⟩, by simpa using reach⟩
  | succ count ih =>
      have uninterrupted : ∀ {shared : Shared Unit Unit} {ops : Multiset Op} {op : Op},
          op.registering = true → Graph shared ops op .proceed := by
        intro shared ops op inside
        cases op with
        | registerDependencies => exact ⟨nofun, nofun, trivial⟩
        | countDependency => exact ⟨nofun, nofun, trivial⟩
        | _ => cases inside
      have registers : execute shared (.registerDependencies 0 0 (List.replicate (count + 1) (some 1)) pending)
          (.proceed : Choice Unit Unit) =
          some (shared.modify 1 fun state => { state with dependents := state.dependents ++ [0] },
            [.countDependency 0 0 (List.replicate count (some 1)) pending]) := by
        simp [execute, executeRegister, List.replicate_succ, incomplete]
      have published := Pool.reaches_perform (i := 2) reach rfl registers (uninterrupted rfl)
      have counted := Pool.reaches_perform (i := 2) published rfl rfl (uninterrupted rfl)
      obtain ⟨shared', agrees, reached⟩ := ih (by simp [Shared.field_modify TaskState.completed, incomplete]) counted
      refine ⟨shared', ⟨agrees.log, agrees.schedulers, ?_, ?_⟩, ?_⟩
      · intro task
        rw [agrees.coroutine, Shared.field_modify TaskState.coroutine rfl, Shared.field_modify TaskState.coroutine rfl]
      · intro task
        rw [agrees.completed, Shared.field_modify TaskState.completed rfl, Shared.field_modify TaskState.completed rfl]
      · have sum : pending + 1 + BitVec.ofNat 32 count = pending + BitVec.ofNat 32 (count + 1) := by
          rw [BitVec.ofNat_add, BitVec.add_assoc, BitVec.add_comm 1]
          rfl
        rw [← sum]
        exact reached

theorem graph_of_idle {shared : Shared Unit Unit} {ops : Multiset Op} {op : Op} {choice : Choice Unit Unit}
    (idle : ∀ pending ∈ ops, pending.registering = false) (plain : op.isUser = true → choice.plain = true)
    (meets : op.InGraph shared choice) : Graph shared ops op choice :=
  ⟨fun _ => idle, plain, meets⟩

theorem reaches_body {shared : Shared Unit Unit}
    (reach : (runtime Unit Unit).Reaches (Pool.admits Graph) (initial (· < 10) [0, 0] 1 fun _ => 0)
      ⟨shared, [[.body 1, .finishJob 0 (.resumeState 1)], [.waitPop 0], [.user]]⟩)
    (front : (shared.schedulers 0).jobs = [.resumeState 0]) (fresh : (shared.tasks 0).coroutine = .initial) :
    ∃ pool, (runtime Unit Unit).Reaches (Pool.admits Graph) (initial (· < 10) [0, 0] 1 fun _ => 0) pool ∧
      pool.shared.schedules 0 = shared.schedules 0 ∧ .started 0 ∈ pool.shared.log ∧
      ∀ task, (pool.shared.tasks task).completed = (shared.tasks task).completed := by
  have take : execute shared (.waitPop 0) (.proceed : Choice Unit Unit) =
      some ((shared.modifyScheduler 0 fun queue => { queue with jobs := [] }).record (.dequeued 0 (.resumeState 0)),
        [.runJob (.resumeState 0), .finishJob 0 (.resumeState 0)]) := by
    simp [execute, front]
  have taken := Pool.reaches_perform (i := 1) reach rfl take
    (graph_of_idle (by simp [Pool.ops, Op.registering]) (by simp [Op.isUser]) trivial)
  have run : ∀ {other : Shared Unit Unit}, other.tasks = shared.tasks →
      execute other (.runJob (.resumeState 0)) (.proceed : Choice Unit Unit) =
        some ((other.setCoroutine 0 .running).record (.started 0), [.body 0]) := by
    intro other same
    simp [execute, Shared.resumeUnlessDone, Shared.resume, same, fresh, Coroutine.resumable, Coroutine.done]
  have ran := Pool.reaches_perform (i := 1) taken rfl (run rfl)
    (graph_of_idle (by simp [Pool.ops, Op.registering]) (by simp [Op.isUser]) trivial)
  refine ⟨_, ran, ?_, List.mem_append_right _ (List.mem_singleton_self _), ?_⟩
  · simp [Shared.schedules, Shared.setCoroutine, Event.schedules]
  · intro task
    rw [Shared.tasks_record, Shared.setCoroutine, Shared.field_modify TaskState.completed rfl]
    rfl

/-- As many tokens as the counter has values are as good as none. -/
theorem reaches_started (count : Nat) (wraps : BitVec.ofNat 32 count = 0) :
    ∃ pool, (runtime Unit Unit).Reaches (Pool.admits Graph) (initial (· < 10) [0, 0] 1 fun _ => 0) pool ∧
      pool.shared.schedules 0 = [List.replicate count (some 1)] ∧ .started 0 ∈ pool.shared.log ∧
      (pool.shared.tasks 1).completed = false := by
  have threads : occupied.threads = [[.body 1, .finishJob 0 (.resumeState 1)], [.waitPop 0], [.user]] := by decide
  have scheduled : occupied.shared.schedules 0 = [] := by decide
  have suspended : (occupied.shared.tasks 0).coroutine = .initial := by decide
  have incomplete : (occupied.shared.tasks 1).completed = false := by decide
  have jobs : (occupied.shared.schedulers 0).jobs = [] := by decide
  have reach : (runtime Unit Unit).Reaches (Pool.admits Graph) (initial (· < 10) [0, 0] 1 fun _ => 0) occupied :=
    System.reaches_after _
  have named : ∀ token ∈ List.replicate count (some 1), ∀ dependency ∈ token,
      occupied.shared.schedules dependency ≠ [] := by
    intro token member dependency valid
    rw [List.eq_of_mem_replicate member] at valid
    cases valid
    decide
  -- The client calls `schedule` and enters its loop.
  have call : execute occupied.shared .user (.call (.schedule 0 (some 0) (List.replicate count (some 1)))) =
      some (occupied.shared, [.schedule 0 0 (List.replicate count (some 1)), .user]) := rfl
  have called := Pool.reaches_perform (i := 2) reach (by rw [threads]; rfl) call
    (graph_of_idle (by decide) (fun _ => rfl) trivial)
  rw [threads] at called
  have enter : execute occupied.shared (.schedule 0 0 (List.replicate count (some 1))) (.proceed : Choice Unit Unit) =
      some (_, _) := rfl
  have entered := Pool.reaches_perform (i := 2) called rfl enter
    (graph_of_idle (by simp [Pool.ops, Op.registering]) (by simp [Op.isUser]) ⟨scheduled, suspended, named⟩)
  obtain ⟨shared, agrees, looped⟩ := reaches_registered count
    (by simp [Shared.field_modify TaskState.completed, incomplete]) entered
  rw [wraps] at looped
  -- Its local count is zero again, and it applies `schedule_state`.
  have leave : execute shared (.registerDependencies 0 0 [] 0) (.proceed : Choice Unit Unit) =
      some (shared, [.scheduleState 0 0]) := rfl
  have left := Pool.reaches_perform (i := 2) looped rfl leave
    ⟨by simp [Op.registering], by simp [Op.isUser], trivial⟩
  have launch : execute shared (.scheduleState 0 0) (.proceed : Choice Unit Unit) =
      some ((shared.record (.launched 0)).enqueue 0 (.resumeState 0), []) := rfl
  have launched := Pool.reaches_perform (i := 2) left rfl launch
    (graph_of_idle (by simp [Pool.ops, Op.registering]) (by simp [Op.isUser]) trivial)
  obtain ⟨pool, reached, schedules, started, completed⟩ := reaches_body launched
    (by simp [Shared.enqueue, Shared.schedulers_modifyScheduler, agrees.schedulers, jobs])
    (by rw [Shared.tasks_enqueue, Shared.tasks_record, agrees.coroutine, Shared.tasks_record,
      Shared.field_modify TaskState.coroutine rfl, suspended])
  refine ⟨pool, reached, ?_, started, ?_⟩
  · unfold Shared.schedules at scheduled
    rw [schedules]
    simp [Shared.schedules, Shared.enqueue, agrees.log, Event.schedules, scheduled]
  · rw [completed, Shared.tasks_enqueue, Shared.tasks_record, agrees.completed, Shared.tasks_record,
      Shared.field_modify TaskState.completed rfl, incomplete]

end Wrapping

theorem started_before_dependency :
    ∃ pool, (runtime Unit Unit).Reaches (Pool.admits Graph) (initial (· < 10) [0, 0] 1 fun _ => 0) pool ∧
      pool.shared.schedules 0 = [List.replicate (2 ^ 32) (some 1)] ∧ .started 0 ∈ pool.shared.log ∧
      (pool.shared.tasks 1).completed = false :=
  reaches_started (2 ^ 32) (by decide)

end SoulLib.Async
