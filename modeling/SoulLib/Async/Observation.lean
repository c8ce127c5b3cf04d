import SoulLib.Async.Graph

/-! Observing a task that waits for its dependencies.

`get` and `co_await` resume the coroutine of a task without asking whether its
dependencies are completed. A task that was scheduled and is not observed in this
way while it is gated is started only by the job of `schedule_state`, or when all
its dependencies are completed.
-/

set_option autoImplicit false

namespace SoulLib.Async

open SoulLib.Semantics (Pool System)

section Guard

variable {T E : Type}

/-- All dependencies with which the task was scheduled are completed. -/
def Shared.Ungated (shared : Shared T E) (task : TaskId) : Prop :=
  ∀ dependencies ∈ shared.schedules task,
    Complete (fun dependency => (shared.tasks dependency).completed) dependencies

instance (shared : Shared T E) (task : TaskId) : Decidable (shared.Ungated task) :=
  inferInstanceAs (Decidable (∀ dependencies ∈ shared.schedules task,
    Complete (fun dependency => (shared.tasks dependency).completed) dependencies))

/-- The task is scheduled once, and neither `get` nor `co_await` resumes its coroutine
while it has not started and a dependency is incomplete. -/
def Patient (task : TaskId) (shared : Shared T E) (_ : Multiset Op) (op : Op) (_ : Choice T E) : Prop :=
  match op with
  | .schedule _ other _ => other = task → shared.schedules task = []
  | .resumeProducer other => other = task → (shared.tasks task).coroutine = .initial → shared.Ungated task
  | _ => True

instance (task : TaskId) (shared : Shared T E) (ops : Multiset Op) (choice : Choice T E) :
    (op : Op) → Decidable (Patient task shared ops op choice)
  | .schedule _ other _ => inferInstanceAs (Decidable (other = task → shared.schedules task = []))
  | .resumeProducer other => inferInstanceAs (Decidable (other = task →
      (shared.tasks task).coroutine = .initial → shared.Ungated task))
  | .user | .loopGuard _ | .waitPop _ | .runJob _ | .finishJob .. | .body _ | .callable _
  | .registerDependencies .. | .countDependency .. | .scheduleState .. | .onCompleted _
  | .resumeContinuations _ | .resumeEach .. | .notifyScheduler _ | .releaseDependents ..
  | .addContinuation .. | .get _ | .awaitCompletion _ | .extract _ | .wait _ | .stop _ | .joinWorkers _
  | .emplace .. | .waitForAll _ | .waitTokens .. => inferInstanceAs (Decidable True)

/-- A body or a registration of the coroutine is under way. -/
def Attached (handle : TaskId) (shared : Shared T E) (ops : Multiset Op) : Prop :=
  (∃ op ∈ ops, ∃ ticket ∈ op.tickets handle, ticket ≠ .job) ∨
    ∃ task, handle ∈ (shared.tasks task).continuations

/-- The coroutine has been started. -/
def Begun (handle : TaskId) (shared : Shared T E) : Prop :=
  (shared.tasks handle).coroutine ≠ .initial ∧ (shared.tasks handle).coroutine ≠ .null

end Guard

section Moves

variable {T E : Type} [Inhabited T] {shared shared' : Shared T E} {op : Op} {choice : Choice T E}
  {pushed : List Op} {handle : TaskId} {rest : Multiset Op}

theorem Begun.moves (begun : Begun handle shared) (moves : Moves shared op choice shared' pushed) :
    Begun handle shared' :=
  ⟨(moves.advances handle).left.1 begun.1, (moves.advances handle).left.2 begun.2⟩

omit [Inhabited T] in
theorem begun_of_resumes {ops : List Op} (resumes : Resumes shared handle shared' ops)
    (body : ops ≠ []) : Begun handle shared' := by
  cases resumes with
  | start suspended => simp [Begun, Shared.setCoroutine]
  | wake suspended => simp [Begun, Shared.setCoroutine]
  | misuse broken => exact absurd rfl body

/-- The operation that moves is itself a ticket of the coroutine. -/
theorem begun_of_ticket (before : Attached handle shared (op ::ₘ rest) → Begun handle shared)
    (moves : Moves shared op choice shared' pushed) (ticket : Ticket) (member : ticket ∈ op.tickets handle)
    (ne : ticket ≠ .job) : Begun handle shared' :=
  (before (.inl ⟨op, Multiset.mem_cons_self _ _, ticket, member, ne⟩)).moves moves

omit [Inhabited T] in
theorem mem_tickets_resumeEach {task : TaskId} {handles : List TaskId} {ticket : Ticket} :
    ticket ∈ (Op.resumeEach task handles).tickets handle ↔ handle ∈ handles ∧ ticket = .wait task := by
  rw [Op.tickets, List.mem_replicate, ← Nat.pos_iff_ne_zero, List.count_pos_iff]

theorem begun_of_body (before : Attached handle shared (op ::ₘ rest) → Begun handle shared)
    (moves : Moves shared op choice shared' pushed) (member : .body handle ∈ pushed) : Begun handle shared' := by
  rcases moves.pushes _ member with rfl | ⟨job, rfl, of⟩ | via
  · exact begun_of_ticket before moves .body (by simp [Op.tickets]) (by simp)
  · cases moves with
    | call user performed => cases user
    | runHandle other resumable resumes =>
        obtain rfl := other.unique of
        exact begun_of_resumes resumes (List.ne_nil_of_mem member)
    | skipHandle other idle => cases member
    | runCallable => cases List.mem_singleton.mp member
  · cases op with
    | resumeEach task handles =>
        have within : handle ∈ handles := List.mem_of_mem_head? via
        exact begun_of_ticket before moves (.wait task) (mem_tickets_resumeEach.mpr ⟨within, rfl⟩) (by simp)
    | addContinuation task other =>
        cases via
        exact begun_of_ticket before moves (.wait task) (by simp [Op.tickets]) (by simp)
    | resumeProducer other =>
        cases via
        cases moves with
        | call user performed => cases user
        | produced idle => cases member
        | produce resumable dispatches =>
            generalize (shared.tasks handle).scheduler = scheduler at dispatches
            cases dispatches with
            | enqueue scheduler => cases member
            | inline resumes => exact begun_of_resumes resumes (List.ne_nil_of_mem member)
    | _ => cases via

theorem begun_of_attached (before : Attached handle shared (op ::ₘ rest) → Begun handle shared)
    (moves : Moves shared op choice shared' pushed) (attached : Attached handle shared' (pushed + rest)) :
    Begun handle shared' := by
  have kept : Begun handle shared → Begun handle shared' := fun begun => begun.moves moves
  -- Either an operation about to run holds the handle, or some task has it parked.
  rcases attached with ⟨other, member, ticket, held, ne⟩ | ⟨task, parked⟩
  · rcases Multiset.mem_add.mp member with new | old
    · have of := moves.pushes other (Multiset.mem_coe.mp new)
      cases other with
      | runJob job =>
          simp only [Op.tickets] at held
          split at held
          · exact absurd (List.mem_singleton.mp held) ne
          · cases held
      | body task =>
          simp only [Op.tickets] at held
          split at held
          · next same =>
              subst same
              exact begun_of_body before moves (Multiset.mem_coe.mp new)
          · cases held
      | addContinuation task other =>
          simp only [Op.tickets] at held
          split at held
          · next same =>
              subst same
              obtain rfl : op = .body other := of
              exact begun_of_ticket before moves .body (by simp [Op.tickets]) (by simp)
          · cases held
      | resumeEach task handles =>
          have within := (mem_tickets_resumeEach.mp held).1
          rcases of with rfl | ⟨other, rfl⟩
          · cases moves with
            | call user performed => cases user
            | swap =>
                cases List.mem_singleton.mp (Multiset.mem_coe.mp new)
                exact kept (before (.inr ⟨task, within⟩))
          · apply begun_of_ticket before moves (.wait task) _ (by simp)
            exact mem_tickets_resumeEach.mpr ⟨List.mem_cons_of_mem _ within, rfl⟩
      | _ => cases held
    · exact kept (before (.inl ⟨other, Multiset.mem_cons_of_mem old, ticket, held, ne⟩))
  -- A parked handle was there before, or `add_continuation` is the step that parks it.
  · rcases moves.continuations task with same | empty | ⟨incomplete, other, rfl⟩
    · rw [same] at parked
      exact kept (before (.inr ⟨task, parked⟩))
    · rw [empty] at parked
      cases parked
    · cases moves with
      | call user performed => cases user
      | continueNow completed dispatches =>
          rw [completed] at incomplete
          cases incomplete
      | park _ =>
          rw [Shared.tasks_modify_self] at parked
          rcases List.mem_append.mp parked with old | new
          · exact kept (before (.inr ⟨task, old⟩))
          · obtain rfl := List.mem_singleton.mp new
            exact kept (before (.inl ⟨_, Multiset.mem_cons_self _ _, .wait task, by simp [Op.tickets], by simp⟩))

end Moves

section Runs

variable {T E : Type} [Inhabited T] {coroutines : TaskId → Bool} {workers : List SchedulerId} {clients : Nat}
  {frames : FrameId → SchedulerId} {pool : Pool (Shared T E) Op} {task : TaskId}

section Unguarded

variable {guard : Shared T E → Multiset Op → Op → Choice T E → Prop}
  (reach : (runtime T E).Reaches (Pool.admits guard) (initial coroutines workers clients frames) pool)

include reach in
theorem begun_reached (handle : TaskId) : Attached handle pool.shared pool.ops → Begun handle pool.shared := by
  apply Pool.invariant (fun shared ops => Attached handle shared ops → Begun handle shared) _ _ reach
  · rintro (⟨op, member, ticket, held, -⟩ | ⟨task, parked⟩)
    · rcases mem_initial member with rfl | ⟨scheduler, rfl⟩ <;> cases held
    · simp only [initial] at parked
      split at parked <;> cases parked
  · intro shared shared' op pushed rest choice before _ executed attached
    exact begun_of_attached before (execute_moves executed) attached

include reach in
theorem scheduled_of_scheduler : (pool.shared.tasks task).coroutine = .null ∨
    ((pool.shared.tasks task).scheduler ≠ none → pool.shared.schedules task ≠ []) := by
  apply Pool.invariant_of (fun shared ops => Attached task shared ops → Begun task shared)
    (fun shared _ => (shared.tasks task).coroutine = .null ∨
      ((shared.tasks task).scheduler ≠ none → shared.schedules task ≠ [])) _ _ _ reach
  · intro reached earlier
    exact begun_reached earlier task
  · right
    intro owned
    simp only [initial] at owned
    split at owned <;> exact absurd rfl owned
  · intro shared shared' op pushed rest choice begun _ before _ executed
    have moves := execute_moves executed
    -- Without a body there is no coroutine to run.
    have bodiless : (shared.tasks task).coroutine = .null → (shared'.tasks task).coroutine = .null := by
      intro null
      have noBody : op ≠ .body task := by
        rintro rfl
        exact (begun (.inl ⟨_, Multiset.mem_cons_self _ _, .body, by simp [Op.tickets], by simp⟩)).2 null
      cases moves.advances task with
      | stay coroutine life => exact coroutine.trans null
      | start via fresh _ _ => simp [null] at fresh
      | wake suspended _ _ => simp [null] at suspended
      | suspend awaited body _ _ _ _ => exact absurd body noBody
      | finish outcome body _ _ _ => exact absurd body noBody
    have scheduled : shared.schedules task ≠ [] → shared'.schedules task ≠ [] := by
      intro some
      rcases moves.schedules task with same | ⟨_, _, -, more⟩
      · rwa [same]
      · simp [more]
    rcases before with null | before
    · exact .inl (bodiless null)
    · rcases moves.scheduler task with same | ⟨-, ⟨scheduler, dependencies, rfl⟩ | null⟩
      · right
        rw [same]
        exact fun owned => scheduled (before owned)
      · right
        intro _
        cases moves with
        | call user performed => cases user
        | schedule => simp [Shared.schedules, Event.schedules]
      · exact .inl (bodiless null)

end Unguarded

section Guarded

variable
  (reach : (runtime T E).Reaches (Pool.admits (Patient task)) (initial coroutines workers clients frames) pool)

/-- Some observer has queued a job for the coroutine. -/
def Shared.Observed (shared : Shared T E) (task : TaskId) : Prop :=
  ∃ scheduler, .enqueued scheduler (.resumeHandle task) ∈ shared.log

omit [Inhabited T] in
theorem Shared.Ungated.moves [Inhabited T] {shared shared' : Shared T E} {op : Op} {choice : Choice T E}
    {pushed : List Op} (ungated : shared.Ungated task) (same : shared'.schedules task = shared.schedules task)
    (moves : Moves shared op choice shared' pushed) : shared'.Ungated task := by
  intro dependencies scheduled dependency named
  rw [same] at scheduled
  exact moves.completed_iff.mpr (.inl (ungated dependencies scheduled dependency named))

include reach in
theorem ungated_of_observed : pool.shared.Observed task → (pool.shared.tasks task).coroutine = .initial →
    pool.shared.schedules task ≠ [] ∧ pool.shared.Ungated task := by
  apply Pool.invariant_of
    (fun shared ops => (Attached task shared ops → Begun task shared) ∧ ((shared.tasks task).coroutine = .null ∨
      ((shared.tasks task).scheduler ≠ none → shared.schedules task ≠ [])))
    (fun shared _ => shared.Observed task → (shared.tasks task).coroutine = .initial →
      shared.schedules task ≠ [] ∧ shared.Ungated task) _ _ _ reach
  · intro reached earlier
    exact ⟨begun_reached earlier task, scheduled_of_scheduler earlier⟩
  · rintro ⟨scheduler, logged⟩
    cases logged
  · rintro shared shared' op pushed rest choice ⟨begun, owned⟩ - before patient executed ⟨scheduler, logged⟩ after
    have moves := execute_moves executed
    have fresh : (shared.tasks task).coroutine = .initial := by
      by_contra left
      exact (moves.advances task).left.1 left after
    have detached : ¬Attached task shared (op ::ₘ rest) := fun attached => (begun attached).1 fresh
    -- What holds before the step is kept by it, since the task is not scheduled again.
    have kept : shared.schedules task ≠ [] ∧ shared.Ungated task →
        shared'.schedules task ≠ [] ∧ shared'.Ungated task := by
      rintro ⟨some, ungated⟩
      rcases moves.schedules task with same | ⟨_, _, rfl, -⟩
      · rw [same]
        exact ⟨some, ungated.moves same moves⟩
      · exact absurd (patient rfl) some
    apply kept
    rcases moves.mem_log logged with old | new
    · exact before ⟨scheduler, old⟩ fresh
    · have via : op.dispatches = some task := new
      cases op with
      | resumeEach awaited handles =>
          apply absurd _ detached
          have within : task ∈ handles := List.mem_of_mem_head? via
          exact .inl ⟨_, Multiset.mem_cons_self _ _, _, mem_tickets_resumeEach.mpr ⟨within, rfl⟩, by simp⟩
      | addContinuation awaited other =>
          cases via
          apply absurd _ detached
          exact .inl ⟨_, Multiset.mem_cons_self _ _, .wait awaited, by simp [Op.tickets], by simp⟩
      | resumeProducer other =>
          cases via
          refine ⟨?_, patient rfl fresh⟩
          apply owned.resolve_left (by simp [fresh])
          -- Without a scheduler the observer would have started the body itself.
          intro none
          cases moves with
          | call user performed => cases user
          | produced idle => simp [fresh, Coroutine.resumable, Coroutine.done] at idle
          | produce resumable dispatches =>
              rw [none] at dispatches
              cases dispatches with
              | inline resumes =>
                  cases resumes with
                  | start suspended => simp [Shared.setCoroutine] at after
                  | wake suspended => simp [fresh] at suspended
                  | misuse broken => simp [fresh] at broken
      | _ => cases via

end Guarded

/-- A task that is not observed while it is gated is started by the job of
`schedule_state`, or with all dependencies completed. -/
theorem observed_after_dependencies
    (reach : (runtime T E).Reaches (Pool.admits (Patient task)) (initial coroutines workers clients frames) pool)
    (label : Nat × Choice T E) (after : Pool (Shared T E) Op) (admitted : pool.admits (Patient task) label)
    (taken : (runtime T E).step pool label = some after)
    (fresh : (pool.shared.tasks task).coroutine = .initial)
    (started : (after.shared.tasks task).coroutine ≠ .initial)
    (observed : pool.next label.1 ≠ some (.runJob (.resumeState task))) : pool.shared.Ungated task := by
  obtain ⟨op, pushed, rest, moving, executed, opsBefore, opsAfter⟩ := Pool.step_cases taken
  have patient := admitted op moving
  -- A task that has not begun is nobody's continuation, so only a queue or `get` can start it.
  have detached : ¬Attached task pool.shared pool.ops := fun attached => (begun_reached reach task attached).1 fresh
  have member : op ∈ pool.ops := by
    rw [opsBefore]
    exact Multiset.mem_cons_self _ _
  have noBody : op ≠ .body task := by
    rintro rfl
    exact detached (.inl ⟨_, member, .body, by simp [Op.tickets], by simp⟩)
  cases (execute_moves executed).advances task with
  | stay coroutine life => exact absurd (coroutine.trans fresh) started
  | wake suspended _ _ => simp [fresh] at suspended
  | suspend awaited body _ _ _ _ => exact absurd body noBody
  | finish outcome body _ _ _ => exact absurd body noBody
  | start via _ _ _ =>
      rcases via with ⟨job, rfl, rfl | rfl⟩ | via
      · exact absurd moving observed
      · obtain ⟨scheduler, dequeued⟩ := taken_of_runJob reach _ member
        have accepted := (fifo reach).dequeued_subset (mem_dequeued.mpr dequeued)
        exact (ungated_of_observed reach ⟨scheduler, mem_enqueued.mp accepted⟩ fresh).2
      · cases op with
        | resumeEach awaited handles =>
            apply absurd _ detached
            have within : task ∈ handles := List.mem_of_mem_head? via
            exact .inl ⟨_, member, _, mem_tickets_resumeEach.mpr ⟨within, rfl⟩, by simp⟩
        | addContinuation awaited other =>
            cases via
            exact absurd (.inl ⟨_, member, .wait awaited, by simp [Op.tickets], by simp⟩) detached
        | resumeProducer other =>
            cases via
            -- The lazy start in `get` bypasses the gate; this is the step that `Patient` rules out.
            exact patient rfl fresh
        | _ => cases via

end Runs

/-- Task 0 waits for task 1. The client gets task 0 when task 1 is completed but has not
released it yet, and the worker is about to run the job that `get` has queued. -/
def observedReady : Pool (Shared Unit Unit) Op :=
  (runtime Unit Unit).after (Pool.admits (Patient 0)) small
    ((1, .call (.schedule 0 (some 1) [])) :: proceed 1 3 ++ (1, .call (.schedule 0 (some 0) [some 1])) ::
      proceed 1 4 ++ proceed 0 3 ++ (0, .finish (.ok ())) :: proceed 0 1 ++ (1, .call (.get 0)) :: proceed 1 2 ++
      proceed 0 9) (by decide)

theorem observed_after_dependencies_ready :
    observedReady.next 0 = some (.runJob (.resumeHandle 0)) ∧ observedReady.shared.Ungated 0 :=
  ⟨by decide, observed_after_dependencies (System.reaches_after _) (0, .proceed)
    (((runtime Unit Unit).step observedReady (0, .proceed)).get (by decide)) (by decide)
    (Option.some_get _).symm (by decide) (by decide) (by decide)⟩

/-- The client schedules task 0 after task 1, which is never run, and gets task 0. -/
theorem observed_before_dependencies :
    ((runtime Unit Unit).run (fun _ _ => True) small
        ((1, .call (.schedule 0 (some 0) [some 1])) :: proceed 1 4 ++ (1, .call (.get 0)) :: proceed 1 2 ++
          proceed 0 3)).map
        (fun pool => (pool.shared.schedules 0, (pool.shared.tasks 1).completed, pool.shared.life 0,
          pool.next 0)) =
      some ([[some 1]], false, [.started], some (.body 0)) := by
  decide

end SoulLib.Async
