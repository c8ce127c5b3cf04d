import SoulLib.Async.Bodies

/-! What `stop` leaves behind.

A worker that finds the scheduler stopped at its loop guard leaves, whatever is
queued; one that has passed the guard still takes a job if there is one. So each
worker beyond the guard takes at most one more job, and takes one unless the
queue is empty.
-/

set_option autoImplicit false

namespace SoulLib.Async

open SoulLib.Semantics (Pool System)

section Workers

variable {T E : Type}

def Event.execute : Event T E → Option (SchedulerId × Job)
  | .executed scheduler job => some (scheduler, job)
  | _ => none

/-- The jobs that workers have run, in order. -/
def Shared.executed (shared : Shared T E) : List (SchedulerId × Job) := shared.log.filterMap Event.execute

theorem mem_executed {shared : Shared T E} {scheduler : SchedulerId} {job : Job} :
    (scheduler, job) ∈ shared.executed ↔ .executed scheduler job ∈ shared.log := by
  apply mem_listed
  intro other
  cases other <;> simp [Event.execute]

/-- A worker of the scheduler that is about to test the loop guard, to take a job, or to
return from one. -/
def Op.worker (scheduler : SchedulerId) : Op → Bool
  | .loopGuard other | .waitPop other | .finishJob other _ => other = scheduler
  | _ => false

@[simp] theorem Shared.dequeued_exitWorker (scheduler : SchedulerId) (shared : Shared T E) :
    (shared.exitWorker scheduler).dequeued = shared.dequeued := rfl

@[simp] theorem Shared.executed_exitWorker (scheduler : SchedulerId) (shared : Shared T E) :
    (shared.exitWorker scheduler).executed = shared.executed := rfl

@[simp] theorem worker_loopGuard (scheduler : SchedulerId) : (Op.loopGuard scheduler).worker scheduler = true := by
  simp [Op.worker]

@[simp] theorem worker_waitPop (scheduler : SchedulerId) : (Op.waitPop scheduler).worker scheduler = true := by
  simp [Op.worker]

@[simp] theorem worker_finishJob (scheduler : SchedulerId) (job : Job) :
    (Op.finishJob scheduler job).worker scheduler = true := by
  simp [Op.worker]

@[simp] theorem worker_runJob (scheduler : SchedulerId) (job : Job) : (Op.runJob job).worker scheduler = false := rfl

/-- The scheduler that a user choice calls `run` on. -/
def Choice.runs : Choice T E → Option SchedulerId
  | .call (.run scheduler) => some scheduler
  | _ => none

variable (scheduler : SchedulerId) (shared shared' : Shared T E)

/-- What a move does to the workers of one scheduler. -/
inductive Works (op : Op) (pushed : List Op) : Prop where
  | elsewhere (op : op.worker scheduler = false) (pushed : ∀ other ∈ pushed, other.worker scheduler = false)
      (workers : (shared'.schedulers scheduler).workers = (shared.schedulers scheduler).workers)
      (dequeued : jobsOf scheduler shared'.dequeued = jobsOf scheduler shared.dequeued)
      (executed : jobsOf scheduler shared'.executed = jobsOf scheduler shared.executed)
  | enter (op : op = .loopGuard scheduler) (pushed : pushed = [.waitPop scheduler])
      (running : (shared.schedulers scheduler).running = true) (same : shared' = shared)
  | leaveLoop (op : op = .loopGuard scheduler) (pushed : pushed = []) (after : shared' = shared.exitWorker scheduler)
  | leaveWait (op : op = .waitPop scheduler) (pushed : pushed = [])
      (empty : (shared.schedulers scheduler).jobs = []) (after : shared' = shared.exitWorker scheduler)
  | pop (job : Job) (op : op = .waitPop scheduler) (pushed : pushed = [.runJob job, .finishJob scheduler job])
      (workers : (shared'.schedulers scheduler).workers = (shared.schedulers scheduler).workers)
      (dequeued : jobsOf scheduler shared'.dequeued = jobsOf scheduler shared.dequeued ++ [job])
      (executed : jobsOf scheduler shared'.executed = jobsOf scheduler shared.executed)
  | finish (job : Job) (op : op = .finishJob scheduler job) (pushed : pushed = [.loopGuard scheduler])
      (workers : (shared'.schedulers scheduler).workers = (shared.schedulers scheduler).workers)
      (dequeued : jobsOf scheduler shared'.dequeued = jobsOf scheduler shared.dequeued)
      (executed : jobsOf scheduler shared'.executed = jobsOf scheduler shared.executed ++ [job])

variable {scheduler shared shared'} {op : Op} {choice : Choice T E} {pushed : List Op}

theorem worker_of_from {other : Op} (from_ : op.From other) (worker : other.worker scheduler = true) :
    op.worker scheduler = true := by
  cases other with
  | loopGuard other =>
      obtain ⟨job, rfl⟩ := from_
      exact worker
  | waitPop other =>
      obtain rfl : op = _ := from_
      exact worker
  | finishJob other job =>
      obtain rfl : op = _ := from_
      exact worker
  | _ => cases worker

variable [Inhabited T]

theorem Moves.jobsOf_filterMap {reading : Event T E → Option (SchedulerId × Job)}
    (moves : Moves shared op choice shared' pushed)
    (elsewhere : ∀ event : Event T E, event.Of op choice → ∀ job, reading event ≠ some (scheduler, job)) :
    jobsOf scheduler (shared'.log.filterMap reading) = jobsOf scheduler (shared.log.filterMap reading) := by
  simp only [jobsOf, List.filterMap_filterMap]
  apply moves.filterMap_log
  intro event of
  rw [Option.bind_eq_none_iff]
  rintro ⟨other, job⟩ read
  apply if_neg
  rintro rfl
  exact elsewhere event of job read

theorem Moves.works (moves : Moves shared op choice shared' pushed) (scheduler : SchedulerId) :
    Works scheduler shared shared' op pushed := by
  cases worker : op.worker scheduler with
  | false =>
      -- no operation of these workers is taken, so the two logs gain nothing for them
      have absent : ∀ {other : Op}, other.worker scheduler = true → op ≠ other := by
        rintro other here rfl
        rw [worker] at here
        cases here
      refine .elsewhere worker ?_ ?_ ?_ ?_
      · intro other member
        by_contra pushes
        exact absent (worker_of_from (moves.pushes other member) (by simpa using pushes)) rfl
      · generalize shared'.schedulers = schedulers, moves.serves = serves
        cases serves with
        | nothing => rfl
        | enqueue other job => exact Shared.field_modifyScheduler TaskScheduler.workers scheduler fun _ => rfl
        | pop front => exact Shared.field_modifyScheduler TaskScheduler.workers scheduler fun _ => rfl
        | stop => exact Shared.field_modifyScheduler TaskScheduler.workers scheduler fun _ => rfl
        | run user => exact Shared.field_modifyScheduler TaskScheduler.workers scheduler fun _ => rfl
        -- the scheduler that a worker leaves is another one
        | leave from_ =>
            apply Shared.field_modifyScheduler TaskScheduler.workers scheduler
            rintro rfl
            rcases from_ with same | same
            · exact absurd same (absent (by simp))
            · exact absurd same (absent (by simp))
      · apply moves.jobsOf_filterMap
        intro event of job read
        cases event <;> cases read
        exact absent (by simp) of
      · apply moves.jobsOf_filterMap
        intro event of job read
        cases event <;> cases read
        exact absent (by simp) of
  | true =>
      cases op with
      | loopGuard other =>
          obtain rfl : other = scheduler := by simpa [Op.worker] using worker
          cases moves with
          | call user performed => cases user
          | enter running => exact .enter rfl rfl running rfl
          | leaveLoop stopped => exact .leaveLoop rfl rfl rfl
      | waitPop other =>
          obtain rfl : other = scheduler := by simpa [Op.worker] using worker
          cases moves with
          | call user performed => cases user
          | leaveWait stopped empty => exact .leaveWait rfl rfl empty rfl
          -- taking the last job and leaving an empty queue differ only in what is popped
          | @pop _ _ job rest front =>
              refine .pop job rfl rfl ?_ ?_ ?_
              · simp [Shared.schedulers_modifyScheduler]
              · simp [Shared.dequeued, Event.dequeue, jobsOf_singleton]
              · simp [Shared.executed, Event.execute, jobsOf]
      | finishJob other job =>
          obtain rfl : other = scheduler := by simpa [Op.worker] using worker
          cases moves with
          | call user performed => cases user
          | finishJob =>
              refine .finish job rfl rfl rfl ?_ ?_
              · simp [Shared.dequeued, Event.dequeue, jobsOf]
              · simp [Shared.executed, Event.execute, jobsOf_singleton]
      | _ => cases worker

end Workers

section Accounting

variable {T E : Type} {scheduler : SchedulerId} {shared shared' : Shared T E} {op : Op}
  {pushed : List Op} {rest : Multiset Op}

/-- The workers that have not left are those with a pending operation, and a job that was
taken has been run or is in a worker's hands. -/
structure Staffed (scheduler : SchedulerId) (shared : Shared T E) (ops : Multiset Op) : Prop where
  workers : (shared.schedulers scheduler).workers = ops.countP fun op => op.worker scheduler = true
  taken : ∀ job, (jobsOf scheduler shared.dequeued).count job =
    (jobsOf scheduler shared.executed).count job + ops.count (.finishJob scheduler job)

theorem count_worker {ops : List Op} (elsewhere : ∀ op ∈ ops, op.worker scheduler = false) {other : Op}
    (worker : other.worker scheduler = true) : ops.count other = 0 := by
  rw [List.count_eq_zero]
  intro member
  rw [elsewhere other member] at worker
  cases worker

theorem count_finishJob_cons (job other : Job) (ops : Multiset Op) :
    (Op.finishJob scheduler job ::ₘ ops).count (.finishJob scheduler other) =
      ops.count (.finishJob scheduler other) + [job].count other := by
  rw [Multiset.count_cons, List.count_singleton]
  by_cases same : job = other
  · simp [same]
  · simp [same, Ne.symm same]

theorem Staffed.works (staffed : Staffed scheduler shared (op ::ₘ rest))
    (works : Works scheduler shared shared' op pushed) : Staffed scheduler shared' (pushed + rest) := by
  obtain ⟨staff, taken⟩ := staffed
  cases works with
  | elsewhere unrelated others workers dequeued executed =>
      constructor
      -- Workers start with their scheduler; the head count moves only when one of them leaves.
      · have none : pushed.countP (fun op => op.worker scheduler = true) = 0 := by
          rw [List.countP_eq_zero]
          intro other member
          simp [others other member]
        rw [Multiset.countP_cons_of_neg _ (by simp [unrelated])] at staff
        rw [workers, staff, Multiset.countP_add, Multiset.coe_countP, none, Nat.zero_add]
      · intro job
        have none : pushed.count (.finishJob scheduler job) = 0 := count_worker others (by simp)
        have before := taken job
        rw [Multiset.count_cons_of_ne (by rintro rfl; simp [Op.worker] at unrelated)] at before
        rw [dequeued, executed, before, Multiset.count_add, Multiset.coe_count, none, Nat.zero_add]
  | enter same added running unchanged =>
      subst same added unchanged
      constructor
      · simpa using staff
      · intro job
        simpa using taken job
  | leaveLoop same added after =>
      subst same added after
      constructor
      · simp at staff
        simp [Shared.exitWorker, Shared.schedulers_modifyScheduler, staff]
      · intro job
        simpa using taken job
  | leaveWait same added empty after =>
      subst same added after
      constructor
      · simp at staff
        simp [Shared.exitWorker, Shared.schedulers_modifyScheduler, staff]
      · intro job
        simpa using taken job
  -- A popped job counts as dequeued at once and as executed only after its `finishJob`.
  | pop job same added workers dequeued executed =>
      subst same added
      constructor
      · rw [workers, staff]
        simp [Nat.add_comm]
      · intro other
        have before := taken other
        rw [Multiset.count_cons_of_ne (by simp)] at before
        rw [dequeued, executed, List.count_append, before, ← Multiset.cons_coe, Multiset.cons_add,
          Multiset.count_cons_of_ne (by simp), ← Multiset.cons_coe, Multiset.cons_add, count_finishJob_cons,
          Multiset.coe_nil, Multiset.zero_add, Nat.add_assoc]
  | finish job same added workers dequeued executed =>
      subst same added
      constructor
      · rw [workers, staff]
        simp [Nat.add_comm]
      · intro other
        have before := taken other
        rw [count_finishJob_cons] at before
        rw [dequeued, executed, List.count_append, before, ← Multiset.cons_coe, Multiset.cons_add,
          Multiset.count_cons_of_ne (by simp), Multiset.coe_nil, Multiset.zero_add, Nat.add_right_comm, Nat.add_assoc]

theorem Works.taken_le {accepted : Nat} (works : Works scheduler shared shared' op pushed)
    (fifo : Fifo shared) (some : accepted ≤ (jobsOf scheduler shared.enqueued).length) :
    (jobsOf scheduler shared.dequeued).length + (op ::ₘ rest).count (.waitPop scheduler) ≤
        (jobsOf scheduler shared'.dequeued).length + ((pushed : Multiset Op) + rest).count (.waitPop scheduler) ∨
      accepted ≤ (jobsOf scheduler shared'.dequeued).length := by
  cases works with
  | elsewhere unrelated others workers dequeued executed =>
      have none : pushed.count (.waitPop scheduler) = 0 := count_worker others (by simp)
      left
      rw [dequeued, Multiset.count_cons_of_ne (by rintro rfl; simp at unrelated), Multiset.count_add,
        Multiset.coe_count, none, Nat.zero_add]
  | enter same added running unchanged =>
      subst same added unchanged
      left
      simp
  | leaveLoop same added after =>
      subst same added after
      left
      simp
  | leaveWait same added empty after =>
      subst after
      right
      rw [fifo scheduler, empty, List.append_nil] at some
      exact some
  | pop job same added workers dequeued executed =>
      subst same added
      left
      simp [dequeued]
      omega
  | finish job same added workers dequeued executed =>
      subst same added
      left
      simp [dequeued]

theorem Works.le_taken (works : Works scheduler shared shared' op pushed)
    (stopped : (shared.schedulers scheduler).running = false) :
    (jobsOf scheduler shared'.dequeued).length + ((pushed : Multiset Op) + rest).count (.waitPop scheduler) ≤
      (jobsOf scheduler shared.dequeued).length + (op ::ₘ rest).count (.waitPop scheduler) := by
  cases works with
  | elsewhere unrelated others workers dequeued executed =>
      have none : pushed.count (.waitPop scheduler) = 0 := count_worker others (by simp)
      rw [dequeued, Multiset.count_cons_of_ne (by rintro rfl; simp at unrelated), Multiset.count_add,
        Multiset.coe_count, none, Nat.zero_add]
  | enter same added running unchanged =>
      rw [stopped] at running
      cases running
  | leaveLoop same added after =>
      subst same added after
      simp
  | leaveWait same added empty after =>
      subst same added after
      simp
  | pop job same added workers dequeued executed =>
      subst same added
      simp [dequeued]
      omega
  | finish job same added workers dequeued executed =>
      subst same added
      simp [dequeued]

end Accounting

section Jobs

variable {T E : Type}

/-- What a job that was run has achieved: a callable has completed its task, and a
coroutine has left its initial suspend point. -/
def Shared.Ran (shared : Shared T E) : Job → Prop
  | .callable task => (shared.tasks task).completed = true
  | .resumeState task | .resumeHandle task => (shared.tasks task).coroutine ≠ .initial

/-- The operation belongs to the run of the job. -/
def Op.Runs (op : Op) (job : Job) : Prop :=
  op = .runJob job ∨ ∃ task, job = .callable task ∧ (op = .callable task ∨ op = .onCompleted task)

/-- A worker returns from a job only when the job was run. -/
def Returns (shared : Shared T E) (stack : List Op) : Prop :=
  ∀ above below scheduler job, stack = above ++ .finishJob scheduler job :: below →
    shared.Ran job ∨ ∃ op ∈ above, op.Runs job

variable [Inhabited T] {shared shared' : Shared T E} {op : Op} {choice : Choice T E} {pushed rest : List Op}
  {job : Job}

theorem Shared.Ran.moves (ran : shared.Ran job) (moves : Moves shared op choice shared' pushed) :
    shared'.Ran job := by
  cases job with
  | callable task => exact moves.completed_iff.mpr (.inl ran)
  | resumeState task => exact (moves.advances task).left.1 ran
  | resumeHandle task => exact (moves.advances task).left.1 ran

theorem Op.Runs.moves (runs : op.Runs job) (moves : Moves shared op choice shared' pushed) :
    shared'.Ran job ∨ ∃ other ∈ pushed, other.Runs job := by
  rcases runs with rfl | ⟨task, rfl, rfl | rfl⟩
  · cases job with
    | resumeState task => exact .inl (moves.left_of_runJob (.inl rfl))
    | resumeHandle task => exact .inl (moves.left_of_runJob (.inr rfl))
    | callable task =>
        cases moves with
        | call user performed => cases user
        | runHandle of resumable resumes => rcases of with same | same <;> cases same
        | skipHandle of idle => rcases of with same | same <;> cases same
        | runCallable => exact .inr ⟨_, List.mem_singleton_self _, .inr ⟨task, rfl, .inl rfl⟩⟩
  · cases moves with
    | call user performed =>
        exact .inr ⟨_, List.mem_append_right _ (List.mem_singleton_self _), .inr ⟨task, rfl, .inl rfl⟩⟩
    | returned => exact .inr ⟨_, List.mem_singleton_self _, .inr ⟨task, rfl, .inr rfl⟩⟩
  · exact .inl (moves.completed_iff.mpr (.inr rfl))

theorem Returns.moves (returns : Returns shared (op :: rest)) (moves : Moves shared op choice shared' pushed) :
    Returns shared' (pushed ++ rest) := by
  intro above below scheduler job split
  rcases List.append_eq_append_iff.mp split with ⟨middle, front, back⟩ | ⟨middle, front, back⟩
  · -- The return was pending before, below what the operation has pushed.
    rcases returns (op :: middle) below scheduler job (by rw [back]; rfl) with ran | ⟨other, member, runs⟩
    · exact .inl (ran.moves moves)
    · rw [front]
      rcases List.mem_cons.mp member with rfl | within
      · exact (runs.moves moves).imp_right fun ⟨next, new, runs⟩ => ⟨next, List.mem_append_left _ new, runs⟩
      · exact .inr ⟨other, List.mem_append_right _ within, runs⟩
  · cases middle with
    | nil =>
        rw [List.append_nil] at front
        rcases returns [op] below scheduler job (by rw [back]; rfl) with ran | ⟨other, member, runs⟩
        · exact .inl (ran.moves moves)
        · rw [List.mem_singleton.mp member] at runs
          rw [← front]
          exact runs.moves moves
    | cons first middle =>
        obtain ⟨same, -⟩ := List.cons.inj back
        subst same
        -- Only a worker that takes a job pushes its return.
        have pushes : .finishJob scheduler job ∈ pushed := by
          rw [front]
          exact List.mem_append_right _ List.mem_cons_self
        obtain rfl : op = .waitPop scheduler := moves.pushes _ pushes
        cases moves with
        | call user performed => cases user
        | leaveWait stopped empty => simp at front
        | @pop _ _ taken _ _ =>
            have within : Op.runJob taken ∈ above ∧ taken = job := by
              cases above with
              | nil => simp at front
              | cons one above =>
                  cases above with
                  | nil =>
                      obtain ⟨rfl, rfl, -⟩ : Op.runJob taken = one ∧ taken = job ∧ middle = [] := by simpa using front
                      simp
                  | cons two above => simp at front
            exact .inr ⟨_, within.1, .inl (by rw [within.2])⟩

end Jobs

section Runs

variable {T E : Type} [Inhabited T] {coroutines : TaskId → Bool} {workers : List SchedulerId} {clients : Nat}
  {frames : FrameId → SchedulerId} {pool : Pool (Shared T E) Op} {scheduler : SchedulerId}
  {guard : Shared T E → Multiset Op → Op → Choice T E → Prop}

theorem countP_threads (scheduler : SchedulerId) (workers : List SchedulerId) (clients : Nat) :
    (threads workers clients).flatten.countP (fun op => op.worker scheduler = true) = workers.count scheduler := by
  have idle : (List.replicate clients [Op.user]).flatten.countP (fun op => op.worker scheduler = true) = 0 := by
    rw [List.countP_eq_zero]
    intro op member
    obtain ⟨stack, replica, within⟩ := List.mem_flatten.mp member
    rw [List.eq_of_mem_replicate replica, List.mem_singleton] at within
    simp [within, Op.worker]
  rw [threads, List.flatten_append, List.countP_append, idle, Nat.add_zero]
  induction workers with
  | nil => rfl
  | cons other workers ih =>
      rw [List.map_cons, List.flatten_cons, List.singleton_append, List.countP_cons, List.count_cons, ih]
      simp [Op.worker]

theorem staffed (reach : (runtime T E).Reaches (Pool.admits guard) (initial coroutines workers clients frames) pool)
    (scheduler : SchedulerId) : Staffed scheduler pool.shared pool.ops := by
  apply Pool.invariant (Staffed scheduler) _ _ reach
  · constructor
    · rw [Pool.ops, Multiset.coe_countP]
      exact (countP_threads scheduler workers clients).symm
    · intro job
      have none : .finishJob scheduler job ∉ (initial (T := T) (E := E) coroutines workers clients frames).ops := by
        intro member
        rcases mem_initial member with same | ⟨other, same⟩ <;> cases same
      rw [Multiset.count_eq_zero.mpr none]
      rfl
  · intro shared shared' op pushed rest choice before _ executed
    exact before.works ((execute_moves executed).works scheduler)

theorem log_grows {start : Pool (Shared T E) Op} (reach : (runtime T E).Reaches (Pool.admits guard) start pool) :
    start.shared.log <+: pool.shared.log := by
  apply Pool.invariant (fun shared _ => start.shared.log <+: shared.log) _ _ reach
  · exact List.prefix_rfl
  · intro shared shared' op pushed rest choice before _ executed
    obtain ⟨events, log, -⟩ := (execute_moves executed).logs
    rw [log]
    exact before.trans (List.prefix_append _ _)

theorem accepted_grows {start : Pool (Shared T E) Op} (reach : (runtime T E).Reaches (Pool.admits guard) start pool)
    (scheduler : SchedulerId) : jobsOf scheduler start.shared.enqueued <+: jobsOf scheduler pool.shared.enqueued :=
  ((log_grows reach).filterMap _).filterMap _

theorem ran_of_executed
    (reach : (runtime T E).Reaches (Pool.admits guard) (initial coroutines workers clients frames) pool) {job : Job}
    (executed : .executed scheduler job ∈ pool.shared.log) : pool.shared.Ran job := by
  have all : ∀ scheduler job, .executed scheduler job ∈ pool.shared.log → pool.shared.Ran job := by
    refine (Pool.invariant_stacks (fun shared => ∀ scheduler job, .executed scheduler job ∈ shared.log →
      shared.Ran job) Returns ?_ ?_ ?_ reach).1
    · intro scheduler job logged
      cases logged
    · intro stack member above below scheduler job split
      have pending : .finishJob scheduler job ∈ (initial (T := T) (E := E) coroutines workers clients frames).ops := by
        apply Multiset.mem_coe.mpr
        apply List.mem_flatten.mpr
        refine ⟨stack, member, ?_⟩
        rw [split]
        exact List.mem_append_right _ List.mem_cons_self
      rcases mem_initial pending with same | ⟨other, same⟩ <;> cases same
    · intro shared shared' op pushed rest choice known returns executed
      have moves := execute_moves executed
      refine ⟨?_, returns.moves moves, ?_⟩
      · intro scheduler job logged
        rcases moves.mem_log logged with old | new
        · exact (known scheduler job old).moves moves
        · obtain rfl : op = .finishJob scheduler job := new
          rcases returns [] rest scheduler job rfl with ran | ⟨other, member, _⟩
          · exact ran.moves moves
          · cases member
      · intro stack returns above below scheduler job split
        exact (returns above below scheduler job split).imp_left fun ran => ran.moves moves
  exact all scheduler job executed

theorem count_executed
    (reach : (runtime T E).Reaches (Pool.admits guard) (initial coroutines workers clients frames) pool)
    (gone : (pool.shared.schedulers scheduler).workers = 0) (job : Job) :
    (jobsOf scheduler pool.shared.executed).count job = (jobsOf scheduler pool.shared.dequeued).count job ∧
      pool.ops.count (.waitPop scheduler) = 0 := by
  obtain ⟨staff, taken⟩ := staffed reach scheduler
  rw [gone, eq_comm, Multiset.countP_eq_zero] at staff
  have absent : ∀ {op : Op}, op.worker scheduler = true → pool.ops.count op = 0 :=
    fun worker => Multiset.count_eq_zero.mpr fun member => staff _ member worker
  constructor
  · rw [taken job, absent (worker_finishJob scheduler job), Nat.add_zero]
  · exact absent (worker_waitPop scheduler)

variable {called before stopped joining after : Pool (Shared T E) Op}

/-- What workers have taken when they have all left. A worker beyond the loop guard when the
count begins takes a job unless the queue is empty. -/
theorem taken_reached {accepted : Nat}
    (reach : (runtime T E).Reaches (Pool.admits guard) (initial coroutines workers clients frames) before)
    (some : accepted ≤ (jobsOf scheduler before.shared.enqueued).length)
    (run : (runtime T E).Reaches (Pool.admits guard) before pool) :
    (jobsOf scheduler before.shared.dequeued).length + before.ops.count (.waitPop scheduler) ≤
        (jobsOf scheduler pool.shared.dequeued).length + pool.ops.count (.waitPop scheduler) ∨
      accepted ≤ (jobsOf scheduler pool.shared.dequeued).length := by
  apply Pool.invariant_of
    (fun shared _ => Fifo shared ∧ accepted ≤ (jobsOf scheduler shared.enqueued).length)
    (fun shared ops => (jobsOf scheduler before.shared.dequeued).length + before.ops.count (.waitPop scheduler) ≤
        (jobsOf scheduler shared.dequeued).length + ops.count (.waitPop scheduler) ∨
      accepted ≤ (jobsOf scheduler shared.dequeued).length) _ _ _ run
  · intro reached earlier
    exact ⟨fifo (reach.trans earlier), some.trans (accepted_grows earlier scheduler).length_le⟩
  · exact .inl le_rfl
  · rintro shared shared' op pushed rest choice ⟨fifo, some⟩ - earlier - executed
    have moves := execute_moves executed
    rcases (moves.works scheduler).taken_le fifo some with waiting | drained
    · rcases earlier with bound | drained
      · exact .inl (bound.trans waiting)
      · right
        obtain ⟨events, log, -⟩ := moves.logs
        apply drained.trans
        rw [Shared.dequeued, Shared.dequeued, log, List.filterMap_append, jobsOf_append, List.length_append]
        exact Nat.le_add_right _ _
    · exact .inr drained

/-- `run` is not called on the scheduler. -/
def Stays (scheduler : SchedulerId) (_ : Shared T E) (_ : Multiset Op) (op : Op) (choice : Choice T E) : Prop :=
  op.isUser = true → choice.runs ≠ some scheduler

/-- Any step. -/
def Any (_ : Shared T E) (_ : Multiset Op) (_ : Op) (_ : Choice T E) : Prop := True

instance (scheduler : SchedulerId) (shared : Shared T E) (ops : Multiset Op) (op : Op) (choice : Choice T E) :
    Decidable (Stays scheduler shared ops op choice) :=
  inferInstanceAs (Decidable (op.isUser = true → choice.runs ≠ some scheduler))

instance (shared : Shared T E) (ops : Multiset Op) (op : Op) (choice : Choice T E) :
    Decidable (Any shared ops op choice) :=
  inferInstanceAs (Decidable True)

theorem Moves.stays {shared shared' : Shared T E} {ops : Multiset Op} {op : Op} {choice : Choice T E}
    {pushed : List Op} (moves : Moves shared op choice shared' pushed) (stays : Stays scheduler shared ops op choice)
    (stopped : (shared.schedulers scheduler).running = false) : (shared'.schedulers scheduler).running = false := by
  generalize shared'.schedulers = schedulers, moves.serves = serves
  cases serves with
  | nothing => exact stopped
  | enqueue other job =>
      exact (Shared.field_modifyScheduler TaskScheduler.running scheduler fun _ => rfl).trans stopped
  | pop front => exact (Shared.field_modifyScheduler TaskScheduler.running scheduler fun _ => rfl).trans stopped
  | leave from_ => exact (Shared.field_modifyScheduler TaskScheduler.running scheduler fun _ => rfl).trans stopped
  | stop =>
      rw [Shared.schedulers_modifyScheduler]
      split
      · rfl
      · exact stopped
  | run user =>
      refine (Shared.field_modifyScheduler TaskScheduler.running scheduler ?_).trans stopped
      rintro rfl
      exact absurd rfl (stays user)

theorem le_taken_reached (flag : (stopped.shared.schedulers scheduler).running = false)
    (run : (runtime T E).Reaches (Pool.admits (Stays scheduler)) stopped pool) :
    (jobsOf scheduler pool.shared.dequeued).length + pool.ops.count (.waitPop scheduler) ≤
      (jobsOf scheduler stopped.shared.dequeued).length + stopped.ops.count (.waitPop scheduler) := by
  have both : (pool.shared.schedulers scheduler).running = false ∧
      (jobsOf scheduler pool.shared.dequeued).length + pool.ops.count (.waitPop scheduler) ≤
        (jobsOf scheduler stopped.shared.dequeued).length + stopped.ops.count (.waitPop scheduler) := by
    apply Pool.invariant (fun shared ops => (shared.schedulers scheduler).running = false ∧
      (jobsOf scheduler shared.dequeued).length + ops.count (.waitPop scheduler) ≤
        (jobsOf scheduler stopped.shared.dequeued).length + stopped.ops.count (.waitPop scheduler)) _ _ run
    · exact ⟨flag, le_rfl⟩
    · rintro shared shared' op pushed rest choice ⟨flag, bound⟩ stays executed
      have moves := execute_moves executed
      exact ⟨moves.stays stays flag, ((moves.works scheduler).le_taken flag).trans bound⟩
  exact both.2

theorem step_stop {label : Nat × Choice T E} (next : before.next label.1 = some (.stop scheduler))
    (cleared : (runtime T E).step before label = some stopped) :
    (stopped.shared.schedulers scheduler).running = false ∧
      jobsOf scheduler stopped.shared.dequeued = jobsOf scheduler before.shared.dequeued ∧
      stopped.ops.count (.waitPop scheduler) = before.ops.count (.waitPop scheduler) := by
  obtain ⟨op, pushed, rest, moving, executed, opsBefore, opsAfter⟩ := Pool.step_cases cleared
  obtain rfl : op = .stop scheduler := Option.some.inj (moving.symm.trans next)
  have moves := execute_moves executed
  rw [opsBefore, opsAfter]
  generalize stopped.shared = shared, label.2 = choice at moves
  cases moves with
  | call user performed => cases user
  | stop => exact ⟨by simp [Shared.schedulers_modifyScheduler], rfl, by simp⟩

theorem step_joinWorkers {label : Nat × Choice T E} (next : joining.next label.1 = some (.joinWorkers scheduler))
    (returned : (runtime T E).step joining label = some after) :
    after.shared = joining.shared ∧ (joining.shared.schedulers scheduler).workers = 0 := by
  obtain ⟨op, pushed, rest, moving, executed, opsBefore, opsAfter⟩ := Pool.step_cases returned
  obtain rfl : op = .joinWorkers scheduler := Option.some.inj (moving.symm.trans next)
  have moves := execute_moves executed
  generalize after.shared = shared, label.2 = choice at moves
  cases moves with
  | call user performed => cases user
  | joined gone => exact ⟨rfl, gone⟩

/-- Every job that the scheduler had accepted has been executed. -/
def Drained (scheduler : SchedulerId) (called after : Shared T E) : Prop :=
  ∀ job, (jobsOf scheduler called.enqueued).count job ≤ (jobsOf scheduler after.executed).count job

/-- The scheduler has accepted the task: its callable by `run_async`, or its state by `schedule`
once nothing was pending. -/
def Accepted (scheduler : SchedulerId) (shared : Shared T E) (task : TaskId) : Prop :=
  .callable task ∈ jobsOf scheduler shared.enqueued ∨ .resumeState task ∈ jobsOf scheduler shared.enqueued

/-- Every task that the scheduler had accepted is completed. -/
def Finished (scheduler : SchedulerId) (called after : Shared T E) : Prop :=
  ∀ task, Accepted scheduler called task → (after.tasks task).completed = true

/-- The coroutine is not suspended in a `co_await`, and no thread has its body or its completion
in hand. A task without a coroutine is up to the scheduler that runs its callable. -/
def Unheld (scheduler : SchedulerId) (called : Shared T E) (after : Pool (Shared T E) Op) (task : TaskId) : Prop :=
  match (after.shared.tasks task).coroutine with
  | .running | .awaiting _ => False
  | .initial | .final => .onCompleted task ∉ after.ops
  | .null => .callable task ∈ jobsOf scheduler called.enqueued ∨ (after.shared.tasks task).completed = true

theorem unheld_of_completed {task : TaskId} {called : Shared T E}
    (reach : (runtime T E).Reaches (Pool.admits guard) (initial coroutines workers clients frames) pool)
    (completed : (pool.shared.tasks task).completed = true) : Unheld scheduler called pool task := by
  cases coroutine : coroutines task with
  | false =>
      unfold Unheld
      rw [null_of_callable reach coroutine]
      exact .inr completed
  | true =>
      -- A completed coroutine has returned, and its one completion is spent.
      have count := count_onCompleted reach coroutine
      rw [if_pos completed] at count
      have final : (pool.shared.tasks task).coroutine = .final := by
        by_contra unfinished
        rw [if_neg unfinished] at count
        omega
      rw [if_pos final] at count
      unfold Unheld
      rw [final]
      exact Multiset.count_eq_zero.mp (by omega)

theorem completed_of_unheld {task : TaskId} {called : Shared T E}
    (reach : (runtime T E).Reaches (Pool.admits guard) (initial coroutines workers clients frames) pool)
    (ran : ∀ job ∈ jobsOf scheduler called.enqueued, pool.shared.Ran job) (accepted : Accepted scheduler called task)
    (unheld : Unheld scheduler called pool task) : (pool.shared.tasks task).completed = true := by
  rcases accepted with callable | state
  · exact ran _ callable
  · have started : (pool.shared.tasks task).coroutine ≠ .initial := ran _ state
    have final : (pool.shared.tasks task).coroutine = .final →
        .onCompleted task ∈ pool.ops ∨ (pool.shared.tasks task).completed = true := completed_of_final reach
    unfold Unheld at unheld
    cases here : (pool.shared.tasks task).coroutine with
    | null =>
        rw [here] at unheld
        exact unheld.elim (ran _) id
    | initial => exact absurd here started
    | running =>
        rw [here] at unheld
        exact unheld.elim
    | awaiting awaited =>
        rw [here] at unheld
        exact unheld.elim
    | final =>
        rw [here] at unheld
        exact (final here).resolve_left unheld

/-- Of the jobs accepted before the call, no more are queued when the flag is cleared than
there are workers beyond the loop guard that have not taken a job. -/
def Enough (scheduler : SchedulerId) (called before : Pool (Shared T E) Op) : Prop :=
  (jobsOf scheduler called.shared.enqueued).length ≤
    (jobsOf scheduler before.shared.dequeued).length + before.ops.count (.waitPop scheduler)

/-- `stop`, called in `called` or later, clears the flag between `before` and `stopped` and
returns between `joining` and `after`. -/
theorem stop_drains_iff {thread : Nat} {choice choice' : Choice T E}
    (reach : (runtime T E).Reaches (Pool.admits Any) (initial coroutines workers clients frames) called)
    (entered : (runtime T E).Reaches (Pool.admits Any) called before)
    (next : before.next thread = some (.stop scheduler))
    (cleared : (runtime T E).step before (thread, choice) = some stopped)
    (served : (runtime T E).Reaches (Pool.admits Any) stopped joining)
    (joins : joining.next thread = some (.joinWorkers scheduler))
    (returned : (runtime T E).step joining (thread, choice') = some after) :
    (Enough scheduler called before → Drained scheduler called.shared after.shared ∧
        ∀ task, Accepted scheduler called.shared task →
          ((after.shared.tasks task).completed = true ↔ Unheld scheduler called.shared after task)) ∧
      ((runtime T E).Reaches (Pool.admits (Stays scheduler)) stopped joining →
        (Drained scheduler called.shared after.shared ∧ Finished scheduler called.shared after.shared ↔
          Enough scheduler called before ∧
            ∀ task, Accepted scheduler called.shared task → Unheld scheduler called.shared after task)) := by
  have any : ∀ (state : Pool (Shared T E) Op) label, state.admits Any label := fun _ _ _ _ => trivial
  have stopping : (runtime T E).Reaches (Pool.admits Any) before joining :=
    (System.Reaches.next .start (any _ _) cleared).trans served
  have whole := (reach.trans entered).trans stopping
  have complete := whole.next (any _ _) returned
  obtain ⟨same, gone⟩ := step_joinWorkers joins returned
  obtain ⟨flag, dequeued, waiting⟩ := step_stop next cleared
  have executed := count_executed whole gone
  have idle : joining.ops.count (.waitPop scheduler) = 0 := (executed (.callable 0)).2
  have queue := fifo whole scheduler
  have grown : jobsOf scheduler called.shared.enqueued <+: jobsOf scheduler joining.shared.enqueued :=
    accepted_grows (entered.trans stopping) scheduler
  have enough : Enough scheduler called before → Drained scheduler called.shared after.shared ∧
      ∀ task, Accepted scheduler called.shared task →
        ((after.shared.tasks task).completed = true ↔ Unheld scheduler called.shared after task) := by
    intro enough
    -- The accepted jobs and the taken jobs are prefixes of one list, and the taken are as many.
    have many : (jobsOf scheduler called.shared.enqueued).length ≤
        (jobsOf scheduler joining.shared.dequeued).length := by
      rcases taken_reached (reach.trans entered) (accepted_grows entered scheduler).length_le stopping with
        bound | drained
      · unfold Enough at enough
        omega
      · exact drained
    have taken : jobsOf scheduler called.shared.enqueued <+: jobsOf scheduler joining.shared.dequeued := by
      apply List.prefix_of_prefix_length_le grown _ many
      rw [queue]
      exact List.prefix_append _ _
    have drained : Drained scheduler called.shared after.shared := by
      intro job
      rw [same, (executed job).1]
      exact taken.sublist.count_le job
    have ran : ∀ job ∈ jobsOf scheduler called.shared.enqueued, after.shared.Ran job := by
      intro job member
      have some := List.count_pos_iff.mp (Nat.lt_of_lt_of_le (List.count_pos_iff.mpr member) (drained job))
      exact ran_of_executed complete (mem_executed.mp (mem_jobsOf.mp some))
    refine ⟨drained, fun task accepted => ⟨unheld_of_completed complete, completed_of_unheld complete ran accepted⟩⟩
  refine ⟨enough, fun stays => ⟨?_, ?_⟩⟩
  · rintro ⟨drained, finished⟩
    have most := le_taken_reached flag stays
    have many : (jobsOf scheduler called.shared.enqueued).length ≤
        (jobsOf scheduler joining.shared.dequeued).length := by
      have within : (jobsOf scheduler called.shared.enqueued : Multiset Job) ≤
          jobsOf scheduler joining.shared.dequeued := by
        rw [Multiset.le_iff_count]
        intro job
        rw [Multiset.coe_count, Multiset.coe_count, ← (executed job).1, ← same]
        exact drained job
      simpa using Multiset.card_le_card within
    rw [dequeued, waiting] at most
    refine ⟨?_, fun task accepted => unheld_of_completed complete (finished task accepted)⟩
    unfold Enough
    omega
  · rintro ⟨some, unheld⟩
    obtain ⟨drained, completes⟩ := enough some
    exact ⟨drained, fun task accepted => (completes task accepted).mpr (unheld task accepted)⟩

end Runs

/-- The worker waits for a job when the client calls `run_async`. -/
def oneAccepted : Pool (Shared Unit Unit) Op :=
  (runtime Unit Unit).after (Pool.admits Any) small (proceed 0 1 ++ [(1, .call (.runAsync 0 10))]) (by decide)

/-- The client is about to clear the flag. -/
def oneStopping : Pool (Shared Unit Unit) Op :=
  (runtime Unit Unit).after (Pool.admits Any) oneAccepted [(1, .call (.stop 0))] (by decide)

def oneStopped : Pool (Shared Unit Unit) Op :=
  ((runtime Unit Unit).step oneStopping (1, .proceed)).get (by decide)

/-- The worker has run the job and left. -/
def oneServed : Pool (Shared Unit Unit) Op :=
  (runtime Unit Unit).after (Pool.admits Any) oneStopped (proceed 0 2 ++ (0, .finish (.ok ())) :: proceed 0 7)
    (by decide)

def oneJoined : Pool (Shared Unit Unit) Op :=
  ((runtime Unit Unit).step oneServed (1, .proceed)).get (by decide)

theorem stop_drains_one : Enough 0 oneAccepted oneStopping ∧ Drained 0 oneAccepted.shared oneJoined.shared ∧
    (oneJoined.shared.tasks 10).completed = true := by
  have enough : Enough 0 oneAccepted oneStopping := by
    unfold Enough
    decide
  have cleared : (runtime Unit Unit).step oneStopping (1, .proceed) = some oneStopped := (Option.some_get _).symm
  have returned : (runtime Unit Unit).step oneServed (1, .proceed) = some oneJoined := (Option.some_get _).symm
  have drains := (stop_drains_iff (System.reaches_after _) (System.reaches_after _)
    (by decide : oneStopping.next 1 = some (.stop 0)) cleared (System.reaches_after _)
    (by decide : oneServed.next 1 = some (.joinWorkers 0)) returned).1 enough
  have unheld : Unheld 0 oneAccepted.shared oneJoined 10 := .inl (by decide)
  exact ⟨enough, drains.1, (drains.2 10 (.inl (by decide))).mpr unheld⟩

/-- The worker is at its loop guard when the client has submitted two jobs and stops. It
leaves, `stop` returns, and a client that then waits for the first job is blocked. -/
theorem stop_strands :
    ((runtime Unit Unit).run (fun _ _ => True) small
        ([(1, .call (.runAsync 0 10)), (1, .call (.runAsync 0 11)), (1, .call (.stop 0))] ++ proceed 1 1 ++
          proceed 0 1 ++ proceed 1 1 ++ [(1, .call (.wait (some 10)))])).map
        (fun pool => (jobsOf 0 pool.shared.enqueued, jobsOf 0 pool.shared.executed, pool.next 0, pool.next 1,
          (pool.shared.tasks 10).completed)) =
      some ([.callable 10, .callable 11], [], none, some (.wait 10), false) := by
  decide

end SoulLib.Async
