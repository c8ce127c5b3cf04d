import SoulLib.Async.Shutdown

/-! In which order a scheduler runs the jobs it has accepted.

Workers take jobs in the order of acceptance and each of them runs one job at a time,
so a job that has been run was overtaken only by jobs that other workers have in their
hands. A scheduler with one worker runs its jobs in the order of acceptance.
-/

set_option autoImplicit false

namespace SoulLib.Async

open SoulLib.Semantics (Pool System)

section Hands

variable {T E : Type} {scheduler : SchedulerId} {shared shared' : Shared T E} {op : Op} {pushed : List Op}
  {ops rest : Multiset Op}

/-- The job that an operation of a worker returns from. -/
def Op.job? (scheduler : SchedulerId) : Op → Option Job
  | .finishJob other job => if other = scheduler then some job else none
  | _ => none

/-- The jobs that the workers of a scheduler have in their hands. -/
def inHand (scheduler : SchedulerId) (ops : Multiset Op) : Multiset Job := ops.filterMap (Op.job? scheduler)

theorem job?_eq_some {job : Job} : op.job? scheduler = some job ↔ op = .finishJob scheduler job := by
  cases op with
  | finishJob other held =>
      by_cases same : other = scheduler
      · simp [Op.job?, same]
      · simp [Op.job?, same]
  | _ => simp [Op.job?]

theorem count_inHand (scheduler : SchedulerId) (ops : Multiset Op) (job : Job) :
    (inHand scheduler ops).count job = ops.count (.finishJob scheduler job) := by
  induction ops using Multiset.induction_on with
  | empty => rfl
  | cons op ops ih =>
      cases held : op.job? scheduler with
      | none =>
          have differs : .finishJob scheduler job ≠ op := by
            rintro rfl
            simp [Op.job?] at held
          rw [inHand, Multiset.filterMap_cons_none op ops held, Multiset.count_cons_of_ne differs]
          exact ih
      | some mine =>
          obtain rfl := job?_eq_some.mp held
          rw [inHand, Multiset.filterMap_cons_some _ _ ops held, Multiset.count_cons, count_finishJob_cons,
            List.count_singleton]
          by_cases same : mine = job
          · simp [same, ← ih, inHand]
          · simp [same, Ne.symm same, ← ih, inHand]

theorem card_inHand_le (scheduler : SchedulerId) (ops : Multiset Op) :
    (inHand scheduler ops).card ≤ ops.countP fun op => op.worker scheduler = true := by
  induction ops using Multiset.induction_on with
  | empty => exact le_rfl
  | cons op ops ih =>
      cases held : op.job? scheduler with
      | none =>
          rw [inHand, Multiset.filterMap_cons_none op ops held]
          exact ih.trans (Multiset.countP_le_of_le _ (Multiset.le_cons_self ops op))
      | some mine =>
          obtain rfl := job?_eq_some.mp held
          have counted := Multiset.countP_cons_of_pos (p := fun op => op.worker scheduler = true) ops
            (worker_finishJob scheduler mine)
          rw [inHand, Multiset.filterMap_cons_some _ _ ops held, Multiset.card_cons, counted]
          exact Nat.succ_le_succ ih

theorem Works.workers_le (works : Works scheduler shared shared' op pushed) :
    (shared'.schedulers scheduler).workers ≤ (shared.schedulers scheduler).workers := by
  cases works with
  | elsewhere _ _ workers _ _ => exact workers.le
  | enter _ _ _ same => rw [same]
  | leaveLoop _ _ after =>
      rw [after]
      simp [Shared.exitWorker, Shared.schedulers_modifyScheduler]
  | leaveWait _ _ _ after =>
      rw [after]
      simp [Shared.exitWorker, Shared.schedulers_modifyScheduler]
  | pop _ _ _ workers _ _ => exact workers.le
  | finish _ _ _ workers _ _ => exact workers.le

theorem Staffed.running (staffed : Staffed scheduler shared ops) {running : List Job}
    (taken : (jobsOf scheduler shared.executed ++ running).Perm (jobsOf scheduler shared.dequeued)) :
    inHand scheduler ops = running := by
  apply Multiset.ext'
  intro job
  have counts := taken.count_eq job
  rw [List.count_append, staffed.taken job] at counts
  rw [count_inHand, Multiset.coe_count]
  omega

theorem Works.in_turn (works : Works scheduler shared shared' op pushed)
    (staffed : Staffed scheduler shared (op ::ₘ rest))
    (single : (op ::ₘ rest).countP (fun op => op.worker scheduler = true) ≤ 1)
    (before : jobsOf scheduler shared.executed <+: jobsOf scheduler shared.dequeued) :
    jobsOf scheduler shared'.executed <+: jobsOf scheduler shared'.dequeued := by
  cases works with
  | elsewhere _ _ _ dequeued executed =>
      rw [dequeued, executed]
      exact before
  | enter _ _ _ same =>
      rw [same]
      exact before
  | leaveLoop _ _ after =>
      rw [after]
      exact before
  | leaveWait _ _ _ after =>
      rw [after]
      exact before
  | pop job _ _ _ dequeued executed =>
      rw [dequeued, executed]
      exact before.trans (List.prefix_append _ _)
  | finish job same added workers dequeued executed =>
      obtain ⟨running, taken⟩ := before
      have held := staffed.running (List.Perm.of_eq taken)
      have one : running.length ≤ 1 := by
        have bound := card_inHand_le scheduler (op ::ₘ rest)
        rw [held] at bound
        exact bound.trans single
      have member : job ∈ running := by
        rw [← List.count_pos_iff, ← Multiset.coe_count, ← held, count_inHand, same]
        exact Multiset.count_pos.mpr (Multiset.mem_cons_self _ _)
      obtain ⟨only, alone⟩ := List.length_eq_one_iff.mp (le_antisymm one (List.length_pos_of_mem member))
      rw [alone, List.mem_singleton] at member
      rw [dequeued, executed, ← taken, alone, member]

end Hands

section Runs

variable {T E : Type} [Inhabited T] {coroutines : TaskId → Bool} {workers : List SchedulerId} {clients : Nat}
  {frames : FrameId → SchedulerId} {pool : Pool (Shared T E) Op} {scheduler : SchedulerId}
  {guard : Shared T E → Multiset Op → Op → Choice T E → Prop}

theorem workers_le
    (reach : (runtime T E).Reaches (Pool.admits guard) (initial coroutines workers clients frames) pool)
    (scheduler : SchedulerId) : (pool.shared.schedulers scheduler).workers ≤ workers.count scheduler := by
  apply Pool.invariant (fun shared _ => (shared.schedulers scheduler).workers ≤ workers.count scheduler) _ _ reach
  · exact le_rfl
  · intro shared shared' op pushed rest choice before _ executed
    exact ((execute_moves executed).works scheduler).workers_le.trans before

theorem card_inHand_le_workers
    (reach : (runtime T E).Reaches (Pool.admits guard) (initial coroutines workers clients frames) pool)
    (scheduler : SchedulerId) : (inHand scheduler pool.ops).card ≤ workers.count scheduler := by
  have staff := (staffed reach scheduler).workers
  exact (card_inHand_le scheduler pool.ops).trans (staff ▸ workers_le reach scheduler)

/-- The jobs that have been run and those in the hands of the workers, of which there are no more than workers,
are the first jobs that the scheduler has accepted. -/
theorem executed_among_first
    (reach : (runtime T E).Reaches (Pool.admits guard) (initial coroutines workers clients frames) pool)
    (scheduler : SchedulerId) : (inHand scheduler pool.ops).card ≤ workers.count scheduler ∧
      (jobsOf scheduler pool.shared.executed : Multiset Job) + inHand scheduler pool.ops =
        ((jobsOf scheduler pool.shared.enqueued).take
          ((jobsOf scheduler pool.shared.executed).length + (inHand scheduler pool.ops).card) : List Job) := by
  have taken : (jobsOf scheduler pool.shared.executed : Multiset Job) + inHand scheduler pool.ops =
      (jobsOf scheduler pool.shared.dequeued : List Job) := by
    apply Multiset.ext'
    intro job
    rw [Multiset.count_add, Multiset.coe_count, Multiset.coe_count, count_inHand, (staffed reach scheduler).taken job]
  have length := congrArg Multiset.card taken
  rw [Multiset.card_add, Multiset.coe_card, Multiset.coe_card] at length
  refine ⟨card_inHand_le_workers reach scheduler, ?_⟩
  rw [length, fifo reach scheduler, List.take_left]
  exact taken

/-- Two workers have taken a job each, and the second one has returned from its own. -/
def twoTaken : Pool (Shared Unit Unit) Op :=
  (runtime Unit Unit).after (Pool.admits Any) (initial (fun _ => false) [0, 0] 1 fun _ => 0)
    ([(2, .call (.runAsync 0 10)), (2, .call (.runAsync 0 11))] ++ proceed 0 2 ++ proceed 1 3 ++
      (1, .finish (.ok ())) :: proceed 1 6) (by decide)

/-- The job that was accepted first is still in the hands of the other worker. -/
theorem executed_among_first_two : jobsOf 0 twoTaken.shared.executed = [.callable 11] ∧
    (inHand 0 twoTaken.ops).card ≤ 2 ∧
      (jobsOf 0 twoTaken.shared.executed : Multiset Job) + inHand 0 twoTaken.ops =
        ((jobsOf 0 twoTaken.shared.enqueued).take
          ((jobsOf 0 twoTaken.shared.executed).length + (inHand 0 twoTaken.ops).card) : List Job) := by
  have reach : (runtime Unit Unit).Reaches (Pool.admits Any) (initial (fun _ => false) [0, 0] 1 fun _ => 0) twoTaken :=
    System.reaches_after _
  exact ⟨by decide, executed_among_first reach 0⟩

/-- A scheduler with one worker runs its jobs in the order in which it has accepted them. -/
theorem executed_in_order
    (reach : (runtime T E).Reaches (Pool.admits guard) (initial coroutines workers clients frames) pool)
    (single : workers.count scheduler ≤ 1) :
    jobsOf scheduler pool.shared.executed <+: jobsOf scheduler pool.shared.enqueued := by
  have inTurn : jobsOf scheduler pool.shared.executed <+: jobsOf scheduler pool.shared.dequeued := by
    apply Pool.invariant_of
      (fun shared ops => Staffed scheduler shared ops ∧ (shared.schedulers scheduler).workers ≤ 1)
      (fun shared _ => jobsOf scheduler shared.executed <+: jobsOf scheduler shared.dequeued) _ _ _ reach
    · exact fun reach => ⟨staffed reach scheduler, (workers_le reach scheduler).trans single⟩
    · exact List.prefix_rfl
    · rintro shared shared' op pushed rest choice ⟨staffed, few⟩ - before - executed
      exact ((execute_moves executed).works scheduler).in_turn staffed (staffed.workers ▸ few) before
  rw [fifo reach scheduler]
  exact inTurn.trans (List.prefix_append _ _)

/-- The one worker has run the first of two jobs. -/
def firstServed : Pool (Shared Unit Unit) Op :=
  (runtime Unit Unit).after (Pool.admits Any) small
    ([(1, .call (.runAsync 0 10)), (1, .call (.runAsync 0 11))] ++ proceed 0 3 ++ (0, .finish (.ok ())) :: proceed 0 6)
    (by decide)

theorem executed_in_order_first : jobsOf 0 firstServed.shared.executed = [.callable 10] ∧
    jobsOf 0 firstServed.shared.executed <+: jobsOf 0 firstServed.shared.enqueued :=
  ⟨by decide, executed_in_order (System.reaches_after _) (by decide : [0].count 0 ≤ 1)⟩

end Runs

end SoulLib.Async
