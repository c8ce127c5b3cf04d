import Mathlib.Tactic.Abel
import SoulLib.Async.Wakeups

/-! Suspension and resumption along whole runs.

Every move stirs a given coroutine in one of the ways listed before, so in every
reached state a suspended coroutine rests on exactly one ticket.
-/

set_option autoImplicit false

namespace SoulLib.Async

open SoulLib.Semantics (Pool System)

section Moves

variable {T E : Type} {handle : TaskId} {shared shared' : Shared T E}

theorem Kept.refl (handle : TaskId) (tasks : TaskId → TaskState T E) : Kept handle tasks tasks :=
  ⟨rfl, fun _ => rfl⟩

theorem Kept.trans {first second third : TaskId → TaskState T E} (one : Kept handle first second)
    (two : Kept handle second third) : Kept handle first third :=
  ⟨two.coroutine.trans one.coroutine, fun task => (two.parked task).trans (one.parked task)⟩

theorem Kept.modify {task : TaskId} {change : TaskState T E → TaskState T E}
    (coroutine : (change (shared.tasks task)).coroutine = (shared.tasks task).coroutine)
    (continuations : (change (shared.tasks task)).continuations = (shared.tasks task).continuations) :
    Kept handle shared.tasks (shared.modify task change).tasks where
  coroutine := Shared.field_modify TaskState.coroutine coroutine handle
  parked other := congrArg (List.count handle) (Shared.field_modify TaskState.continuations continuations other)

theorem Kept.setCoroutine {task : TaskId} (ne : task ≠ handle) (coroutine : Coroutine) :
    Kept handle shared.tasks (shared.setCoroutine task coroutine).tasks where
  coroutine := by rw [Shared.setCoroutine, Shared.tasks_modify, if_neg (Ne.symm ne)]
  parked other := congrArg (List.count handle) (Shared.field_modify TaskState.continuations rfl other)

theorem tickets_of_isRequest {op : Op} (request : op.isRequest = true) : op.tickets handle = [] := by
  cases op <;> first | rfl | cases request

theorem Kept.resumes {other : TaskId} {ops : List Op} (resumes : Resumes shared other shared' ops)
    (ne : other ≠ handle) : Kept handle shared.tasks shared'.tasks ∧ ops.flatMap (Op.tickets handle) = [] := by
  cases resumes with
  | start suspended => exact ⟨.setCoroutine ne _, by simp [Op.tickets, ne]⟩
  | wake suspended => exact ⟨.setCoroutine ne _, by simp [Op.tickets, ne]⟩
  | misuse broken => exact ⟨.refl _ _, rfl⟩

theorem queued_resumes_eq {other : TaskId} {ops : List Op} (resumes : Resumes shared other shared' ops) :
    shared'.queued handle = shared.queued handle := by
  cases resumes with
  | start suspended => exact Shared.queued_record rfl rfl
  | wake suspended => exact Shared.queued_record rfl rfl
  | misuse broken => exact Shared.queued_record rfl rfl

theorem Resumes.stirs {ops : List Op} (resumes : Resumes shared handle shared' ops) {removed : List Ticket}
    (held : Multiset Ticket) (bodyless : .body ∉ removed)
    (via : (shared.tasks handle).coroutine.isAwaiting = true →
      removed = [.job] ∨ ∃ task, removed = [.wait task] ∧ (shared.tasks task).completed = true) :
    Stirs handle held shared.tasks shared'.tasks removed (ops.flatMap (Op.tickets handle)) := by
  have continuations : ∀ task, ((shared.setCoroutine handle .running).tasks task).continuations =
      (shared.tasks task).continuations := Shared.field_modify TaskState.continuations rfl
  have running : ((shared.setCoroutine handle .running).tasks handle).coroutine = .running := by
    simp [Shared.setCoroutine]
  cases resumes with
  | start suspended =>
      simp only [List.flatMap_cons, List.flatMap_nil, Op.tickets, if_true, List.append_nil]
      exact .start suspended running continuations bodyless
  | wake suspended =>
      simp only [List.flatMap_cons, List.flatMap_nil, Op.tickets, if_true, List.append_nil, List.nil_append]
      exact .wake suspended running continuations (via (by rw [suspended]; rfl))
  | misuse broken =>
      refine .drop _ (.refl _ _) ?_ bodyless
      rcases broken with broken | broken | broken <;> rw [broken] <;> rfl

theorem kept_perform {call : Call} {ops : List Op} (fifo : Fifo shared)
    (performed : shared.perform call = some (shared', ops)) :
    Kept handle shared.tasks shared'.tasks ∧ shared'.queued handle = shared.queued handle := by
  cases call with
  | runAsync scheduler task =>
      simp only [Shared.perform] at performed
      split at performed <;> cases performed
      refine ⟨by rw [Shared.tasks_enqueue]; exact .modify rfl rfl, ?_⟩
      have same : Fifo (shared.modify task fun state => { state with scheduler := some scheduler }) := fifo
      rw [same.queued_enqueue, Shared.queued_modify]
      simp [Job.Resumes]
  | frameScheduleAfter frame delay name task dependencies =>
      simp only [Shared.perform] at performed
      split at performed <;> cases performed
      exact ⟨.refl _ _, rfl⟩
  | _ =>
      cases performed
      exact ⟨.refl _ _, rfl⟩

/-- A move and what it does to the coroutine and its tickets. -/
def Stirred (handle : TaskId) (shared shared' : Shared T E) (op : Op) (pushed : List Op) (rest : Multiset Op) :
    Prop :=
  ∃ removed added, Stirs handle (tickets handle shared (op ::ₘ rest)) shared.tasks shared'.tasks removed added ∧
    Balance (tickets handle shared (op ::ₘ rest)) (tickets handle shared' (pushed + rest)) removed added

variable {op : Op} {pushed : List Op} {rest : Multiset Op}

/-- The balance of the tickets, from the moved operation alone. -/
theorem stirred_of {removed added : List Ticket}
    (stirs : Stirs handle (tickets handle shared (op ::ₘ rest)) shared.tasks shared'.tasks removed added)
    (balance : Multiset.replicate (shared'.queued handle) Ticket.job +
        (pushed.flatMap (Op.tickets handle) : List Ticket) + (removed : Multiset Ticket) =
      Multiset.replicate (shared.queued handle) Ticket.job + (op.tickets handle : List Ticket) +
        (added : Multiset Ticket)) : Stirred handle shared shared' op pushed rest := by
  refine ⟨removed, added, stirs, ?_⟩
  have pushes : Multiset.bind (pushed : Multiset Op) (fun op => (op.tickets handle : Multiset Ticket)) =
      (pushed.flatMap (Op.tickets handle) : List Ticket) := Multiset.coe_bind _ _
  have total : tickets handle shared' (pushed + rest) + (removed : Multiset Ticket) =
      tickets handle shared (op ::ₘ rest) + (added : Multiset Ticket) := by
    unfold tickets
    rw [Multiset.cons_bind, Multiset.add_bind, pushes, ← add_assoc, ← add_assoc, add_right_comm, balance,
      add_right_comm]
  intro ticket
  simpa using congrArg (Multiset.count ticket) total

theorem stirred_quiet (kept : Kept handle shared.tasks shared'.tasks)
    (queued : shared'.queued handle = shared.queued handle)
    (same : pushed.flatMap (Op.tickets handle) = op.tickets handle) :
    Stirred handle shared shared' op pushed rest := by
  refine stirred_of (.quiet kept) ?_
  rw [queued, same]

theorem Dispatches.stirred {task other : TaskId} {scheduler : Option SchedulerId} {ops : List Op} {next : Op}
    (dispatches : Dispatches shared other scheduler shared' ops) (fifo : Fifo shared)
    (completed : (shared.tasks task).completed = true)
    (ticket : op.tickets handle = (if other = handle then [.wait task] else []) ++ next.tickets handle) :
    Stirred handle shared shared' op (ops ++ [next]) rest := by
  by_cases same : other = handle
  · subst same
    rw [if_pos rfl] at ticket
    cases dispatches with
    | enqueue scheduler =>
        refine stirred_of (.handOver task (.refl _ _) completed) ?_
        rw [fifo.queued_enqueue, if_pos (.inr rfl), ticket, Multiset.replicate_add, Multiset.replicate_one]
        simp only [List.nil_append, List.flatMap_cons, List.flatMap_nil, List.append_nil, ← Multiset.coe_add,
          Multiset.coe_singleton]
        abel
    | inline resumes =>
        refine stirred_of (resumes.stirs _ ?_ fun _ => .inr ⟨task, rfl, completed⟩) ?_
        · simp
        · rw [queued_resumes_eq resumes, ticket]
          simp only [List.flatMap_append, List.flatMap_cons, List.flatMap_nil, List.append_nil, ← Multiset.coe_add]
          abel
  · rw [if_neg same] at ticket
    cases dispatches with
    | enqueue scheduler =>
        refine stirred_quiet (.refl _ _) ?_ (by simp [ticket])
        rw [fifo.queued_enqueue]
        simp [Job.Resumes, same]
    | inline resumes =>
        obtain ⟨kept, none⟩ := Kept.resumes resumes same
        refine stirred_quiet kept (queued_resumes_eq resumes) ?_
        simp [none, ticket]

section Operations

variable {task other awaited : TaskId} {job : Job} {scheduler : SchedulerId}

theorem stirred_call {self : Op} {call : Call} {ops : List Op} (fifo : Fifo shared)
    (performed : shared.perform call = some (shared', ops)) :
    Stirred handle shared shared' self (ops ++ [self]) rest := by
  obtain ⟨kept, queued⟩ := kept_perform fifo performed
  refine stirred_quiet kept queued ?_
  rw [List.flatMap_append, List.flatMap_eq_nil_iff.mpr]
  · simp
  · intro other member
    exact tickets_of_isRequest (isRequest_of_perform performed other member)

/-- The ticket moves from the queue to the worker that runs it; nothing is gained or lost. -/
theorem stirred_pop {remaining : List Job}
    (fifo : Fifo ((shared.modifyScheduler scheduler fun queue => { queue with jobs := remaining }).record
      (.dequeued scheduler job))) :
    Stirred handle shared ((shared.modifyScheduler scheduler fun queue => { queue with jobs := remaining }).record
      (.dequeued scheduler job)) (.waitPop scheduler) [.runJob job, .finishJob scheduler job] rest := by
  refine stirred_of (.quiet (.refl _ _)) ?_
  rw [fifo.queued_pop]
  by_cases resumes : job.Resumes handle
  · simp [Op.tickets, resumes, Multiset.replicate_add, add_comm]
  · simp [Op.tickets, resumes]

theorem tickets_runJob_of_ne (of : job.Resumes other) (ne : other ≠ handle) : (Op.runJob job).tickets handle = [] := by
  apply if_neg
  rcases of with rfl | rfl <;> simp [Job.Resumes, ne]

theorem stirred_runHandle (of : job.Resumes other) (resumes : Resumes shared other shared' pushed) :
    Stirred handle shared shared' (.runJob job) pushed rest := by
  by_cases same : other = handle
  · subst same
    have ticket : (Op.runJob job).tickets other = [.job] := if_pos of
    refine stirred_of (resumes.stirs _ (by simp) fun _ => .inl rfl) ?_
    rw [queued_resumes_eq resumes, ticket, add_right_comm]
  · obtain ⟨kept, none⟩ := Kept.resumes resumes same
    exact stirred_quiet kept (queued_resumes_eq resumes) (none.trans (tickets_runJob_of_ne of same).symm)

/-- A worker that finds the handle done or running throws its ticket away. -/
theorem stirred_skipHandle (of : job.Resumes other) (idle : (shared.tasks other).coroutine.resumable = false) :
    Stirred handle shared shared (.runJob job) [] rest := by
  by_cases same : other = handle
  · subst same
    have ticket : (Op.runJob job).tickets other = [.job] := if_pos of
    refine stirred_of (.drop [.job] (.refl _ _) ?_ (by simp)) ?_
    · cases here : (shared.tasks other).coroutine with
      | awaiting task => simp [here, Coroutine.resumable, Coroutine.done] at idle
      | _ => rfl
    · rw [ticket, List.flatMap_nil, Multiset.coe_nil, add_zero, add_zero]
  · exact stirred_quiet (.refl _ _) rfl (tickets_runJob_of_ne of same).symm

theorem stirred_suspend (incomplete : (shared.tasks awaited).completed = false)
    (unhurried : Unhurried handle shared (.body task ::ₘ rest) (.body task) (.coAwait awaited)) :
    Stirred handle shared ((shared.setCoroutine task (.awaiting awaited)).record (.suspended task awaited))
      (.body task) [.addContinuation awaited task] rest := by
  by_cases same : task = handle
  · subst same
    obtain ⟨empty, none⟩ := unhurried rfl awaited rfl incomplete
    refine stirred_of (.suspend awaited ?_ ?_ ?_) ?_
    · simp [Shared.setCoroutine]
    · intro other
      rw [Shared.tasks_record]
      exact Shared.field_modify TaskState.continuations rfl other
    · intro member
      rcases Multiset.mem_add.mp member with queued | pending
      · rw [empty] at queued
        cases queued
      · obtain ⟨other, within, ticket⟩ := Multiset.mem_bind.mp pending
        exact none other within ticket
    · rw [Shared.queued_record rfl rfl]
      simp [Op.tickets, Shared.setCoroutine, add_right_comm]
  · refine stirred_quiet ?_ (Shared.queued_record rfl rfl) (by simp [Op.tickets, same])
    exact .setCoroutine same _

theorem stirred_coReturn [Inhabited T] (outcome : Except E T) :
    Stirred handle shared (shared.modify task fun state => { state.settle outcome with coroutine := .final })
      (.body task) [.onCompleted task] rest := by
  by_cases same : task = handle
  · subst same
    refine stirred_of (.finish ?_ ?_) ?_
    · simp
    · exact Shared.field_modify TaskState.continuations (by rw [TaskState.settle_eq])
    · simp [Op.tickets]
  · refine stirred_quiet ⟨?_, ?_⟩ rfl (by simp [Op.tickets, same])
    · rw [Shared.tasks_modify, if_neg (Ne.symm same)]
    · intro other
      rw [Shared.field_modify TaskState.continuations (by rw [TaskState.settle_eq])]

theorem fifo_launched (fifo : Fifo shared) (task : TaskId) : Fifo (shared.record (.launched task)) :=
  (Queued.record (fun _ => rfl) rfl rfl rfl).fifo fifo

theorem stirred_scheduleState {choice : Choice T E} (fifo : Fifo shared)
    (unhurried : Unhurried handle shared (.scheduleState scheduler task ::ₘ rest) (.scheduleState scheduler task)
      choice) :
    Stirred handle shared ((shared.record (.launched task)).enqueue scheduler (.resumeState task))
      (.scheduleState scheduler task) [] rest := by
  have launched := fifo_launched fifo task
  by_cases same : task = handle
  · subst same
    refine stirred_of (.launch (.refl _ _) (unhurried rfl)) ?_
    rw [launched.queued_enqueue, Shared.queued_record rfl rfl]
    simp [Op.tickets, Job.Resumes, Multiset.replicate_add, add_comm]
  · refine stirred_quiet (.refl _ _) ?_ rfl
    rw [launched.queued_enqueue, Shared.queued_record rfl rfl]
    simp [Job.Resumes, same]

theorem stirred_swap :
    Stirred handle shared (shared.modify task fun state => { state with continuations := [] })
      (.resumeContinuations task) [.resumeEach task (shared.tasks task).continuations] rest := by
  refine stirred_of (.swap task ?_ ?_) ?_
  · exact Shared.field_modify TaskState.coroutine rfl handle
  · intro other
    rw [Shared.tasks_modify]
    by_cases same : other = task <;> simp [same]
  · simp [Op.tickets]

theorem stirred_park :
    Stirred handle shared
      (shared.modify task fun state => { state with continuations := state.continuations ++ [other] })
      (.addContinuation task other) [.resumeProducer task] rest := by
  by_cases same : other = handle
  · subst same
    refine stirred_of (.park task ?_ ?_) ?_
    · exact Shared.field_modify TaskState.coroutine rfl other
    · intro another
      rw [Shared.tasks_modify]
      by_cases same : another = task <;> simp [same]
    · simp [Op.tickets]
  · refine stirred_quiet ⟨?_, ?_⟩ rfl (by simp [Op.tickets, same])
    · exact Shared.field_modify TaskState.coroutine rfl handle
    · intro another
      exact Shared.field_modify (fun state => state.continuations.count handle) (by simp [same]) another

/-- `get` starts the producer on its scheduler, or inline when it has none. -/
theorem stirred_produce {choice : Choice T E} {on : Option SchedulerId} (fifo : Fifo shared)
    (unhurried : Unhurried handle shared (.resumeProducer task ::ₘ rest) (.resumeProducer task) choice)
    (dispatches : Dispatches (shared.record (.launched task)) task on shared' pushed) :
    Stirred handle shared shared' (.resumeProducer task) pushed rest := by
  have launched := fifo_launched fifo task
  have queued : (shared.record (.launched task)).queued handle = shared.queued handle := Shared.queued_record rfl rfl
  by_cases same : task = handle
  · subst same
    cases dispatches with
    | enqueue scheduler =>
        refine stirred_of (.launch (.refl _ _) (unhurried rfl)) ?_
        rw [launched.queued_enqueue, queued]
        simp [Op.tickets, Job.Resumes, Multiset.replicate_add, add_comm]
    | inline resumes =>
        refine stirred_of (resumes.stirs _ List.not_mem_nil ?_) ?_
        · intro awaiting
          rw [Shared.tasks_record, unhurried rfl] at awaiting
          cases awaiting
        · rw [queued_resumes_eq resumes, queued]
          simp [Op.tickets]
  · cases dispatches with
    | enqueue scheduler =>
        refine stirred_quiet (.refl _ _) ?_ rfl
        rw [launched.queued_enqueue, queued]
        simp [Job.Resumes, same]
    | inline resumes =>
        obtain ⟨kept, none⟩ := Kept.resumes resumes same
        exact stirred_quiet kept ((queued_resumes_eq resumes).trans queued) none

end Operations

variable [Inhabited T] {choice : Choice T E}

theorem Moves.stirred (moves : Moves shared op choice shared' pushed) (fifo : Fifo shared) (fifo' : Fifo shared')
    (marked : Marked shared (op ::ₘ rest)) (unhurried : Unhurried handle shared (op ::ₘ rest) op choice) :
    Stirred handle shared shared' op pushed rest := by
  have same := Kept.refl handle shared.tasks
  cases moves with
  | call user performed => exact stirred_call fifo performed
  | pop front => exact stirred_pop fifo'
  | runHandle of resumable resumes => exact stirred_runHandle of resumes
  | skipHandle of idle => exact stirred_skipHandle of idle
  | suspend incomplete => exact stirred_suspend incomplete unhurried
  | @coReturn task outcome => exact stirred_coReturn outcome
  | scheduleState => exact stirred_scheduleState fifo unhurried
  | swap => exact stirred_swap
  | @resumeNext task other remaining _ _ ops dispatches =>
      refine dispatches.stirred fifo (marked _ (Multiset.mem_cons_self _ _) task rfl) ?_
      -- resuming the handle itself trades one of its tickets for the resumption
      by_cases same : other = handle
      · simp [Op.tickets, same, List.replicate_succ]
      · simp [Op.tickets, same]
  | @continueNow task other _ _ ops completed dispatches =>
      refine dispatches.stirred fifo completed ?_
      simp [Op.tickets]
  | park incomplete => exact stirred_park
  | produce resumable dispatches => exact stirred_produce fifo unhurried dispatches
  -- what follows neither queues a ticket of the handle nor takes one away
  | released empty =>
      refine stirred_quiet same rfl ?_
      simp [Op.tickets]
  | returned => exact stirred_quiet (.modify (by rw [TaskState.settle_eq]) (by rw [TaskState.settle_eq])) rfl rfl
  | finishJob => exact stirred_quiet same (Shared.queued_record rfl rfl) rfl
  | schedule =>
      refine stirred_quiet ?_ (Shared.queued_record rfl rfl) rfl
      rw [Shared.tasks_record]
      exact .modify rfl rfl
  | register incomplete => exact stirred_quiet (Kept.modify rfl rfl) rfl rfl
  | count => exact stirred_quiet (Kept.modify rfl rfl) rfl rfl
  | complete => exact stirred_quiet (Kept.modify rfl rfl) rfl rfl
  | release front =>
      refine stirred_quiet ?_ rfl rfl
      exact Kept.trans (.modify rfl rfl) (.modify rfl rfl)
  | extract =>
      refine stirred_quiet ?_ (Shared.queued_record rfl rfl) rfl
      rw [Shared.tasks_record]
      exact .modify (by rw [TaskState.observe_eq]) (by rw [TaskState.observe_eq])
  | awaitReady completed => exact stirred_quiet same rfl (by simp [Op.tickets])
  | passed => exact stirred_quiet same (Shared.queued_record rfl rfl) rfl
  | emplace => exact stirred_quiet same (Shared.queued_record rfl rfl) rfl
  | _ => exact stirred_quiet same rfl rfl

end Moves

section Runs

variable {T E : Type} [Inhabited T] {coroutines : TaskId → Bool} {workers : List SchedulerId} {clients : Nat}
  {frames : FrameId → SchedulerId} {pool : Pool (Shared T E) Op} {handle : TaskId}

theorem continuations_of_completed {guard : Shared T E → Multiset Op → Op → Choice T E → Prop}
    (reach : (runtime T E).Reaches (Pool.admits guard) (initial coroutines workers clients frames) pool) :
    ∀ task, (pool.shared.tasks task).completed = true →
      (pool.shared.tasks task).continuations = [] ∨ .resumeContinuations task ∈ pool.ops := by
  apply Pool.invariant (fun shared ops => ∀ task, (shared.tasks task).completed = true →
    (shared.tasks task).continuations = [] ∨ .resumeContinuations task ∈ ops) _ _ reach
  · intro task completed
    simp only [initial] at completed
    split at completed <;> cases completed
  · intro shared shared' op pushed rest choice before _ executed task completed
    have moves := execute_moves executed
    rcases moves.completed_iff.mp completed with done | rfl
    · rcases before task done with empty | pending
      · rcases moves.continuations task with same | same | ⟨incomplete, -⟩
        · exact .inl (same.trans empty)
        · exact .inl same
        · rw [done] at incomplete
          cases incomplete
      · rcases Multiset.mem_cons.mp pending with rfl | later
        · cases moves with
          | call user performed => cases user
          | swap => exact .inl (by simp)
        · exact .inr (Multiset.mem_add.mpr (.inr later))
    · cases moves with
      | call user performed => cases user
      | complete => exact .inr (Multiset.mem_add.mpr (.inl (by simp)))

omit [Inhabited T] in
theorem tickets_initial :
    tickets handle (initial coroutines workers clients frames : Pool (Shared T E) Op).shared
      (initial coroutines workers clients frames : Pool (Shared T E) Op).ops = 0 := by
  apply Multiset.eq_zero_of_forall_notMem
  intro ticket member
  rcases Multiset.mem_add.mp member with queued | pending
  · cases queued
  · obtain ⟨op, within, ticketed⟩ := Multiset.mem_bind.mp pending
    rcases mem_initial within with rfl | ⟨scheduler, rfl⟩ <;> cases ticketed

variable
  (reach : (runtime T E).Reaches (Pool.admits (Unhurried handle)) (initial coroutines workers clients frames) pool)

include reach in
theorem rests_reached : Rests handle (tickets handle pool.shared pool.ops) pool.shared.tasks := by
  apply Pool.invariant_of (fun shared ops => Fifo shared ∧ Marked shared ops)
    (fun shared ops => Rests handle (tickets handle shared ops) shared.tasks) _ _ _ reach
  · intro reached before
    exact ⟨fifo before, marked before⟩
  · rw [tickets_initial]
    simp only [initial, Rests]
    cases coroutines handle <;> simp
    all_goals
      intro task
      split <;> rfl
  · intro shared shared' op pushed rest choice known known' rests unhurried executed
    have moves := execute_moves executed
    obtain ⟨removed, added, stirs, balance⟩ := moves.stirred known.1 known'.1 known.2 unhurried
    exact rests.stirs stirs balance fun task completed => moves.completed_iff.mpr (.inl completed)

/-- Something is on its way that resumes the coroutine. -/
def Returning (handle : TaskId) (pool : Pool (Shared T E) Op) : Prop :=
  (∃ scheduler, ∃ job ∈ (pool.shared.schedulers scheduler).jobs, job.Resumes handle) ∨
    ∃ op ∈ pool.ops, op.tickets handle ≠ [] ∨
      ∃ awaited, op = .resumeContinuations awaited ∧ handle ∈ (pool.shared.tasks awaited).continuations

include reach in
theorem lived_reached : Lived (pool.shared.life handle) (pool.shared.tasks handle).coroutine := by
  apply Pool.invariant_of (fun shared ops => Rests handle (tickets handle shared ops) shared.tasks)
    (fun shared _ => Lived (shared.life handle) (shared.tasks handle).coroutine) rests_reached _ _ reach
  · simp only [initial]
    cases coroutines handle
    · exact .null
    · exact .initial
  · intro shared shared' op pushed rest choice rests _ lived _ executed
    apply ((execute_moves executed).advances handle).lived _ lived
    rintro rfl
    exact rests.running (by simp [tickets, Op.tickets])

include reach in
theorem returning_of_completed {awaited : TaskId}
    (suspended : (pool.shared.tasks handle).coroutine = .awaiting awaited)
    (completed : (pool.shared.tasks awaited).completed = true) : Returning handle pool := by
  obtain ⟨-, one, -, -⟩ := (Rests.awaiting suspended).mp (rests_reached reach)
  have ticketed : ∀ ticket, 0 < (tickets handle pool.shared pool.ops).count ticket → Returning handle pool := by
    intro ticket some
    rcases Multiset.mem_add.mp (Multiset.count_pos.mp some) with queued | pending
    · left
      by_contra none
      push Not at none
      rw [(fifo reach).queued_iff.mpr none] at queued
      cases queued
    · obtain ⟨op, within, member⟩ := Multiset.mem_bind.mp pending
      exact .inr ⟨op, within, .inl (List.ne_nil_of_mem (Multiset.mem_coe.mp member))⟩
  -- The one ticket is a job, a registration in someone's hands, or an entry of the list of continuations.
  by_cases parked : handle ∈ (pool.shared.tasks awaited).continuations
  · rcases continuations_of_completed reach awaited completed with empty | pending
    · rw [empty] at parked
      cases parked
    · exact .inr ⟨_, pending, .inr ⟨awaited, rfl, parked⟩⟩
  · rw [List.count_eq_zero.mpr parked] at one
    by_cases job : 0 < (tickets handle pool.shared pool.ops).count .job
    · exact ticketed _ job
    · exact ticketed (.wait awaited) (by omega)

/-- A suspended coroutine is resumed exactly once for each suspension, only after the
awaited task is completed and has produced its outcome, and it is not forgotten. -/
theorem resumed_once_after_completion
    (reach : (runtime T E).Reaches (Pool.admits (Unhurried handle)) (initial coroutines workers clients frames) pool) :
    Lived (pool.shared.life handle) (pool.shared.tasks handle).coroutine ∧
      (∀ label after awaited, pool.admits (Unhurried handle) label → (runtime T E).step pool label = some after →
        (pool.shared.tasks handle).coroutine = .awaiting awaited →
        (after.shared.tasks handle).coroutine ≠ .awaiting awaited →
        (pool.shared.tasks awaited).completed = true ∧ pool.shared.Produced awaited) ∧
      ∀ awaited, (pool.shared.tasks handle).coroutine = .awaiting awaited →
        (pool.shared.tasks awaited).completed = true → Returning handle pool := by
  refine ⟨lived_reached reach, ?_, fun awaited => returning_of_completed reach⟩
  intro label after awaited admitted taken before resumed
  have next := System.Reaches.next reach admitted taken
  obtain ⟨op, pushed, rest, moving, executed, opsBefore, opsAfter⟩ := Pool.step_cases taken
  have rests := rests_reached reach
  have known := marked reach
  have unhurried := admitted op moving
  rw [opsBefore] at rests known unhurried
  obtain ⟨removed, added, stirs, balance⟩ :=
    (execute_moves executed).stirred (fifo reach) (fifo next) known unhurried
  have completed := rests.woken stirs balance before resumed
  exact ⟨completed, produced_of_completed reach completed⟩

end Runs

/-- The client schedules task 0, which awaits a callable. The callable has completed
and its task has handed the coroutine of task 0 back to the scheduler. -/
def awaitedCallable : Pool (Shared Unit Unit) Op :=
  (runtime Unit Unit).after (Pool.admits (Unhurried 0)) small
    ((1, .call (.schedule 0 (some 0) [])) :: proceed 1 3 ++ proceed 0 3 ++ (0, .call (.runAsync 0 10)) ::
      (0, .coAwait 10) :: proceed 0 6 ++ (0, .finish (.ok ())) :: proceed 0 3) (by decide)

theorem resumed_once_after_completion_callable :
    awaitedCallable.shared.life 0 = [.started, .suspended 10] ∧
      Lived (awaitedCallable.shared.life 0) (awaitedCallable.shared.tasks 0).coroutine ∧
      Returning 0 awaitedCallable :=
  ⟨by decide, (resumed_once_after_completion (System.reaches_after _)).1,
    (resumed_once_after_completion (System.reaches_after _)).2.2 10 (by decide) (by decide)⟩

/-- The client gets task 0 right after scheduling it, so that two jobs resume it. The
first one starts it and it suspends; the second one is at the front of the queue. -/
def hurried : List (Nat × Choice Unit Unit) :=
  (1, .call (.schedule 0 (some 0) [])) :: proceed 1 3 ++ (1, .call (.get 0)) :: proceed 1 2 ++ proceed 0 3 ++
    (0, .call (.runAsync 0 10)) :: (0, .coAwait 10) :: proceed 0 5

theorem resumed_before_completion :
    ((runtime Unit Unit).run (fun _ _ => True) small hurried).map
        (fun pool => ((pool.shared.tasks 0).coroutine, (pool.shared.tasks 10).completed, pool.next 0)) =
        some (.awaiting 10, false, some (.runJob (.resumeHandle 0))) ∧
      ((runtime Unit Unit).run (fun _ _ => True) small (hurried ++ proceed 0 1)).map
        (fun pool => ((pool.shared.tasks 0).coroutine, (pool.shared.tasks 10).completed, pool.next 0)) =
        some (.running, false, some (.extract 10)) := by
  decide

end SoulLib.Async
