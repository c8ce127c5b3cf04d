import Mathlib.Algebra.Order.Group.Multiset
import Mathlib.Algebra.Order.Sub.Unbundled.Basic
import SoulLib.Async.Registration

/-! The job queues are first-in first-out.

Along every run, what a scheduler has accepted is what its workers have taken,
followed by what is queued.
-/

set_option autoImplicit false

namespace SoulLib.Async

open SoulLib.Semantics (Pool System)

section Accounting

variable {T E : Type}

def Event.enqueue : Event T E → Option (SchedulerId × Job)
  | .enqueued scheduler job => some (scheduler, job)
  | _ => none

def Event.dequeue : Event T E → Option (SchedulerId × Job)
  | .dequeued scheduler job => some (scheduler, job)
  | _ => none

/-- The jobs accepted by the schedulers, in order. -/
def Shared.enqueued (shared : Shared T E) : List (SchedulerId × Job) := shared.log.filterMap Event.enqueue

/-- The jobs that workers took from the queues, in order. -/
def Shared.dequeued (shared : Shared T E) : List (SchedulerId × Job) := shared.log.filterMap Event.dequeue

/-- The entries of one scheduler. -/
def jobsOf (scheduler : SchedulerId) (entries : List (SchedulerId × Job)) : List Job :=
  entries.filterMap fun entry => if entry.1 = scheduler then some entry.2 else none

@[simp] theorem jobsOf_append (scheduler : SchedulerId) (first second : List (SchedulerId × Job)) :
    jobsOf scheduler (first ++ second) = jobsOf scheduler first ++ jobsOf scheduler second :=
  List.filterMap_append

theorem jobsOf_singleton (scheduler other : SchedulerId) (job : Job) :
    jobsOf scheduler [(other, job)] = if other = scheduler then [job] else [] := by
  by_cases same : other = scheduler <;> simp [jobsOf, same]

theorem mem_jobsOf {scheduler : SchedulerId} {job : Job} {entries : List (SchedulerId × Job)} :
    job ∈ jobsOf scheduler entries ↔ (scheduler, job) ∈ entries := by
  constructor
  · intro member
    obtain ⟨⟨other, entered⟩, within, same⟩ := List.mem_filterMap.mp member
    by_cases here : other = scheduler
    · rw [if_pos here, Option.some.injEq] at same
      rw [← here, ← same]
      exact within
    · rw [if_neg here] at same
      cases same
  · intro member
    exact List.mem_filterMap.mpr ⟨_, member, if_pos rfl⟩

theorem count_jobsOf (scheduler : SchedulerId) (job : Job) (entries : List (SchedulerId × Job)) :
    (jobsOf scheduler entries).count job = (entries : Multiset (SchedulerId × Job)).count (scheduler, job) := by
  induction entries with
  | nil => rfl
  | cons entry entries ih =>
      obtain ⟨other, queued⟩ := entry
      rw [← List.singleton_append, jobsOf_append, List.count_append, jobsOf_singleton, ih,
        List.singleton_append, ← Multiset.cons_coe, Multiset.count_cons]
      by_cases same : other = scheduler
      · subst same
        by_cases equal : queued = job
        · simp [equal, Nat.add_comm]
        · simp [equal, Ne.symm equal]
      · simp [same, Ne.symm same]

variable (shared shared' : Shared T E)

/-- What a move does to the queues. -/
inductive Queued : Prop where
  | same (jobs : ∀ other, (shared'.schedulers other).jobs = (shared.schedulers other).jobs)
      (enqueued : shared'.enqueued = shared.enqueued) (dequeued : shared'.dequeued = shared.dequeued)
  | push (scheduler : SchedulerId) (job : Job)
      (jobs : ∀ other, (shared'.schedulers other).jobs =
        (shared.schedulers other).jobs ++ if other = scheduler then [job] else [])
      (enqueued : shared'.enqueued = shared.enqueued ++ [(scheduler, job)])
      (dequeued : shared'.dequeued = shared.dequeued)
  | pop (scheduler : SchedulerId) (job : Job)
      (jobs : ∀ other, (shared.schedulers other).jobs =
        (if other = scheduler then [job] else []) ++ (shared'.schedulers other).jobs)
      (enqueued : shared'.enqueued = shared.enqueued)
      (dequeued : shared'.dequeued = shared.dequeued ++ [(scheduler, job)])

variable {shared shared'}

theorem Queued.enqueue {before : Shared T E} (scheduler : SchedulerId) (job : Job)
    (jobs : before.schedulers = shared.schedulers) (enqueued : before.enqueued = shared.enqueued)
    (dequeued : before.dequeued = shared.dequeued) : Queued shared (before.enqueue scheduler job) := by
  refine .push scheduler job ?_ ?_ ?_
  · intro other
    simp only [Shared.enqueue, Shared.schedulers_record, Shared.schedulers_modifyScheduler, jobs]
    by_cases same : other = scheduler <;> simp [same]
  · rw [← enqueued]
    simp [Shared.enqueued, Shared.enqueue, Event.enqueue]
  · rw [← dequeued]
    simp [Shared.dequeued, Shared.enqueue, Event.dequeue]

theorem Queued.record {before : Shared T E} {event : Event T E}
    (jobs : ∀ other, (before.schedulers other).jobs = (shared.schedulers other).jobs)
    (log : before.log = shared.log) (enqueue : event.enqueue = none) (dequeue : event.dequeue = none) :
    Queued shared (before.record event) := by
  refine .same jobs ?_ ?_
  · simp [Shared.enqueued, log, enqueue]
  · simp [Shared.dequeued, log, dequeue]

theorem queued_resumes {handle : TaskId} {ops : List Op} (resumes : Resumes shared handle shared' ops) :
    Queued shared shared' := by
  cases resumes with
  | start => exact .record (fun _ => rfl) rfl rfl rfl
  | wake => exact .record (fun _ => rfl) rfl rfl rfl
  | misuse => exact .record (fun _ => rfl) rfl rfl rfl

/-- A record that concerns no queue may come before. -/
theorem Queued.of_record {event : Event T E} (enqueue : event.enqueue = none) (dequeue : event.dequeue = none)
    (queued : Queued (shared.record event) shared') : Queued shared shared' := by
  have enqueuedSame : (shared.record event).enqueued = shared.enqueued := by
    simp [Shared.enqueued, enqueue]
  have dequeuedSame : (shared.record event).dequeued = shared.dequeued := by
    simp [Shared.dequeued, dequeue]
  cases queued with
  | same jobs enqueued dequeued =>
      exact .same jobs (enqueued.trans enqueuedSame) (dequeued.trans dequeuedSame)
  | push scheduler job jobs enqueued dequeued =>
      rw [enqueuedSame] at enqueued
      exact .push scheduler job jobs enqueued (dequeued.trans dequeuedSame)
  | pop scheduler job jobs enqueued dequeued =>
      rw [dequeuedSame] at dequeued
      exact .pop scheduler job jobs (enqueued.trans enqueuedSame) dequeued

theorem queued_dispatches {handle : TaskId} {scheduler : Option SchedulerId} {ops : List Op}
    (dispatches : Dispatches shared handle scheduler shared' ops) : Queued shared shared' := by
  cases dispatches with
  | enqueue scheduler => exact .enqueue scheduler _ rfl rfl rfl
  | inline resumes => exact queued_resumes resumes

theorem queued_perform {call : Call} {ops : List Op}
    (performed : shared.perform call = some (shared', ops)) : Queued shared shared' := by
  cases call with
  | runAsync scheduler task =>
      simp only [Shared.perform] at performed
      split at performed <;> cases performed
      exact .enqueue scheduler _ rfl rfl rfl
  | run scheduler =>
      cases performed
      refine .same ?_ rfl rfl
      intro other
      rw [Shared.schedulers_modifyScheduler]
      split
      · next same => rw [same]
      · rfl
  | frameScheduleAfter frame delay name task dependencies =>
      simp only [Shared.perform] at performed
      split at performed <;> cases performed
      exact .same (fun _ => rfl) rfl rfl
  | _ =>
      cases performed
      exact .same (fun _ => rfl) rfl rfl

variable [Inhabited T] {op : Op} {choice : Choice T E} {pushed : List Op}

theorem Moves.queued (moves : Moves shared op choice shared' pushed) : Queued shared shared' := by
  have adjusted : ∀ scheduler (adjust : TaskScheduler → TaskScheduler), (∀ queue, (adjust queue).jobs = queue.jobs) →
      Queued shared (shared.modifyScheduler scheduler adjust) := by
    intro scheduler adjust kept
    refine .same ?_ rfl rfl
    intro other
    exact Shared.field_modifyScheduler TaskScheduler.jobs other fun _ => kept _
  cases moves with
  | call user performed => exact queued_perform performed
  | runHandle of resumable resumes => exact queued_resumes resumes
  | resumeNext dispatches => exact queued_dispatches dispatches
  | continueNow completed dispatches => exact queued_dispatches dispatches
  | produce resumable dispatches => exact .of_record rfl rfl (queued_dispatches dispatches)
  | leaveLoop stopped => exact adjusted _ _ fun _ => rfl
  | leaveWait stopped empty => exact adjusted _ _ fun _ => rfl
  | stop => exact adjusted _ _ fun _ => rfl
  | @pop scheduler _ job rest front =>
      refine .pop scheduler job ?_ ?_ ?_
      · intro other
        simp only [Shared.schedulers_record, Shared.schedulers_modifyScheduler]
        by_cases same : other = scheduler
        · simp [same, front]
        · simp [same]
      · simp [Shared.enqueued, Event.enqueue]
      · simp [Shared.dequeued, Event.dequeue]
  | scheduleState => exact .of_record rfl rfl (.enqueue _ _ rfl rfl rfl)
  | finishJob => exact .record (fun _ => rfl) rfl rfl rfl
  | suspend incomplete => exact .record (fun _ => rfl) rfl rfl rfl
  | schedule => exact .record (fun _ => rfl) rfl rfl rfl
  | extract => exact .record (fun _ => rfl) rfl rfl rfl
  | emplace => exact .record (fun _ => rfl) rfl rfl rfl
  | passed => exact .record (fun _ => rfl) rfl rfl rfl
  | _ => exact .same (fun _ => rfl) rfl rfl

end Accounting

section Order

variable {T E : Type} {shared shared' : Shared T E}

/-- Each queue is first-in first-out: what was accepted is what was taken, then what is queued. -/
def Fifo (shared : Shared T E) : Prop :=
  ∀ scheduler, jobsOf scheduler shared.enqueued =
    jobsOf scheduler shared.dequeued ++ (shared.schedulers scheduler).jobs

theorem Queued.fifo (queued : Queued shared shared') (fifo : Fifo shared) :
    Fifo shared' := by
  intro scheduler
  have before := fifo scheduler
  cases queued with
  | same jobs enqueued dequeued => rw [enqueued, dequeued, jobs, before]
  | push other job jobs enqueued dequeued =>
      rw [enqueued, dequeued, jobs, jobsOf_append, before, jobsOf_singleton, List.append_assoc]
      by_cases same : other = scheduler
      · simp [same]
      · simp [same, Ne.symm same]
  | pop other job jobs enqueued dequeued =>
      rw [enqueued, dequeued, before, jobs, jobsOf_append, jobsOf_singleton, List.append_assoc]
      by_cases same : other = scheduler
      · simp [same]
      · simp [same, Ne.symm same]

theorem Fifo.mem_enqueued (fifo : Fifo shared) {scheduler : SchedulerId} {job : Job}
    (queued : job ∈ (shared.schedulers scheduler).jobs) : (scheduler, job) ∈ shared.enqueued := by
  rw [← mem_jobsOf, fifo scheduler]
  exact List.mem_append_right _ queued

theorem Fifo.mem_dequeued (fifo : Fifo shared) {scheduler : SchedulerId} {job : Job}
    (empty : (shared.schedulers scheduler).jobs = []) (accepted : (scheduler, job) ∈ shared.enqueued) :
    (scheduler, job) ∈ shared.dequeued := by
  rw [← mem_jobsOf, fifo scheduler, empty, List.append_nil] at accepted
  exact mem_jobsOf.mp accepted

theorem Fifo.queue (fifo : Fifo shared) : ∃ queue : Multiset (SchedulerId × Job),
    (shared.enqueued : Multiset (SchedulerId × Job)) = shared.dequeued + queue ∧
      ∀ scheduler job, queue.count (scheduler, job) = (shared.schedulers scheduler).jobs.count job := by
  have counts : ∀ scheduler job, (shared.enqueued : Multiset (SchedulerId × Job)).count (scheduler, job) =
      (shared.dequeued : Multiset (SchedulerId × Job)).count (scheduler, job) +
        (shared.schedulers scheduler).jobs.count job := by
    intro scheduler job
    rw [← count_jobsOf, ← count_jobsOf, fifo scheduler, List.count_append]
  have taken : (shared.dequeued : Multiset (SchedulerId × Job)) ≤ shared.enqueued := by
    rw [Multiset.le_iff_count]
    rintro ⟨scheduler, job⟩
    rw [counts]
    omega
  refine ⟨shared.enqueued - shared.dequeued, (add_tsub_cancel_of_le taken).symm, ?_⟩
  intro scheduler job
  rw [Multiset.count_sub, counts]
  omega

theorem Fifo.dequeued_subset (fifo : Fifo shared) : shared.dequeued ⊆ shared.enqueued := by
  obtain ⟨queue, whole, -⟩ := fifo.queue
  intro entry member
  have within : entry ∈ (shared.enqueued : Multiset (SchedulerId × Job)) := by
    rw [whole]
    exact Multiset.mem_add.mpr (.inl member)
  exact within

/-- An entry is listed exactly when the one event that lists it is in the log. -/
theorem mem_listed {list : Event T E → Option (SchedulerId × Job)} {entry : SchedulerId × Job} {event : Event T E}
    (lists : ∀ other, list other = some entry ↔ other = event) {log : List (Event T E)} :
    entry ∈ log.filterMap list ↔ event ∈ log := by
  simp only [List.mem_filterMap, lists, exists_eq_right]

theorem mem_enqueued {scheduler : SchedulerId} {job : Job} :
    (scheduler, job) ∈ shared.enqueued ↔ .enqueued scheduler job ∈ shared.log := by
  apply mem_listed
  intro other
  cases other <;> simp [Event.enqueue]

theorem mem_dequeued {scheduler : SchedulerId} {job : Job} :
    (scheduler, job) ∈ shared.dequeued ↔ .dequeued scheduler job ∈ shared.log := by
  apply mem_listed
  intro other
  cases other <;> simp [Event.dequeue]

end Order

section Runs

variable {T E : Type} [Inhabited T] {coroutines : TaskId → Bool} {workers : List SchedulerId} {clients : Nat}
  {frames : FrameId → SchedulerId} {pool : Pool (Shared T E) Op}
  {guard : Shared T E → Multiset Op → Op → Choice T E → Prop}

theorem fifo (reach : (runtime T E).Reaches (Pool.admits guard) (initial coroutines workers clients frames) pool) :
    Fifo pool.shared := by
  apply Pool.invariant (fun shared _ => Fifo shared) _ _ reach
  · intro scheduler
    rfl
  · intro shared shared' op pushed rest choice before _ executed
    exact (execute_moves executed).queued.fifo before

theorem taken_of_runJob
    (reach : (runtime T E).Reaches (Pool.admits guard) (initial coroutines workers clients frames) pool) :
    ∀ job, .runJob job ∈ pool.ops → ∃ scheduler, .dequeued scheduler job ∈ pool.shared.log := by
  apply Pool.invariant (fun shared ops => ∀ job, .runJob job ∈ ops →
    ∃ scheduler, .dequeued scheduler job ∈ shared.log) _ _ reach
  · intro job member
    rcases mem_initial member with same | ⟨scheduler, same⟩ <;> cases same
  · intro shared shared' op pushed rest choice before _ executed job member
    have moves := execute_moves executed
    rcases Multiset.mem_add.mp member with new | old
    · obtain ⟨scheduler, rfl⟩ := moves.pushes _ (Multiset.mem_coe.mp new)
      cases moves with
      | call user performed => cases user
      | leaveWait stopped empty => cases new
      | pop front =>
          rcases List.mem_pair.mp (Multiset.mem_coe.mp new) with same | same <;> cases same
          exact ⟨scheduler, List.mem_append_right _ (List.mem_singleton_self _)⟩
    · obtain ⟨scheduler, logged⟩ := before job (Multiset.mem_cons_of_mem old)
      exact ⟨scheduler, moves.logged logged⟩

end Runs

end SoulLib.Async
