import Mathlib.Data.Multiset.Bind
import SoulLib.Async.Coroutines
import SoulLib.Async.Queues

/-! Who resumes a suspended coroutine.

A coroutine is resumed by jobs and by the continuations of the task it awaits.
For one coroutine, everything that is going to act on it is a ticket: a job that
resumes it, its running body, or a registration with a task on its way in or out
of the list of continuations. While the coroutine is suspended there is exactly
one ticket or one entry in that list.
-/

set_option autoImplicit false

namespace SoulLib.Async

open SoulLib.Semantics (Pool System)

inductive Ticket where
  | job
  | body
  | wait (task : TaskId)
  deriving DecidableEq, Repr

instance (job : Job) (handle : TaskId) : Decidable (job.Resumes handle) :=
  inferInstanceAs (Decidable (job = .resumeState handle ∨ job = .resumeHandle handle))

def Coroutine.isAwaiting : Coroutine → Bool
  | .awaiting _ => true
  | _ => false

def Op.tickets (handle : TaskId) : Op → List Ticket
  | .runJob job => if job.Resumes handle then [.job] else []
  | .body task => if task = handle then [.body] else []
  | .addContinuation task other => if other = handle then [.wait task] else []
  | .resumeEach task handles => List.replicate (handles.count handle) (.wait task)
  | _ => []

section Tickets

variable {T E : Type}

/-- The queued jobs that resume the coroutine. -/
def Shared.queued (shared : Shared T E) (handle : TaskId) : Nat :=
  shared.enqueued.countP (fun entry => entry.2.Resumes handle) -
    shared.dequeued.countP fun entry => entry.2.Resumes handle

/-- Everything that is going to act on the coroutine. -/
def tickets (handle : TaskId) (shared : Shared T E) (ops : Multiset Op) : Multiset Ticket :=
  Multiset.replicate (shared.queued handle) .job + ops.bind fun op => (op.tickets handle : Multiset Ticket)

/-- When the coroutine suspends, no job that resumes it is left over; and while it is
suspended, neither `schedule_state` nor `get` nor the `co_await` of another coroutine
resumes it. -/
def Unhurried (handle : TaskId) (shared : Shared T E) (ops : Multiset Op) (op : Op) (choice : Choice T E) : Prop :=
  match op with
  | .body task => task = handle → ∀ awaited ∈ choice.awaited, (shared.tasks awaited).completed = false →
      shared.queued handle = 0 ∧ ∀ pending ∈ ops, .job ∉ pending.tickets handle
  | .scheduleState _ task | .resumeProducer task => task = handle →
      (shared.tasks handle).coroutine.isAwaiting = false
  | _ => True

instance (handle : TaskId) (shared : Shared T E) (ops : Multiset Op) (choice : Choice T E) :
    (op : Op) → Decidable (Unhurried handle shared ops op choice)
  | .body task => inferInstanceAs (Decidable (task = handle → ∀ awaited ∈ choice.awaited,
      (shared.tasks awaited).completed = false →
        shared.queued handle = 0 ∧ ∀ pending ∈ ops, .job ∉ pending.tickets handle))
  | .scheduleState _ task | .resumeProducer task => inferInstanceAs (Decidable (task = handle →
      (shared.tasks handle).coroutine.isAwaiting = false))
  | .user | .loopGuard _ | .waitPop _ | .runJob _ | .finishJob .. | .callable _ | .schedule ..
  | .registerDependencies .. | .countDependency .. | .onCompleted _ | .resumeContinuations _
  | .resumeEach .. | .notifyScheduler _ | .releaseDependents .. | .addContinuation .. | .get _
  | .awaitCompletion _ | .extract _ | .wait _ | .stop _ | .joinWorkers _ | .emplace .. | .waitForAll _
  | .waitTokens .. => inferInstanceAs (Decidable True)

variable {shared shared' : Shared T E} {handle : TaskId}

theorem Fifo.queued_iff (fifo : Fifo shared) : shared.queued handle = 0 ↔
    ∀ scheduler, ∀ job ∈ (shared.schedulers scheduler).jobs, ¬job.Resumes handle := by
  obtain ⟨queue, whole, counts⟩ := fifo.queue
  have size : shared.queued handle = queue.countP fun entry => entry.2.Resumes handle := by
    have sum := congrArg (Multiset.countP fun entry => entry.2.Resumes handle) whole
    rw [Multiset.countP_add, Multiset.coe_countP, Multiset.coe_countP] at sum
    simp only [Shared.queued, sum]
    omega
  rw [size, Multiset.countP_eq_zero]
  constructor
  · intro none scheduler job member
    apply none (scheduler, job)
    rw [← Multiset.count_pos, counts]
    exact List.count_pos_iff.mpr member
  · rintro none ⟨scheduler, job⟩ member
    rw [← Multiset.count_pos, counts] at member
    exact none scheduler job (List.count_pos_iff.mp member)

@[simp] theorem Shared.queued_modify (task : TaskId) (change : TaskState T E → TaskState T E) :
    (shared.modify task change).queued handle = shared.queued handle := rfl

@[simp] theorem Shared.queued_modifyScheduler (scheduler : SchedulerId) (adjust : TaskScheduler → TaskScheduler) :
    (shared.modifyScheduler scheduler adjust).queued handle = shared.queued handle := rfl

theorem Shared.queued_record {event : Event T E} (enqueue : event.enqueue = none)
    (dequeue : event.dequeue = none) : (shared.record event).queued handle = shared.queued handle := by
  simp [Shared.queued, Shared.enqueued, Shared.dequeued, enqueue, dequeue]

theorem Fifo.taken_le (fifo : Fifo shared) (handle : TaskId) :
    shared.dequeued.countP (fun entry => entry.2.Resumes handle) ≤
      shared.enqueued.countP fun entry => entry.2.Resumes handle := by
  obtain ⟨queue, whole, -⟩ := fifo.queue
  have sum := congrArg (Multiset.countP fun entry => entry.2.Resumes handle) whole
  rw [Multiset.countP_add, Multiset.coe_countP, Multiset.coe_countP] at sum
  omega

theorem Fifo.queued_enqueue (fifo : Fifo shared) (scheduler : SchedulerId) (job : Job) :
    (shared.enqueue scheduler job).queued handle =
      shared.queued handle + if job.Resumes handle then 1 else 0 := by
  have taken := fifo.taken_le handle
  unfold Shared.enqueued Shared.dequeued at taken
  simp only [Shared.queued, Shared.enqueue, Shared.enqueued, Shared.dequeued, Shared.log_record,
    Shared.log_modifyScheduler, List.filterMap_append, List.filterMap_cons, List.filterMap_nil, Event.enqueue,
    Event.dequeue, List.countP_append, List.countP_singleton, List.countP_nil, decide_eq_true_eq]
  omega

theorem Fifo.queued_pop {scheduler : SchedulerId} {job : Job} {rest : List Job}
    (fifo : Fifo ((shared.modifyScheduler scheduler fun queue => { queue with jobs := rest }).record
      (.dequeued scheduler job))) :
    shared.queued handle = ((shared.modifyScheduler scheduler fun queue => { queue with jobs := rest }).record
      (.dequeued scheduler job)).queued handle + if job.Resumes handle then 1 else 0 := by
  have taken := fifo.taken_le handle
  unfold Shared.enqueued Shared.dequeued at taken
  simp only [Shared.log_record, Shared.log_modifyScheduler, List.filterMap_append, List.filterMap_cons,
    List.filterMap_nil, Event.enqueue, Event.dequeue, List.countP_append, List.countP_singleton, List.countP_nil,
    decide_eq_true_eq] at taken
  simp only [Shared.queued, Shared.enqueued, Shared.dequeued, Shared.log_record,
    Shared.log_modifyScheduler, List.filterMap_append, List.filterMap_cons, List.filterMap_nil, Event.enqueue,
    Event.dequeue, List.countP_append, List.countP_singleton, List.countP_nil, decide_eq_true_eq]
  omega

end Tickets

section Effects

variable {T E : Type} (handle : TaskId) (held : Multiset Ticket) (tasks tasks' : TaskId → TaskState T E)

/-- The coroutine stays where it is. -/
structure Kept : Prop where
  coroutine : (tasks' handle).coroutine = (tasks handle).coroutine
  parked : ∀ task, (tasks' task).continuations.count handle = (tasks task).continuations.count handle

/-- What a move does to the coroutine, with the tickets it removes and adds. -/
inductive Stirs : List Ticket → List Ticket → Prop where
  | quiet (kept : Kept handle tasks tasks') : Stirs [] []
  | launch (kept : Kept handle tasks tasks') (awake : (tasks handle).coroutine.isAwaiting = false) :
      Stirs [] [.job]
  | drop (removed : List Ticket) (kept : Kept handle tasks tasks')
      (awake : (tasks handle).coroutine.isAwaiting = false) (bodyless : .body ∉ removed) :
      Stirs removed []
  | handOver (task : TaskId) (kept : Kept handle tasks tasks')
      (completed : (tasks task).completed = true) : Stirs [.wait task] [.job]
  | start {removed : List Ticket} (before : (tasks handle).coroutine = .initial)
      (after : (tasks' handle).coroutine = .running)
      (parked : ∀ task, (tasks' task).continuations = (tasks task).continuations)
      (bodyless : .body ∉ removed) : Stirs removed [.body]
  | wake {removed : List Ticket} {awaited : TaskId} (before : (tasks handle).coroutine = .awaiting awaited)
      (after : (tasks' handle).coroutine = .running)
      (parked : ∀ task, (tasks' task).continuations = (tasks task).continuations)
      (via : removed = [.job] ∨ ∃ task, removed = [.wait task] ∧ (tasks task).completed = true) :
      Stirs removed [.body]
  | suspend (awaited : TaskId) (after : (tasks' handle).coroutine = .awaiting awaited)
      (parked : ∀ task, (tasks' task).continuations = (tasks task).continuations)
      (alone : .job ∉ held) : Stirs [.body] [.wait awaited]
  | park (task : TaskId) (coroutine : (tasks' handle).coroutine = (tasks handle).coroutine)
      (parked : ∀ other, (tasks' other).continuations.count handle =
        (tasks other).continuations.count handle + if other = task then 1 else 0) : Stirs [.wait task] []
  | swap (task : TaskId) (coroutine : (tasks' handle).coroutine = (tasks handle).coroutine)
      (parked : ∀ other, (tasks' other).continuations.count handle =
        if other = task then 0 else (tasks other).continuations.count handle) :
      Stirs [] (List.replicate ((tasks task).continuations.count handle) (.wait task))
  | finish (after : (tasks' handle).coroutine = .final)
      (parked : ∀ task, (tasks' task).continuations = (tasks task).continuations) :
      Stirs [.body] []

/-- A suspended coroutine is waited for by one ticket or one continuation, at the
task it awaits; a job holds it only once that task is completed. -/
def Rests : Prop :=
  match (tasks handle).coroutine with
  | .awaiting awaited =>
      held.count .body = 0 ∧
        held.count .job + held.count (.wait awaited) + (tasks awaited).continuations.count handle = 1 ∧
        (∀ task, task ≠ awaited → held.count (.wait task) + (tasks task).continuations.count handle = 0) ∧
        (0 < held.count .job → (tasks awaited).completed = true)
  | .running =>
      held.count .body = 1 ∧ ∀ task, held.count (.wait task) + (tasks task).continuations.count handle = 0
  | .null | .initial | .final =>
      held.count .body = 0 ∧ ∀ task, held.count (.wait task) + (tasks task).continuations.count handle = 0

variable {handle held tasks tasks'}

theorem Rests.awake (awake : (tasks handle).coroutine.isAwaiting = false) :
    Rests handle held tasks ↔
      held.count .body = (if (tasks handle).coroutine = .running then 1 else 0) ∧
        ∀ task, held.count (.wait task) + (tasks task).continuations.count handle = 0 := by
  unfold Rests
  cases here : (tasks handle).coroutine with
  | awaiting awaited =>
      rw [here] at awake
      cases awake
  | _ => simp

theorem Rests.awaiting {awaited : TaskId} (suspended : (tasks handle).coroutine = .awaiting awaited) :
    Rests handle held tasks ↔
      held.count .body = 0 ∧
        held.count .job + held.count (.wait awaited) + (tasks awaited).continuations.count handle = 1 ∧
        (∀ task, task ≠ awaited → held.count (.wait task) + (tasks task).continuations.count handle = 0) ∧
        (0 < held.count .job → (tasks awaited).completed = true) := by
  unfold Rests
  rw [suspended]

theorem Rests.running (rests : Rests handle held tasks) (body : .body ∈ held) :
    (tasks handle).coroutine = .running := by
  have some := Multiset.count_pos.mpr body
  unfold Rests at rests
  split at rests
  · omega
  · assumption
  all_goals omega

theorem Rests.located (rests : Rests handle held tasks) (task : TaskId)
    (some : 0 < held.count (.wait task) + (tasks task).continuations.count handle) :
    (tasks handle).coroutine = .awaiting task := by
  unfold Rests at rests
  split at rests
  · next awaited here =>
      by_cases same : task = awaited
      · rw [here, same]
      · have none := rests.2.2.1 task same
        omega
  all_goals
    have none := rests.2 task
    omega

/-- The tickets before and after a move. -/
def Balance (held held' : Multiset Ticket) (removed added : List Ticket) : Prop :=
  ∀ ticket, held'.count ticket + removed.count ticket = held.count ticket + added.count ticket

section Steps

variable {held' : Multiset Ticket} {removed : List Ticket} {task : TaskId}

theorem Rests.quiet (rests : Rests handle held tasks) (kept : Kept handle tasks tasks')
    (balance : Balance held held' [] [])
    (completed : ∀ task, (tasks task).completed = true → (tasks' task).completed = true) :
    Rests handle held' tasks' := by
  have counts : ∀ ticket, held'.count ticket = held.count ticket := balance
  unfold Rests at rests ⊢
  rw [kept.coroutine]
  simp only [counts, kept.parked]
  split at rests
  · exact ⟨rests.1, rests.2.1, rests.2.2.1, fun some => completed _ (rests.2.2.2 some)⟩
  all_goals exact rests

theorem Rests.launch (rests : Rests handle held tasks) (kept : Kept handle tasks tasks')
    (awake : (tasks handle).coroutine.isAwaiting = false) (balance : Balance held held' [] [.job]) :
    Rests handle held' tasks' := by
  rw [Rests.awake awake] at rests
  rw [Rests.awake (by rw [kept.coroutine, awake]), kept.coroutine]
  have bodies : held'.count .body = held.count .body := balance .body
  have waits : ∀ task, held'.count (.wait task) = held.count (.wait task) := fun task => balance (.wait task)
  simpa only [bodies, waits, kept.parked] using rests

theorem Rests.drop (rests : Rests handle held tasks) (kept : Kept handle tasks tasks')
    (awake : (tasks handle).coroutine.isAwaiting = false) (bodyless : .body ∉ removed)
    (balance : Balance held held' removed []) : Rests handle held' tasks' := by
  rw [Rests.awake awake] at rests
  rw [Rests.awake (by rw [kept.coroutine, awake]), kept.coroutine]
  constructor
  · have bodies := balance .body
    rw [List.count_eq_zero.mpr bodyless] at bodies
    exact bodies.trans rests.1
  · intro other
    have none := rests.2 other
    have waits := balance (.wait other)
    rw [List.count_nil] at waits
    rw [kept.parked]
    omega

theorem Rests.start (rests : Rests handle held tasks) (before : (tasks handle).coroutine = .initial)
    (after : (tasks' handle).coroutine = .running)
    (parked : ∀ task, (tasks' task).continuations = (tasks task).continuations) (bodyless : .body ∉ removed)
    (balance : Balance held held' removed [.body]) : Rests handle held' tasks' := by
  rw [Rests.awake (by rw [before]; rfl), before] at rests
  rw [Rests.awake (by rw [after]; rfl), after]
  constructor
  · have bodies := balance .body
    rw [List.count_eq_zero.mpr bodyless, rests.1] at bodies
    exact bodies
  · intro other
    have none := rests.2 other
    have waits := balance (.wait other)
    rw [List.count_cons_of_ne (by simp), List.count_nil] at waits
    rw [parked]
    omega

theorem Rests.wake {awaited : TaskId} (rests : Rests handle held tasks)
    (before : (tasks handle).coroutine = .awaiting awaited) (after : (tasks' handle).coroutine = .running)
    (parked : ∀ task, (tasks' task).continuations = (tasks task).continuations)
    (via : removed = [.job] ∨ ∃ task, removed = [.wait task])
    (balance : Balance held held' removed [.body]) : Rests handle held' tasks' := by
  rw [Rests.awaiting before] at rests
  rw [Rests.awake (by rw [after]; rfl), after]
  obtain ⟨bodies, one, elsewhere, -⟩ := rests
  have waits : ∀ other, held'.count (.wait other) + removed.count (.wait other) = held.count (.wait other) :=
    fun other => balance (.wait other)
  have used : removed.count .job + removed.count (.wait awaited) = 1 ∧ removed.count .body = 0 := by
    rcases via with rfl | ⟨task, rfl⟩
    · simp
    · obtain rfl : task = awaited := by
        by_contra ne
        have none := elsewhere task ne
        have wait := waits task
        rw [List.count_singleton_self] at wait
        omega
      simp
  have jobs := balance .job
  rw [List.count_cons_of_ne (by simp), List.count_nil] at jobs
  constructor
  · have body := balance .body
    rw [used.2, bodies] at body
    exact body
  · intro other
    have wait := waits other
    rw [parked]
    by_cases same : other = awaited
    · subst same
      omega
    · have none := elsewhere other same
      omega

theorem Rests.handOver (rests : Rests handle held tasks) (kept : Kept handle tasks tasks')
    (done : (tasks' task).completed = true) (balance : Balance held held' [.wait task] [.job]) :
    Rests handle held' tasks' := by
  have bodies : held'.count .body = held.count .body := balance .body
  have jobs : held'.count .job = held.count .job + 1 := balance .job
  have wait := balance (.wait task)
  rw [List.count_singleton_self, List.count_cons_of_ne (by simp), List.count_nil] at wait
  have here := rests.located task (by omega)
  rw [Rests.awaiting here] at rests
  rw [Rests.awaiting (kept.coroutine.trans here)]
  obtain ⟨none, one, elsewhere, -⟩ := rests
  simp only [kept.parked]
  refine ⟨by omega, by omega, ?_, fun _ => done⟩
  intro other ne
  have before := elsewhere other ne
  have after := balance (.wait other)
  rw [List.count_cons_of_ne (by simpa using Ne.symm ne), List.count_cons_of_ne (by simp), List.count_nil] at after
  omega

theorem Rests.suspend {awaited : TaskId} (rests : Rests handle held tasks)
    (after : (tasks' handle).coroutine = .awaiting awaited)
    (parked : ∀ task, (tasks' task).continuations = (tasks task).continuations) (alone : .job ∉ held)
    (balance : Balance held held' [.body] [.wait awaited]) : Rests handle held' tasks' := by
  have bodies : held'.count .body + 1 = held.count .body := balance .body
  have jobs : held'.count .job = held.count .job := balance .job
  have running := rests.running (Multiset.count_pos.mp (by omega))
  rw [Rests.awake (by rw [running]; rfl), running] at rests
  rw [Rests.awaiting after]
  obtain ⟨one, none⟩ := rests
  have jobless := Multiset.count_eq_zero.mpr alone
  have wait := balance (.wait awaited)
  have here := none awaited
  rw [List.count_singleton_self, List.count_cons_of_ne (by simp), List.count_nil] at wait
  rw [if_pos rfl] at one
  refine ⟨by omega, by rw [parked]; omega, ?_, by omega⟩
  intro other ne
  have there := none other
  have waits := balance (.wait other)
  rw [List.count_cons_of_ne (by simp), List.count_cons_of_ne (by simpa using Ne.symm ne), List.count_nil] at waits
  rw [parked]
  omega

theorem Rests.park (rests : Rests handle held tasks)
    (coroutine : (tasks' handle).coroutine = (tasks handle).coroutine)
    (parked : ∀ other, (tasks' other).continuations.count handle =
      (tasks other).continuations.count handle + if other = task then 1 else 0)
    (balance : Balance held held' [.wait task] [])
    (completed : ∀ task, (tasks task).completed = true → (tasks' task).completed = true) :
    Rests handle held' tasks' := by
  have bodies : held'.count .body = held.count .body := balance .body
  have jobs : held'.count .job = held.count .job := balance .job
  have wait := balance (.wait task)
  rw [List.count_singleton_self, List.count_nil] at wait
  have here := rests.located task (by omega)
  rw [Rests.awaiting here] at rests
  rw [Rests.awaiting (coroutine.trans here)]
  obtain ⟨none, one, elsewhere, ready⟩ := rests
  have parkedHere := parked task
  rw [if_pos rfl] at parkedHere
  refine ⟨by omega, by omega, ?_, fun some => completed task (ready (by omega))⟩
  intro other ne
  have before := elsewhere other ne
  have after := balance (.wait other)
  have same := parked other
  rw [List.count_cons_of_ne (by simpa using Ne.symm ne), List.count_nil] at after
  rw [if_neg ne] at same
  omega

theorem Rests.swap (rests : Rests handle held tasks)
    (coroutine : (tasks' handle).coroutine = (tasks handle).coroutine)
    (parked : ∀ other, (tasks' other).continuations.count handle =
      if other = task then 0 else (tasks other).continuations.count handle)
    (balance : Balance held held' [] (List.replicate ((tasks task).continuations.count handle) (.wait task)))
    (completed : ∀ task, (tasks task).completed = true → (tasks' task).completed = true) :
    Rests handle held' tasks' := by
  have bodies := balance .body
  have jobs := balance .job
  simp only [List.count_nil, List.count_replicate, beq_iff_eq, reduceCtorEq, if_false, Nat.add_zero] at bodies jobs
  have total : ∀ other, held'.count (.wait other) + (tasks' other).continuations.count handle =
      held.count (.wait other) + (tasks other).continuations.count handle := by
    intro other
    have wait := balance (.wait other)
    rw [List.count_nil, List.count_replicate] at wait
    rw [parked]
    by_cases same : other = task
    · simp only [same, beq_self_eq_true, if_true] at wait ⊢
      omega
    · simp only [same, Ne.symm same, beq_iff_eq, Ticket.wait.injEq, if_false] at wait ⊢
      omega
  unfold Rests at rests ⊢
  rw [coroutine]
  split at rests
  · next awaited here =>
      obtain ⟨none, one, elsewhere, ready⟩ := rests
      have sum := total awaited
      refine ⟨by omega, by omega, ?_, fun some => completed _ (ready (by omega))⟩
      intro other ne
      rw [total, elsewhere other ne]
  all_goals exact ⟨by omega, fun other => by rw [total, rests.2 other]⟩

theorem Rests.finish (rests : Rests handle held tasks) (after : (tasks' handle).coroutine = .final)
    (parked : ∀ task, (tasks' task).continuations = (tasks task).continuations)
    (balance : Balance held held' [.body] []) : Rests handle held' tasks' := by
  have bodies : held'.count .body + 1 = held.count .body := balance .body
  have waits : ∀ task, held'.count (.wait task) = held.count (.wait task) := fun task => balance (.wait task)
  have running := rests.running (Multiset.count_pos.mp (by omega))
  rw [Rests.awake (by rw [running]; rfl), running] at rests
  rw [Rests.awake (by rw [after]; rfl), after]
  simp only [parked, waits]
  rw [if_pos rfl] at rests
  refine ⟨?_, rests.2⟩
  rw [if_neg (by simp)]
  omega

end Steps

theorem Rests.stirs {held' : Multiset Ticket} {removed added : List Ticket} (rests : Rests handle held tasks)
    (stirs : Stirs handle held tasks tasks' removed added) (balance : Balance held held' removed added)
    (completed : ∀ task, (tasks task).completed = true → (tasks' task).completed = true) :
    Rests handle held' tasks' := by
  cases stirs with
  | quiet kept => exact rests.quiet kept balance completed
  | launch kept awake => exact rests.launch kept awake balance
  | drop _ kept awake bodyless => exact rests.drop kept awake bodyless balance
  | handOver task kept done => exact rests.handOver kept (completed task done) balance
  | start before after parked bodyless => exact rests.start before after parked bodyless balance
  | wake before after parked via =>
      exact rests.wake before after parked (via.imp_right fun ⟨task, same, _⟩ => ⟨task, same⟩) balance
  | suspend awaited after parked alone => exact rests.suspend after parked alone balance
  | park task coroutine parked => exact rests.park coroutine parked balance completed
  | swap task coroutine parked => exact rests.swap coroutine parked balance completed
  | finish after parked => exact rests.finish after parked balance

theorem Rests.woken {held' : Multiset Ticket} {removed added : List Ticket} {awaited : TaskId}
    (rests : Rests handle held tasks) (stirs : Stirs handle held tasks tasks' removed added)
    (balance : Balance held held' removed added) (before : (tasks handle).coroutine = .awaiting awaited)
    (after : (tasks' handle).coroutine ≠ .awaiting awaited) : (tasks awaited).completed = true := by
  have bodyless : .body ∉ held := by
    intro member
    have running := rests.running member
    rw [before] at running
    cases running
  have none := Multiset.count_eq_zero.mpr bodyless
  -- Only `wake` leaves the await; the two cases that end a body would need a body ticket.
  cases stirs with
  | wake suspended _ _ via =>
      have here := suspended
      rw [before] at here
      cases here
      have ready := (Rests.awaiting before).mp rests
      rcases via with rfl | ⟨task, rfl, completed⟩
      · have jobs := balance .job
        rw [List.count_singleton_self, List.count_cons_of_ne (by simp), List.count_nil] at jobs
        exact ready.2.2.2 (by omega)
      · have wait := balance (.wait task)
        rw [List.count_singleton_self, List.count_cons_of_ne (by simp), List.count_nil] at wait
        have located := rests.located task (by omega)
        rw [before] at located
        cases located
        exact completed
  | suspend _ _ _ _ =>
      have bodies : held'.count .body + 1 = held.count .body := balance .body
      omega
  | finish _ _ =>
      have bodies : held'.count .body + 1 = held.count .body := balance .body
      omega
  | start initial _ _ _ =>
      rw [before] at initial
      cases initial
  | quiet kept => exact absurd (kept.coroutine.trans before) after
  | launch kept _ => exact absurd (kept.coroutine.trans before) after
  | drop _ kept _ _ => exact absurd (kept.coroutine.trans before) after
  | handOver _ kept _ => exact absurd (kept.coroutine.trans before) after
  | park _ coroutine _ => exact absurd (coroutine.trans before) after
  | swap _ coroutine _ => exact absurd (coroutine.trans before) after

end Effects

end SoulLib.Async
