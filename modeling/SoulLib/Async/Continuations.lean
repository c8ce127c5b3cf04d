import Mathlib.Data.Multiset.Bind
import SoulLib.Async.TaskScheduler

/-! Awaiters racing with the completion of one task.

Here a step is one region under `continuationMutex`, or the call that hands one
handle to a scheduler or resumes it. The regions are the ones that the runtime
performs on its task states.
-/

set_option autoImplicit false

namespace SoulLib.Async

open SoulLib.Semantics (Pool System)

section Regions

variable {T E : Type}

namespace TaskState

/-- The locked region of `add_continuation`: keep the handle, or have it resumed at once. -/
def addContinuation (state : TaskState T E) (handle : TaskId) : TaskState T E × Bool :=
  if state.completed then (state, true)
  else ({ state with continuations := state.continuations ++ [handle] }, false)

/-- The locked region of `on_completed`. -/
def markCompleted (state : TaskState T E) : TaskState T E := { state with completed := true }

/-- The locked region of `resume_continuations`. -/
def swapContinuations (state : TaskState T E) : TaskState T E × List TaskId :=
  ({ state with continuations := [] }, state.continuations)

end TaskState

variable [Inhabited T] (shared : Shared T E) (task : TaskId) (choice : Choice T E)

theorem execute_addContinuation (handle : TaskId) :
    execute shared (.addContinuation task handle) choice =
      if ((shared.tasks task).addContinuation handle).2 then
        let (shared, ops) := shared.dispatch (shared.tasks task).scheduler handle
        some (shared, ops ++ [.resumeProducer task])
      else
        some (shared.modify task fun state => (state.addContinuation handle).1, [.resumeProducer task]) := by
  cases completed : (shared.tasks task).completed with
  | true => simp [execute, TaskState.addContinuation, completed]
  | false => simp [execute, TaskState.addContinuation, Shared.modify, completed]

theorem execute_onCompleted :
    execute shared (.onCompleted task) choice =
      some (shared.modify task TaskState.markCompleted, [.resumeContinuations task]) := rfl

theorem execute_resumeContinuations :
    execute shared (.resumeContinuations task) choice =
      some (shared.modify task fun state => state.swapContinuations.1,
        [.resumeEach task (shared.tasks task).swapContinuations.2]) := rfl

end Regions

section Completion

/-- The steps of the calls that meet at one task state. -/
inductive CompletionOp where
  | addContinuation (handle : TaskId)
  | resumeImmediately (handle : TaskId)
  | onCompleted
  | resumeContinuations
  | resumeEach (handles : List TaskId)
  | notifyScheduler
  | schedule (scheduler : SchedulerId)
  deriving DecidableEq, Repr

/-- A task state, and the handles that were resumed, each directly or through the
scheduler that was set then. -/
structure Completion (T E : Type) where
  state : TaskState T E
  resumed : List (TaskId × Option SchedulerId) := []

variable {T E : Type}

/-- Hand one handle over to be resumed. -/
def Completion.resume (completion : Completion T E) (handle : TaskId) : Completion T E :=
  { completion with resumed := completion.resumed ++ [(handle, completion.state.scheduler)] }

theorem Completion.resumed_resume (completion : Completion T E) (handle : TaskId) :
    ((completion.resume handle).resumed.map Prod.fst : Multiset TaskId) =
      {handle} + completion.resumed.map Prod.fst := by
  simp only [Completion.resume, List.map_append, List.map_cons, List.map_nil, ← Multiset.coe_add,
    Multiset.coe_singleton]
  exact add_comm _ _

def executeCompletion (completion : Completion T E) (op : CompletionOp) (_ : Unit) :
    Option (Completion T E × List CompletionOp) :=
  match op with
  | .addContinuation handle =>
      let (state, resumeImmediately) := completion.state.addContinuation handle
      some ({ completion with state }, if resumeImmediately then [.resumeImmediately handle] else [])
  | .resumeImmediately handle => some (completion.resume handle, [])
  | .onCompleted => some ({ completion with state := completion.state.markCompleted }, [.resumeContinuations])
  | .resumeContinuations =>
      let (state, pending) := completion.state.swapContinuations
      some ({ completion with state }, [.resumeEach pending])
  | .resumeEach [] => some (completion, [.notifyScheduler])
  | .resumeEach (handle :: rest) => some (completion.resume handle, [.resumeEach rest])
  -- `on_task_finished` does not touch the continuations.
  | .notifyScheduler => some (completion, [])
  | .schedule scheduler =>
      some ({ completion with state := { completion.state with scheduler := some scheduler } }, [])

/-- One call of `on_completed`, and any number of `add_continuation` and `schedule`. -/
def racing (state : TaskState T E) (handles : List TaskId) (schedulers : List SchedulerId) :
    Pool (Completion T E) CompletionOp where
  shared := { state }
  threads := handles.map (fun handle => [.addContinuation handle]) ++
    schedulers.map (fun scheduler => [.schedule scheduler]) ++ [[.onCompleted]]

def completionRace (T E : Type) : System (Pool (Completion T E) CompletionOp) (Nat × Unit) :=
  Pool.machine executeCompletion

namespace CompletionOp

/-- The handles that the operation has yet to register or to resume. -/
def holds : CompletionOp → Multiset TaskId
  | .addContinuation handle | .resumeImmediately handle => {handle}
  | .resumeEach handles => handles
  | .onCompleted | .resumeContinuations | .notifyScheduler | .schedule _ => 0

/-- The operation belongs to a call of `add_continuation`. -/
def adds : CompletionOp → Bool
  | .addContinuation _ | .resumeImmediately _ => true
  | _ => false

/-- The operation belongs to the call of `on_completed`. -/
def completes : CompletionOp → Bool
  | .onCompleted | .resumeContinuations | .resumeEach _ | .notifyScheduler => true
  | _ => false

/-- The operation comes after the flag was set. -/
def late : CompletionOp → Bool
  | .resumeImmediately _ | .resumeContinuations | .resumeEach _ | .notifyScheduler => true
  | _ => false

end CompletionOp

/-- Where the handles are, in every interleaving. -/
structure Conserved (handles : List TaskId) (completion : Completion T E) (ops : Multiset CompletionOp) :
    Prop where
  total : (handles : Multiset TaskId) =
    ops.bind CompletionOp.holds + completion.state.continuations + completion.resumed.map Prod.fst
  late : (completion.resumed ≠ [] ∨ ∃ op ∈ ops, op.late = true) → completion.state.completed = true
  pending : completion.state.completed = false → .onCompleted ∈ ops
  emptied : completion.state.completed = true → completion.state.continuations = [] ∨ .resumeContinuations ∈ ops

variable {handles : List TaskId} {completion completion' : Completion T E} {op : CompletionOp}
  {pushed : List CompletionOp} {rest : Multiset CompletionOp}

theorem Conserved.keep (conserved : Conserved handles completion (op ::ₘ rest))
    (total : op.holds + completion.state.continuations + completion.resumed.map Prod.fst =
      (pushed : Multiset CompletionOp).bind CompletionOp.holds + completion'.state.continuations +
        completion'.resumed.map Prod.fst)
    (late : completion'.resumed ≠ [] ∨ (∃ other ∈ pushed, other.late = true) →
      completion'.state.completed = true)
    (grows : completion.state.completed = true → completion'.state.completed = true)
    (pending : completion'.state.completed = false → op ≠ .onCompleted)
    (emptied : completion'.state.completed = true → completion'.state.continuations = [] ∨
      .resumeContinuations ∈ pushed ∨ .resumeContinuations ∈ rest) :
    Conserved handles completion' (pushed + rest) := by
  constructor
  -- Only the running operation and its successors change their share of the total.
  · rw [conserved.total, Multiset.cons_bind, Multiset.add_bind]
    calc op.holds + rest.bind CompletionOp.holds + completion.state.continuations + completion.resumed.map Prod.fst
        = rest.bind CompletionOp.holds +
            (op.holds + completion.state.continuations + completion.resumed.map Prod.fst) := by
          simp only [add_assoc, add_left_comm]
      _ = (pushed : Multiset CompletionOp).bind CompletionOp.holds + rest.bind CompletionOp.holds +
            completion'.state.continuations + completion'.resumed.map Prod.fst := by
          rw [total]
          simp only [add_assoc, add_left_comm]
  · rintro (some | ⟨other, member, after⟩)
    · exact late (.inl some)
    · rcases Multiset.mem_add.mp member with new | old
      · exact late (.inr ⟨other, Multiset.mem_coe.mp new, after⟩)
      · exact grows (conserved.late (.inr ⟨other, Multiset.mem_cons_of_mem old, after⟩))
  · intro incomplete
    have before : completion.state.completed = false := by
      by_contra completed
      rw [grows (by simpa using completed)] at incomplete
      cases incomplete
    rcases Multiset.mem_cons.mp (conserved.pending before) with same | later
    · exact absurd same.symm (pending incomplete)
    · exact Multiset.mem_add.mpr (.inr later)
  · intro completed
    rcases emptied completed with empty | new | old
    · exact .inl empty
    · exact .inr (Multiset.mem_add.mpr (.inl new))
    · exact .inr (Multiset.mem_add.mpr (.inr old))

theorem Conserved.step (conserved : Conserved handles completion (op ::ₘ rest))
    (executed : executeCompletion completion op () = some (completion', pushed)) :
    Conserved handles completion' (pushed + rest) := by
  have here : op.late = true → completion.state.completed = true :=
    fun late => conserved.late (.inr ⟨op, Multiset.mem_cons_self _ _, late⟩)
  have before : completion.resumed ≠ [] → completion.state.completed = true := fun some => conserved.late (.inl some)
  have swapped : op ≠ .resumeContinuations → completion.state.completed = true →
      completion.state.continuations = [] ∨ .resumeContinuations ∈ pushed ∨ .resumeContinuations ∈ rest := by
    intro other completed
    rcases conserved.emptied completed with empty | pending
    · exact .inl empty
    · rcases Multiset.mem_cons.mp pending with same | later
      · exact absurd same.symm other
      · exact .inr (.inr later)
  cases op with
  | addContinuation handle =>
      cases completed : completion.state.completed with
      | true =>
          simp only [executeCompletion, TaskState.addContinuation, completed, if_true] at executed
          cases executed
          apply conserved.keep
          · simp [CompletionOp.holds]
          · exact fun _ => completed
          · exact fun _ => completed
          · simp
          · exact swapped (by simp)
      | false =>
          -- The handle moves from the call into the list; nothing has been resumed yet.
          simp only [executeCompletion, TaskState.addContinuation, completed, Bool.false_eq_true, if_false] at executed
          cases executed
          apply conserved.keep
          · simp [CompletionOp.holds, ← Multiset.coe_add, add_comm]
          · rintro (some | ⟨other, member, -⟩)
            · rw [before some] at completed
              cases completed
            · cases member
          · intro complete
            rw [complete] at completed
            cases completed
          · simp
          · intro complete
            cases complete
  | resumeImmediately handle =>
      cases executed
      apply conserved.keep
      · rw [Completion.resumed_resume]
        simp only [CompletionOp.holds, Completion.resume, Multiset.coe_nil, Multiset.zero_bind, zero_add, add_assoc,
          add_left_comm]
      · exact fun _ => here rfl
      · exact id
      · simp
      · exact swapped (by simp)
  -- The flag is set before the list is taken, so a swap is owed from here on.
  | onCompleted =>
      cases executed
      apply conserved.keep
      · simp [CompletionOp.holds, TaskState.markCompleted]
      · exact fun _ => rfl
      · exact fun _ => rfl
      · simp [TaskState.markCompleted]
      · exact fun _ => .inr (.inl (List.mem_singleton_self _))
  | resumeContinuations =>
      cases executed
      apply conserved.keep
      · simp [CompletionOp.holds]
      · exact fun _ => here rfl
      · exact id
      · simp
      · exact fun _ => .inl rfl
  | resumeEach handles =>
      cases handles with
      | nil =>
          cases executed
          apply conserved.keep
          · simp [CompletionOp.holds]
          · exact fun _ => here rfl
          · exact id
          · simp
          · exact swapped (by simp)
      | cons handle others =>
          cases executed
          apply conserved.keep
          · rw [Completion.resumed_resume, Multiset.coe_singleton, Multiset.singleton_bind]
            simp only [CompletionOp.holds, Completion.resume, ← Multiset.cons_coe, ← Multiset.singleton_add, add_assoc,
              add_left_comm]
          · exact fun _ => here rfl
          · exact id
          · simp
          · exact swapped (by simp)
  | notifyScheduler =>
      cases executed
      apply conserved.keep
      · simp [CompletionOp.holds]
      · exact fun _ => here rfl
      · exact id
      · simp
      · exact swapped (by simp)
  | schedule scheduler =>
      cases executed
      apply conserved.keep
      · simp [CompletionOp.holds]
      · rintro (some | ⟨other, member, -⟩)
        · exact before some
        · cases member
      · exact id
      · simp
      · exact swapped (by simp)

theorem bind_threads (handles : List TaskId) (schedulers : List SchedulerId) (state : TaskState T E) :
    (racing state handles schedulers).ops.bind CompletionOp.holds = handles := by
  have quiet : ((schedulers.map fun scheduler => [CompletionOp.schedule scheduler]).flatten :
      Multiset CompletionOp).bind CompletionOp.holds = 0 := by
    induction schedulers with
    | nil => rfl
    | cons scheduler schedulers ih =>
        rw [List.map_cons, List.flatten_cons, ← Multiset.coe_add, Multiset.add_bind, ih]
        rfl
  have adding : ((handles.map fun handle => [CompletionOp.addContinuation handle]).flatten :
      Multiset CompletionOp).bind CompletionOp.holds = handles := by
    induction handles with
    | nil => rfl
    | cons handle handles ih =>
        rw [List.map_cons, List.flatten_cons, ← Multiset.coe_add, Multiset.add_bind, ih]
        rfl
  rw [Pool.ops, racing, List.flatten_append, List.flatten_append, ← Multiset.coe_add, ← Multiset.coe_add,
    Multiset.add_bind, Multiset.add_bind, adding, quiet]
  simp [CompletionOp.holds]

theorem mem_racing {state : TaskState T E} {schedulers : List SchedulerId}
    (member : op ∈ (racing state handles schedulers).ops) :
    (∃ handle, op = .addContinuation handle) ∨ (∃ scheduler, op = .schedule scheduler) ∨ op = .onCompleted := by
  obtain ⟨stack, thread, within⟩ := List.mem_flatten.mp (Multiset.mem_coe.mp member)
  rcases List.mem_append.mp thread with earlier | last
  · rcases List.mem_append.mp earlier with adds | schedules
    · obtain ⟨handle, -, rfl⟩ := List.mem_map.mp adds
      exact .inl ⟨handle, List.mem_singleton.mp within⟩
    · obtain ⟨scheduler, -, rfl⟩ := List.mem_map.mp schedules
      exact .inr (.inl ⟨scheduler, List.mem_singleton.mp within⟩)
  · rw [List.mem_singleton.mp last] at within
    exact .inr (.inr (List.mem_singleton.mp within))

/-- Whatever the order of the steps, a handle is resumed at most once for each time it was
added and not before the task is completed; once `on_completed` has returned no handle is
kept, and once every call has returned each handle has been resumed. -/
theorem continuations_resumed_once {state : TaskState T E} {schedulers : List SchedulerId}
    {admits : Pool (Completion T E) CompletionOp → Nat × Unit → Prop} {pool : Pool (Completion T E) CompletionOp}
    (incomplete : state.completed = false) (fresh : state.continuations = [])
    (reach : (completionRace T E).Reaches admits (racing state handles schedulers) pool) :
    (pool.shared.resumed.map Prod.fst : Multiset TaskId) ≤ handles ∧
      (pool.shared.resumed ≠ [] → pool.shared.state.completed = true) ∧
      ((∀ op ∈ pool.ops, op.completes = false) → pool.shared.state.continuations = [] ∧
        ((∀ op ∈ pool.ops, op.adds = false) →
          (pool.shared.resumed.map Prod.fst : Multiset TaskId) = handles)) := by
  have conserved : Conserved handles pool.shared pool.ops := by
    -- The invariant does not need the scheduling to be fair or ordered.
    have free : (completionRace T E).Reaches (Pool.admits fun _ _ _ _ => True) (racing state handles schedulers) pool :=
      reach.of_reached fun _ _ _ _ _ _ => trivial
    apply Pool.invariant (Conserved handles) _ _ free
    · constructor
      · rw [bind_threads]
        simp [racing, fresh]
      · rintro (some | ⟨op, member, late⟩)
        · exact absurd rfl some
        · rcases mem_racing member with ⟨handle, rfl⟩ | ⟨scheduler, rfl⟩ | rfl <;> cases late
      · intro _
        simp [Pool.ops, racing]
      · intro completed
        rw [show (racing state handles schedulers).shared.state.completed = false from incomplete] at completed
        cases completed
    · intro shared shared' op pushed rest choice before _ executed
      exact before.step executed
  refine ⟨?_, fun some => conserved.late (.inl some), ?_⟩
  · rw [conserved.total]
    exact Multiset.le_add_left _ _
  · intro returned
    have absent : ∀ {op : CompletionOp}, op.completes = true → op ∉ pool.ops := by
      intro op completes member
      rw [returned op member] at completes
      cases completes
    have completed : pool.shared.state.completed = true := by
      by_contra pending
      exact absent rfl (conserved.pending (by simpa using pending))
    have empty : pool.shared.state.continuations = [] :=
      (conserved.emptied completed).resolve_right (absent rfl)
    refine ⟨empty, ?_⟩
    intro added
    -- With all calls returned, no operation holds a handle any more.
    have idle : pool.ops.bind CompletionOp.holds = 0 := by
      apply Multiset.eq_zero_of_forall_notMem
      intro handle holds
      obtain ⟨op, member, held⟩ := Multiset.mem_bind.mp holds
      have neither := added op member
      have returned := returned op member
      cases op with
      | addContinuation other => cases neither
      | resumeImmediately other => cases neither
      | schedule scheduler => exact absurd held (Multiset.notMem_zero handle)
      | _ => cases returned
    rw [conserved.total, idle, empty]
    simp

end Completion

/-- Three awaiters: one registers before the flag is set, one between the flag and the swap,
and one after; the task is scheduled in between. -/
def threeRaced : Pool (Completion Unit Unit) CompletionOp :=
  (completionRace Unit Unit).after (fun _ _ => True) (racing {} [4, 5, 6] [7])
    [(0, ()), (4, ()), (1, ()), (4, ()), (4, ()), (3, ()), (1, ()), (2, ()), (2, ()), (4, ()), (4, ())] (by decide)

theorem continuations_resumed_once_three :
    threeRaced.shared.resumed = [(4, none), (5, some 7), (6, some 7)] ∧
      (threeRaced.shared.resumed.map Prod.fst : Multiset TaskId) = [4, 5, 6] :=
  ⟨by decide, ((continuations_resumed_once rfl rfl (System.reaches_after _)).2.2 (by decide)).2 (by decide)⟩

end SoulLib.Async
