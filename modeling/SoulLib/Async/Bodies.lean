import SoulLib.Async.Coroutines
import SoulLib.Async.Queues

/-! Who holds the body of a coroutine.

The body is pending in one thread exactly while the coroutine runs, so it
returns once, and `on_completed` of a coroutine follows that return and nothing
else.
-/

set_option autoImplicit false

namespace SoulLib.Async

open SoulLib.Semantics (Pool System)

section Bodies

variable {T E : Type} {shared shared' : Shared T E} {op : Op} {choice : Choice T E} {pushed ops : List Op}
  {handle : TaskId}

/-- What a move that is not one of the body does to the coroutine, and which body it pushes. -/
inductive Bodies (handle : TaskId) (pushed : List Op) : Coroutine → Coroutine → Prop where
  | stays {coroutine : Coroutine} (none : pushed.count (.body handle) = 0) : Bodies handle pushed coroutine coroutine
  | resumes {before : Coroutine} (one : pushed.count (.body handle) = 1) (idle : before ≠ .running)
      (unfinished : before ≠ .final) : Bodies handle pushed before .running

theorem bodies_of_eq {before after : Coroutine} (same : after = before) (none : pushed.count (.body handle) = 0) :
    Bodies handle pushed before after := same ▸ .stays none

theorem Resumes.bodies {other : TaskId} (resumes : Resumes shared other shared' ops)
    (rest : pushed.count (.body handle) = 0) :
    Bodies handle (ops ++ pushed) (shared.tasks handle).coroutine (shared'.tasks handle).coroutine := by
  have moved : ((shared.setCoroutine other .running).tasks handle).coroutine =
      if handle = other then .running else (shared.tasks handle).coroutine := by
    rw [Shared.setCoroutine, Shared.tasks_modify]
    split <;> rfl
  by_cases same : handle = other
  · subst same
    rw [if_pos rfl] at moved
    cases resumes with
    | start suspended =>
        rw [suspended, Shared.tasks_record, moved]
        exact .resumes (by simp [rest]) (by simp) (by simp)
    | wake suspended =>
        rw [suspended, Shared.tasks_record, moved]
        exact .resumes (by simp [rest]) (by simp) (by simp)
    | misuse broken => exact .stays rest
  · rw [if_neg same] at moved
    cases resumes with
    | start suspended => exact bodies_of_eq moved (by simp [rest, Ne.symm same])
    | wake suspended => exact bodies_of_eq moved (by simp [rest, Ne.symm same])
    | misuse broken => exact .stays rest

theorem Dispatches.bodies {other : TaskId} {scheduler : Option SchedulerId}
    (dispatches : Dispatches shared other scheduler shared' ops) (rest : pushed.count (.body handle) = 0) :
    Bodies handle (ops ++ pushed) (shared.tasks handle).coroutine (shared'.tasks handle).coroutine := by
  cases dispatches with
  | enqueue scheduler => exact .stays rest
  | inline resumes => exact resumes.bodies rest

theorem coroutine_perform {call : Call} (performed : shared.perform call = some (shared', ops)) :
    (shared'.tasks handle).coroutine = (shared.tasks handle).coroutine := by
  cases call with
  | runAsync scheduler task =>
      simp only [Shared.perform] at performed
      split at performed <;> cases performed
      rw [Shared.tasks_enqueue]
      exact Shared.field_modify TaskState.coroutine rfl handle
  | frameScheduleAfter frame delay name task dependencies =>
      simp only [Shared.perform] at performed
      split at performed <;> cases performed
      rfl
  | _ =>
      cases performed
      rfl

variable [Inhabited T]

theorem Moves.performed {call : Call} (moves : Moves shared op (.call call) shared' pushed)
    (user : op.isUser = true) : ∃ ops, shared.perform call = some (shared', ops) := by
  cases op with
  | user =>
      cases moves with
      | call user performed => exact ⟨_, performed⟩
  | body task =>
      cases moves with
      | call user performed => exact ⟨_, performed⟩
  | callable task =>
      cases moves with
      | call user performed => exact ⟨_, performed⟩
  | _ => cases user

theorem Moves.bodies (moves : Moves shared op choice shared' pushed) (other : op ≠ .body handle) :
    Bodies handle pushed (shared.tasks handle).coroutine (shared'.tasks handle).coroutine := by
  have modified {task : TaskId} {change : TaskState T E → TaskState T E}
      (same : (change (shared.tasks task)).coroutine = (shared.tasks task).coroutine) :
      ((shared.modify task change).tasks handle).coroutine = (shared.tasks handle).coroutine :=
    Shared.field_modify TaskState.coroutine same handle
  have elsewhere {task : TaskId} {change : TaskState T E → TaskState T E} (differs : task ≠ handle) :
      ((shared.modify task change).tasks handle).coroutine = (shared.tasks handle).coroutine := by
    rw [Shared.tasks_modify, if_neg (Ne.symm differs)]
  cases moves with
  | call user performed =>
      refine bodies_of_eq (coroutine_perform performed) (List.count_eq_zero.mpr fun member => ?_)
      rcases List.mem_append.mp member with request | self
      · cases isRequest_of_perform performed _ request
      · exact other (List.mem_singleton.mp self).symm
  -- the operations that resume a coroutine start its body
  | @runHandle job resumed _ _ ops of resumable resumes =>
      have bodies := resumes.bodies (List.count_nil (a := Op.body handle))
      rwa [List.append_nil] at bodies
  | resumeNext dispatches => exact dispatches.bodies (by simp)
  | continueNow completed dispatches => exact dispatches.bodies (by simp)
  | produce resumable dispatches =>
      have bodies := dispatches.bodies (List.count_nil (a := Op.body handle))
      rwa [List.append_nil] at bodies
  -- the steps of a body are of another coroutine than the one watched
  | @awaitReady task awaited completed =>
      have differs : task ≠ handle := fun same => other (congrArg Op.body same)
      exact .stays (by simp [differs])
  | @suspend task awaited incomplete =>
      have differs : task ≠ handle := fun same => other (congrArg Op.body same)
      refine bodies_of_eq ?_ (by simp)
      rw [Shared.tasks_record]
      exact elsewhere differs
  | @coReturn task outcome =>
      have differs : task ≠ handle := fun same => other (congrArg Op.body same)
      exact bodies_of_eq (elsewhere differs) (by simp)
  -- whatever else writes a task state leaves its coroutine alone
  | returned => exact bodies_of_eq (modified (by rw [TaskState.settle_eq])) (by simp)
  | release front =>
      exact bodies_of_eq ((Shared.field_modify TaskState.coroutine rfl handle).trans (modified rfl)) (by simp)
  | extract =>
      refine bodies_of_eq ?_ (by simp)
      rw [Shared.tasks_record]
      exact modified (by rw [TaskState.observe_eq])
  | released empty => exact .stays (by simp [List.count_eq_zero])
  | schedule =>
      refine bodies_of_eq ?_ (by simp)
      rw [Shared.tasks_record]
      exact modified rfl
  | register incomplete => exact bodies_of_eq (modified rfl) (by simp)
  | count => exact bodies_of_eq (modified rfl) (by simp)
  | complete => exact bodies_of_eq (modified rfl) (by simp)
  | swap => exact bodies_of_eq (modified rfl) (by simp)
  | park incomplete => exact bodies_of_eq (modified rfl) (by simp)
  | _ => exact .stays (by simp)

end Bodies

section Runs

variable {T E : Type} [Inhabited T] {coroutines : TaskId → Bool} {workers : List SchedulerId} {clients : Nat}
  {frames : FrameId → SchedulerId} {pool : Pool (Shared T E) Op} {handle : TaskId}
  {guard : Shared T E → Multiset Op → Op → Choice T E → Prop}

omit [Inhabited T] in
theorem count_initial {op : Op} (user : op ≠ .user) (guards : ∀ scheduler, op ≠ .loopGuard scheduler) :
    (initial (T := T) (E := E) coroutines workers clients frames).ops.count op = 0 := by
  rw [Multiset.count_eq_zero]
  intro member
  rcases mem_initial member with same | ⟨scheduler, same⟩
  · exact user same
  · exact guards scheduler same

omit [Inhabited T] in
theorem count_request {self op : Op} {shared shared' : Shared T E} {call : Call} {ops : List Op}
    (performed : shared.perform call = some (shared', ops)) (request : op.isRequest = false) :
    (ops ++ [self]).count op = [self].count op := by
  rw [List.count_append, List.count_eq_zero.mpr, Nat.zero_add]
  intro member
  rw [isRequest_of_perform performed op member] at request
  cases request

theorem count_body
    (reach : (runtime T E).Reaches (Pool.admits guard) (initial coroutines workers clients frames) pool) :
    pool.ops.count (.body handle) = if (pool.shared.tasks handle).coroutine = .running then 1 else 0 := by
  apply Pool.invariant (fun shared ops => ops.count (.body handle) =
    if (shared.tasks handle).coroutine = .running then 1 else 0) _ _ reach
  · rw [count_initial (by simp) (by simp)]
    simp only [initial]
    split <;> rfl
  · intro shared shared' op pushed rest choice before _ executed
    have moves := execute_moves executed
    rw [Multiset.count_add, Multiset.coe_count]
    by_cases body : op = .body handle
    · subst body
      rw [Multiset.count_cons_self] at before
      split at before
      · next running =>
          have alone : rest.count (.body handle) = 0 := by omega
          rw [alone, Nat.add_zero]
          cases moves with
          | call user performed =>
              rw [count_request performed rfl, coroutine_perform performed, running]
              simp
          | awaitReady completed => simp [running]
          | suspend incomplete => simp [Shared.setCoroutine]
          | coReturn => simp
      · omega
    · rw [Multiset.count_cons_of_ne (Ne.symm body)] at before
      generalize (shared'.tasks handle).coroutine = after, moves.bodies body = bodies
      cases bodies with
      | stays none => rw [none, before, Nat.zero_add]
      | resumes one idle unfinished =>
          rw [if_neg idle] at before
          rw [one, before, if_pos rfl]

theorem null_of_callable
    (reach : (runtime T E).Reaches (Pool.admits guard) (initial coroutines workers clients frames) pool)
    (callable : coroutines handle = false) : (pool.shared.tasks handle).coroutine = .null := by
  apply Pool.invariant_of (fun shared ops => ops.count (.body handle) =
    if (shared.tasks handle).coroutine = .running then 1 else 0)
    (fun shared _ => (shared.tasks handle).coroutine = .null) _ _ _ reach
  · exact count_body
  · simp [initial, callable]
  · intro shared shared' op pushed rest choice bodies _ before _ executed
    rw [before, if_neg (by simp)] at bodies
    have other : op ≠ .body handle := by
      rintro rfl
      simp at bodies
    cases (execute_moves executed).advances handle with
    | stay coroutine life => exact coroutine.trans before
    | start via suspended after life => cases before.symm.trans suspended
    | wake suspended after life => cases before.symm.trans suspended
    | suspend awaited body chosen incomplete after life => exact absurd body other
    | finish outcome body chosen after life => exact absurd body other

theorem not_null_of_initial
    (reach : (runtime T E).Reaches (Pool.admits guard) (initial coroutines workers clients frames) pool)
    (coroutine : coroutines handle = true) : (pool.shared.tasks handle).coroutine ≠ .null := by
  apply Pool.invariant (fun shared _ => (shared.tasks handle).coroutine ≠ .null) _ _ reach
  · simp [initial, coroutine, TaskState.ofCoroutine]
  · intro shared shared' op pushed rest choice before _ executed
    exact ((execute_moves executed).advances handle).left.2 before

theorem not_enqueued_callable
    (reach : (runtime T E).Reaches (Pool.admits guard) (initial coroutines workers clients frames) pool)
    (coroutine : coroutines handle = true) (scheduler : SchedulerId) :
    .enqueued scheduler (.callable handle) ∉ pool.shared.log := by
  apply Pool.invariant_of (fun shared _ => (shared.tasks handle).coroutine ≠ .null)
    (fun shared _ => .enqueued scheduler (.callable handle) ∉ shared.log) _ _ _ reach
  · exact fun reached => not_null_of_initial reached coroutine
  · simp [initial]
  · intro shared shared' op pushed rest choice some _ before _ executed logged
    have moves := execute_moves executed
    rcases moves.mem_log logged with old | ⟨user, rfl⟩
    · exact before old
    · have performed := moves.performed user
      simp only [Shared.perform] at performed
      split at performed
      · next fresh => exact some fresh.1
      · simp at performed

theorem not_callable
    (reach : (runtime T E).Reaches (Pool.admits guard) (initial coroutines workers clients frames) pool)
    (coroutine : coroutines handle = true) : .callable handle ∉ pool.ops := by
  apply Pool.invariant_of (fun _ ops => .runJob (.callable handle) ∉ ops)
    (fun _ ops => .callable handle ∉ ops) _ _ _ reach
  · intro pool reached member
    obtain ⟨scheduler, taken⟩ := taken_of_runJob reached _ member
    exact not_enqueued_callable reached coroutine scheduler
      (mem_enqueued.mp ((fifo reached).dequeued_subset (mem_dequeued.mpr taken)))
  · intro member
    rcases mem_initial member with same | ⟨scheduler, same⟩ <;> cases same
  · intro shared shared' op pushed rest choice idle _ before _ executed member
    rcases Multiset.mem_add.mp member with new | old
    · rcases (execute_moves executed).pushes _ (Multiset.mem_coe.mp new) with rfl | rfl
      · exact before (Multiset.mem_cons_self _ _)
      · exact idle (Multiset.mem_cons_self _ _)
    · exact before (Multiset.mem_cons_of_mem old)

theorem count_onCompleted
    (reach : (runtime T E).Reaches (Pool.admits guard) (initial coroutines workers clients frames) pool)
    (coroutine : coroutines handle = true) :
    pool.ops.count (.onCompleted handle) + (if (pool.shared.tasks handle).completed = true then 1 else 0) =
      if (pool.shared.tasks handle).coroutine = .final then 1 else 0 := by
  apply Pool.invariant_of (fun shared ops => .callable handle ∉ ops ∧
      ops.count (.body handle) = if (shared.tasks handle).coroutine = .running then 1 else 0)
    (fun shared ops => ops.count (.onCompleted handle) + (if (shared.tasks handle).completed = true then 1 else 0) =
      if (shared.tasks handle).coroutine = .final then 1 else 0) _ _ _ reach
  · exact fun reached => ⟨not_callable reached coroutine, count_body reached⟩
  · rw [count_initial (by simp) (by simp)]
    simp [initial, coroutine, TaskState.ofCoroutine]
  · rintro shared shared' op pushed rest choice ⟨callable, bodies⟩ - before - executed
    have moves := execute_moves executed
    rw [Multiset.count_add, Multiset.coe_count]
    simp only [moves.completed_iff]
    by_cases completing : op = .onCompleted handle
    · subst completing
      rw [Multiset.count_cons_self] at before
      cases moves with
      | call user performed => cases user
      | complete =>
          have final : (shared.tasks handle).coroutine = .final := by
            by_contra unfinished
            rw [if_neg unfinished] at before
            omega
          rw [if_pos final] at before
          have alone : rest.count (.onCompleted handle) = 0 := by omega
          simp [alone, final]
    · rw [Multiset.count_cons_of_ne (Ne.symm completing)] at before
      simp only [completing, or_false]
      by_cases body : op = .body handle
      · subst body
        -- The body is pending, so the coroutine runs and nothing is completed yet.
        have running : (shared.tasks handle).coroutine = .running := by
          by_contra idle
          rw [if_neg idle, Multiset.count_cons_self] at bodies
          omega
        simp only [running, reduceCtorEq, if_false] at before
        have alone : rest.count (.onCompleted handle) = 0 := by omega
        have incomplete : (shared.tasks handle).completed = false := by
          by_contra completed
          rw [Bool.not_eq_false] at completed
          rw [if_pos completed] at before
          omega
        rw [alone, incomplete]
        cases moves with
        | call user performed =>
            rw [count_request performed rfl, coroutine_perform performed, running]
            simp
        | awaitReady completed => simp [running]
        | suspend incomplete => simp [Shared.setCoroutine]
        | coReturn => simp
      · have none : pushed.count (.onCompleted handle) = 0 := by
          rw [List.count_eq_zero]
          intro member
          rcases moves.pushes _ member with rfl | rfl
          · exact body rfl
          · exact callable (Multiset.mem_cons_self _ _)
        rw [none, Nat.zero_add, before]
        generalize (shared'.tasks handle).coroutine = after, moves.bodies body = bodies
        cases bodies with
        | stays none => rfl
        | resumes one idle unfinished => rw [if_neg unfinished, if_neg (by simp)]

end Runs

end SoulLib.Async
