import SoulLib.Async.Registration

/-! The life of one coroutine.

Whatever the threads do, a coroutine is started from its initial suspend point,
suspends and returns only by its own body, and is resumed from the `co_await` in
which it is suspended.
-/

set_option autoImplicit false

namespace SoulLib.Async

open SoulLib.Semantics (Pool System)

inductive Turn where
  | started
  | suspended (awaited : TaskId)
  | resumed (awaited : TaskId)
  deriving DecidableEq, Repr

/-- The turns of a coroutine that is where it is. Each suspension is followed by
exactly one resumption, or is the last turn. -/
inductive Lived : List Turn → Coroutine → Prop where
  | null : Lived [] .null
  | initial : Lived [] .initial
  | start : Lived [.started] .running
  | suspend {turns : List Turn} (awaited : TaskId) (lived : Lived turns .running) :
      Lived (turns ++ [.suspended awaited]) (.awaiting awaited)
  | resume {turns : List Turn} {awaited : TaskId} (lived : Lived turns (.awaiting awaited)) :
      Lived (turns ++ [.resumed awaited]) .running
  | finish {turns : List Turn} (lived : Lived turns .running) : Lived turns .final

theorem Lived.eq_nil {turns : List Turn} (lived : Lived turns .initial) : turns = [] := by
  cases lived
  rfl

theorem Lived.count_started {turns : List Turn} {coroutine : Coroutine} (lived : Lived turns coroutine) :
    turns.count .started = if coroutine = .null ∨ coroutine = .initial then 0 else 1 := by
  induction lived with
  | null => rfl
  | initial => rfl
  | start => rfl
  | suspend awaited lived ih => simp [ih]
  | resume lived ih => simp [ih]
  | finish lived ih => simp [ih]

section Advances

variable {T E : Type}

def Event.turn (handle : TaskId) : Event T E → Option Turn
  | .started task => if task = handle then some .started else none
  | .suspended task awaited => if task = handle then some (.suspended awaited) else none
  | .resumed task awaited => if task = handle then some (.resumed awaited) else none
  | _ => none

/-- The turns of a coroutine so far. -/
def Shared.life (shared : Shared T E) (handle : TaskId) : List Turn := shared.log.filterMap (Event.turn handle)

/-- The task that a body chooses to await. -/
def Choice.awaited : Choice T E → Option TaskId
  | .coAwait task => some task
  | _ => none

variable (handle : TaskId) (shared shared' : Shared T E)

/-- What a move does to a coroutine. -/
inductive Advances (op : Op) (choice : Choice T E) : Prop where
  | stay (coroutine : (shared'.tasks handle).coroutine = (shared.tasks handle).coroutine)
      (life : shared'.life handle = shared.life handle)
  | start (via : op.Resumes handle) (before : (shared.tasks handle).coroutine = .initial)
      (after : (shared'.tasks handle).coroutine = .running)
      (life : shared'.life handle = shared.life handle ++ [.started])
  | wake {awaited : TaskId} (before : (shared.tasks handle).coroutine = .awaiting awaited)
      (after : (shared'.tasks handle).coroutine = .running)
      (life : shared'.life handle = shared.life handle ++ [.resumed awaited])
  | suspend (awaited : TaskId) (body : op = .body handle) (chosen : choice.awaited = some awaited)
      (incomplete : (shared.tasks awaited).completed = false)
      (after : (shared'.tasks handle).coroutine = .awaiting awaited)
      (life : shared'.life handle = shared.life handle ++ [.suspended awaited])
  | finish (outcome : Except E T) (body : op = .body handle) (chosen : choice = .finish outcome)
      (after : (shared'.tasks handle).coroutine = .final)
      (life : shared'.life handle = shared.life handle)

variable {handle shared shared'} {op : Op} {choice : Choice T E}

theorem Advances.lived (advances : Advances handle shared shared' op choice)
    (running : op = .body handle → (shared.tasks handle).coroutine = .running)
    (lived : Lived (shared.life handle) (shared.tasks handle).coroutine) :
    Lived (shared'.life handle) (shared'.tasks handle).coroutine := by
  cases advances with
  | stay coroutine life =>
      rw [coroutine, life]
      exact lived
  | start via before after life =>
      rw [before] at lived
      rw [after, life, lived.eq_nil]
      exact .start
  | wake before after life =>
      rw [before] at lived
      rw [after, life]
      exact .resume lived
  | suspend awaited body chosen incomplete after life =>
      rw [running body] at lived
      rw [after, life]
      exact .suspend awaited lived
  | finish outcome body chosen after life =>
      rw [running body] at lived
      rw [after, life]
      exact .finish lived

theorem Advances.left (advances : Advances handle shared shared' op choice) :
    ((shared.tasks handle).coroutine ≠ .initial → (shared'.tasks handle).coroutine ≠ .initial) ∧
      ((shared.tasks handle).coroutine ≠ .null → (shared'.tasks handle).coroutine ≠ .null) := by
  cases advances with
  | stay coroutine life =>
      rw [coroutine]
      exact ⟨id, id⟩
  | start via before after life => simp [after]
  | wake before after life => simp [after]
  | suspend awaited body chosen incomplete after life => simp [after]
  | finish outcome body chosen after life => simp [after]

theorem Shared.life_record {event : Event T E} (none : event.turn handle = none) :
    (shared.record event).life handle = shared.life handle := by
  simp [Shared.life, none]

theorem Advances.resumes {other : TaskId} {ops : List Op} (via : op.Resumes other)
    (resumes : Resumes shared other shared' ops) : Advances handle shared shared' op choice := by
  by_cases same : other = handle
  · subst same
    cases resumes with
    | start suspended =>
        refine .start via suspended ?_ ?_
        · simp [Shared.setCoroutine]
        · simp [Shared.life, Shared.setCoroutine, Event.turn]
    | wake suspended =>
        refine .wake suspended ?_ ?_
        · simp [Shared.setCoroutine]
        · simp [Shared.life, Shared.setCoroutine, Event.turn]
    | misuse broken => exact .stay rfl (Shared.life_record rfl)
  · have elsewhere : ((shared.setCoroutine other .running).tasks handle).coroutine =
        (shared.tasks handle).coroutine := by
      rw [Shared.setCoroutine, Shared.tasks_modify, if_neg (Ne.symm same)]
    cases resumes with
    | start suspended => exact .stay elsewhere (Shared.life_record (by simp [Event.turn, same]))
    | wake suspended => exact .stay elsewhere (Shared.life_record (by simp [Event.turn, same]))
    | misuse broken => exact .stay rfl (Shared.life_record rfl)

theorem Advances.of_record {event : Event T E} (none : event.turn handle = none)
    (advances : Advances handle (shared.record event) shared' op choice) :
    Advances handle shared shared' op choice := by
  have recorded : (shared.record event).life handle = shared.life handle := Shared.life_record none
  cases advances with
  | stay coroutine life => exact .stay coroutine (life.trans recorded)
  | start via before after life => exact .start via before after (by rw [life, recorded])
  | wake before after life => exact .wake before after (by rw [life, recorded])
  | suspend awaited body chosen incomplete after life =>
      exact .suspend awaited body chosen incomplete after (by rw [life, recorded])
  | finish outcome body chosen after life => exact .finish outcome body chosen after (life.trans recorded)

theorem Advances.dispatches {other : TaskId} {scheduler : Option SchedulerId} {ops : List Op}
    (via : op.dispatches = some other) (dispatches : Dispatches shared other scheduler shared' ops) :
    Advances handle shared shared' op choice := by
  cases dispatches with
  | enqueue scheduler => exact .stay rfl (Shared.life_record rfl)
  | inline resumes => exact .resumes (.inr via) resumes

theorem Advances.perform {call : Call} {ops : List Op} (performed : shared.perform call = some (shared', ops)) :
    Advances handle shared shared' op choice := by
  cases call with
  | runAsync scheduler task =>
      simp only [Shared.perform] at performed
      split at performed <;> cases performed
      refine .stay ?_ (Shared.life_record rfl)
      rw [Shared.tasks_enqueue]
      exact Shared.field_modify TaskState.coroutine rfl handle
  | frameScheduleAfter frame delay name task dependencies =>
      simp only [Shared.perform] at performed
      split at performed <;> cases performed
      exact .stay rfl rfl
  | _ =>
      cases performed
      exact .stay rfl rfl

variable [Inhabited T] {pushed : List Op}

theorem Moves.advances (moves : Moves shared op choice shared' pushed) (handle : TaskId) :
    Advances handle shared shared' op choice := by
  have modified : ∀ {task : TaskId} {change : TaskState T E → TaskState T E},
      (change (shared.tasks task)).coroutine = (shared.tasks task).coroutine →
      ((shared.modify task change).tasks handle).coroutine = (shared.tasks handle).coroutine :=
    fun same => Shared.field_modify TaskState.coroutine same handle
  cases moves with
  | call user performed => exact .perform performed
  | runHandle of resumable resumes => exact .resumes (.inl ⟨_, rfl, of⟩) resumes
  | resumeNext dispatches => exact .dispatches rfl dispatches
  | continueNow completed dispatches => exact .dispatches rfl dispatches
  | produce resumable dispatches => exact .of_record rfl (.dispatches rfl dispatches)
  -- `suspend` and `coReturn` are the only moves in which the coroutine itself acts.
  | @suspend task awaited incomplete =>
      by_cases same : task = handle
      · subst same
        refine .suspend awaited rfl rfl incomplete ?_ ?_
        · simp [Shared.setCoroutine]
        · simp [Shared.life, Shared.setCoroutine, Event.turn]
      · refine .stay ?_ (Shared.life_record (by simp [Event.turn, same]))
        rw [Shared.tasks_record, Shared.setCoroutine, Shared.tasks_modify, if_neg (Ne.symm same)]
  | @coReturn task outcome =>
      by_cases same : task = handle
      · subst same
        exact .finish outcome rfl rfl (by simp) rfl
      · refine .stay ?_ rfl
        rw [Shared.tasks_modify, if_neg (Ne.symm same)]
  | returned => exact .stay (modified (by rw [TaskState.settle_eq])) rfl
  | schedule =>
      refine .stay ?_ (Shared.life_record rfl)
      rw [Shared.tasks_record]
      exact modified rfl
  | register incomplete => exact .stay (modified rfl) rfl
  | count => exact .stay (modified rfl) rfl
  | complete => exact .stay (modified rfl) rfl
  | swap => exact .stay (modified rfl) rfl
  | park incomplete => exact .stay (modified rfl) rfl
  | release front =>
      refine .stay ?_ rfl
      exact (Shared.field_modify TaskState.coroutine rfl handle).trans (modified rfl)
  | extract =>
      refine .stay ?_ (Shared.life_record rfl)
      rw [Shared.tasks_record]
      exact modified (by rw [TaskState.observe_eq])
  | scheduleState => exact .stay rfl ((Shared.life_record rfl).trans (Shared.life_record rfl))
  | pop front => exact .stay rfl (Shared.life_record rfl)
  | finishJob => exact .stay rfl (Shared.life_record rfl)
  | emplace => exact .stay rfl (Shared.life_record rfl)
  | passed => exact .stay rfl (Shared.life_record rfl)
  | _ => exact .stay rfl rfl

theorem Job.Resumes.unique {job : Job} {handle other : TaskId} (one : job.Resumes handle)
    (two : job.Resumes other) : handle = other := by
  rcases one with rfl | rfl <;> rcases two with same | same <;> cases same <;> rfl

theorem Moves.left_of_runJob {job : Job} {handle : TaskId}
    (moves : Moves shared (.runJob job) choice shared' pushed) (of : job.Resumes handle) :
    (shared'.tasks handle).coroutine ≠ .initial := by
  cases moves with
  | call user performed => cases user
  | runHandle other resumable resumes =>
      obtain rfl := other.unique of
      cases resumes with
      | start suspended => simp [Shared.setCoroutine]
      | wake suspended => simp [Shared.setCoroutine]
      | misuse broken => rcases broken with broken | broken | broken <;> simp [broken]
  | skipHandle other idle =>
      obtain rfl := other.unique of
      intro fresh
      rw [fresh] at idle
      cases idle
  | runCallable => rcases of with same | same <;> cases same

end Advances

section Outcomes

variable {T E : Type}

/-- The task has produced a value or an exception, which may have been taken since. -/
def Shared.Produced (shared : Shared T E) (task : TaskId) : Prop :=
  (shared.tasks task).result.isSome ∨ (shared.tasks task).exception.isSome ∨
    ∃ outcome, .observed task outcome ∈ shared.log

variable {shared shared' : Shared T E} {task : TaskId}

theorem Shared.Produced.mono (produced : shared.Produced task)
    (result : (shared'.tasks task).result = (shared.tasks task).result)
    (exception : (shared'.tasks task).exception = (shared.tasks task).exception)
    (log : ∀ event ∈ shared.log, event ∈ shared'.log) : shared'.Produced task := by
  rcases produced with value | thrown | ⟨outcome, observed⟩
  · exact .inl (by rw [result]; exact value)
  · exact .inr (.inl (by rw [exception]; exact thrown))
  · exact .inr (.inr ⟨outcome, log _ observed⟩)

theorem TaskState.settle_isSome (state : TaskState T E) (outcome : Except E T) :
    (state.settle outcome).result.isSome ∨ (state.settle outcome).exception.isSome := by
  cases outcome with
  | ok value => exact .inl rfl
  | error exception => exact .inr rfl

theorem Shared.produced_modify {change : TaskState T E → TaskState T E}
    (some : (change (shared.tasks task)).result.isSome ∨ (change (shared.tasks task)).exception.isSome) :
    (shared.modify task change).Produced task := by
  unfold Shared.Produced
  rw [Shared.tasks_modify_self]
  exact some.imp_right .inl

variable {op : Op} {pushed : List Op}

/-- The outcome of a task: its value and its exception. -/
def TaskState.outcome (state : TaskState T E) : Option T × Option E := (state.result, state.exception)

variable [Inhabited T] {choice : Choice T E}

theorem Writes.outcome {tasks : TaskId → TaskState T E} (writes : Writes shared op choice tasks)
    (task : TaskId) : (tasks task).outcome = (shared.tasks task).outcome ∨
      ((tasks task).result.isSome ∨ (tasks task).exception.isSome) ∨ op = .extract task := by
  have modified : ∀ {other : TaskId} {change : TaskState T E → TaskState T E},
      (change (shared.tasks other)).outcome = (shared.tasks other).outcome →
      ((shared.modify other change).tasks task).outcome = (shared.tasks task).outcome :=
    fun same => Shared.field_modify TaskState.outcome same task
  cases writes with
  | nothing => exact .inl rfl
  | own other scheduler via => exact .inl (modified rfl)
  | start before => exact .inl (modified rfl)
  | wake before => exact .inl (modified rfl)
  | suspend incomplete => exact .inl (modified rfl)
  | @coReturn other outcome =>
      rw [Shared.tasks_modify]
      split
      · exact .inr (.inl (TaskState.settle_isSome _ outcome))
      · exact .inl rfl
  | @returned other outcome =>
      rw [Shared.tasks_modify]
      split
      · exact .inr (.inl (TaskState.settle_isSome _ outcome))
      · exact .inl rfl
  | register incomplete => exact .inl (modified rfl)
  | count => exact .inl (modified rfl)
  | complete => exact .inl (modified rfl)
  | swap => exact .inl (modified rfl)
  | park incomplete => exact .inl (modified rfl)
  | release front => exact .inl ((Shared.field_modify TaskState.outcome rfl task).trans (modified rfl))
  | @extract other _ =>
      rw [Shared.tasks_modify]
      split
      · next same => exact .inr (.inr (by rw [same]))
      · exact .inl rfl

theorem Shared.Produced.moves (produced : shared.Produced task) (moves : Moves shared op choice shared' pushed) :
    shared'.Produced task := by
  rcases moves.writes.outcome task with same | settled | rfl
  · obtain ⟨result, exception⟩ := Prod.mk.inj same
    exact produced.mono result exception moves.logged
  · exact settled.imp_right .inl
  · cases moves with
    | call user performed => cases user
    | extract => exact .inr (.inr ⟨_, List.mem_append_right _ (List.mem_singleton_self _)⟩)

theorem Moves.onCompleted (moves : Moves shared op choice shared' pushed) (member : .onCompleted task ∈ pushed) :
    shared'.Produced task := by
  have notCalled : ∀ {call : Call} {ops : List Op} {self : Op}, shared.perform call = some (shared', ops) →
      self.isUser = true → .onCompleted task ∉ ops ++ [self] := by
    intro call ops self performed user within
    rcases List.mem_append.mp within with request | same
    · cases isRequest_of_perform performed _ request
    · rw [← List.mem_singleton.mp same] at user
      cases user
  rcases moves.pushes _ member with rfl | rfl
  · cases moves with
    | call user performed => exact absurd member (notCalled performed user)
    | coReturn => exact Shared.produced_modify (TaskState.settle_isSome _ _)
    | awaitReady completed => rcases List.mem_pair.mp member with same | same <;> cases same
    | suspend incomplete => cases List.mem_singleton.mp member
  · cases moves with
    | call user performed => exact absurd member (notCalled performed user)
    | returned => exact Shared.produced_modify (TaskState.settle_isSome _ _)

variable {coroutines : TaskId → Bool} {workers : List SchedulerId} {clients : Nat}
  {frames : FrameId → SchedulerId} {pool : Pool (Shared T E) Op}
  {guard : Shared T E → Multiset Op → Op → Choice T E → Prop}

theorem produced_of_completed
    (reach : (runtime T E).Reaches (Pool.admits guard) (initial coroutines workers clients frames) pool)
    (completed : (pool.shared.tasks task).completed = true) : pool.shared.Produced task := by
  have both : ((pool.shared.tasks task).completed = true → pool.shared.Produced task) ∧
      (.onCompleted task ∈ pool.ops → pool.shared.Produced task) := by
    apply Pool.invariant (fun shared ops => ((shared.tasks task).completed = true → shared.Produced task) ∧
      (.onCompleted task ∈ ops → shared.Produced task)) _ _ reach
    · constructor
      · intro completed
        simp only [initial] at completed
        split at completed <;> cases completed
      · intro member
        rcases mem_initial member with same | ⟨scheduler, same⟩ <;> cases same
    · intro shared shared' op pushed rest choice before _ executed
      have moves := execute_moves executed
      constructor
      · intro completed
        rcases moves.completed_iff.mp completed with done | rfl
        · exact (before.1 done).moves moves
        · exact (before.2 (Multiset.mem_cons_self _ _)).moves moves
      · intro member
        rcases Multiset.mem_add.mp member with new | old
        · exact moves.onCompleted (Multiset.mem_coe.mp new)
        · exact (before.2 (Multiset.mem_cons_of_mem old)).moves moves
  exact both.1 completed

theorem completed_of_final
    (reach : (runtime T E).Reaches (Pool.admits guard) (initial coroutines workers clients frames) pool) :
    (pool.shared.tasks task).coroutine = .final →
      .onCompleted task ∈ pool.ops ∨ (pool.shared.tasks task).completed = true := by
  apply Pool.invariant (fun shared ops => (shared.tasks task).coroutine = .final →
    .onCompleted task ∈ ops ∨ (shared.tasks task).completed = true) _ _ reach
  · intro final
    simp only [initial] at final
    split at final <;> cases final
  · intro shared shared' op pushed rest choice before _ executed final
    have moves := execute_moves executed
    cases moves.advances task with
    | stay coroutine life =>
        rcases before (coroutine.symm.trans final) with pending | completed
        · rcases Multiset.mem_cons.mp pending with rfl | later
          · exact .inr (moves.completed_iff.mpr (.inr rfl))
          · exact .inl (Multiset.mem_add.mpr (.inr later))
        · exact .inr (moves.completed_iff.mpr (.inl completed))
    | start via _ after _ =>
        rw [after] at final
        cases final
    | wake _ after _ =>
        rw [after] at final
        cases final
    | suspend awaited body chosen incomplete after _ =>
        rw [after] at final
        cases final
    | finish outcome body chosen after _ =>
        subst body chosen
        cases moves with
        | coReturn => exact .inl (Multiset.mem_add.mpr (.inl (by simp)))

end Outcomes

end SoulLib.Async
