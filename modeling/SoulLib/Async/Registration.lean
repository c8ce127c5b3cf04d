import SoulLib.Async.Dependencies
import SoulLib.Async.Writes

/-! Scheduling with dependencies along whole runs.

Every run shows the gate of every task. From the gate's invariant, and from the
operations of `on_completed` that are pending while a completed task still holds
registrations, follows when `schedule_state` is applied and how often.
-/

set_option autoImplicit false

namespace SoulLib.Async

open SoulLib.Semantics (Pool System)

/-- The task whose `on_completed` the operation continues. -/
def Op.completing : Op → Option TaskId
  | .resumeContinuations task | .resumeEach task _ | .notifyScheduler task
  | .releaseDependents _ task _ => some task
  | _ => none

section Completion

variable {T E : Type} [Inhabited T] {shared shared' : Shared T E} {op : Op} {choice : Choice T E}
  {pushed : List Op} {task : TaskId}

theorem Moves.completed_iff (moves : Moves shared op choice shared' pushed) :
    (shared'.tasks task).completed = true ↔ (shared.tasks task).completed = true ∨ op = .onCompleted task := by
  cases kind : op.bookkeeping with
  | false =>
      have ne : op ≠ .onCompleted task := by
        rintro rfl
        cases kind
      rw [(moves.plain kind).1.completed task]
      simp [ne]
  | true =>
      cases moves with
      | call user performed =>
          rw [not_bookkeeping_of_isUser user] at kind
          cases kind
      | @complete other _ =>
          rw [Shared.tasks_modify]
          by_cases same : task = other
          · simp [same]
          · simp [same, Ne.symm same]
      | scheduleState => simp [Shared.enqueue]
      | schedule => simp [Shared.field_modify TaskState.completed]
      | gated some => simp
      | ungated => simp
      | skipToken settled => simp
      | register incomplete => simp [Shared.field_modify TaskState.completed]
      | count => simp [Shared.field_modify TaskState.completed]
      | released empty => simp
      | release front => simp [Shared.field_modify TaskState.completed]
      | _ => cases kind

theorem completing_of_isUser (user : op.isUser = true) : op.completing = none := by
  cases op <;> first | rfl | cases user

theorem Moves.completing (moves : Moves shared op choice shared' pushed) {other : Op}
    (member : other ∈ pushed) (after : other.completing = some task) :
    op.completing = some task ∨ op = .onCompleted task := by
  -- The steps of `on_completed` follow each other, and the first of them sets the flag.
  have pushed := moves.pushes other member
  cases other with
  | resumeContinuations source =>
      cases after
      exact .inr pushed
  | resumeEach source handles =>
      cases after
      rcases pushed with rfl | ⟨handle, rfl⟩
      · exact .inl rfl
      · exact .inl rfl
  | notifyScheduler source =>
      cases after
      obtain rfl : op = _ := pushed
      exact .inl rfl
  | releaseDependents scheduler source ready =>
      cases after
      rcases pushed with rfl | ⟨earlier, rfl⟩
      · exact .inl rfl
      · exact .inl rfl
  | _ => cases after

theorem Moves.completing_kept (moves : Moves shared op choice shared' pushed)
    (before : op.completing = some task) :
    (∃ other ∈ pushed, other.completing = some task) ∨
      (op = .notifyScheduler task ∧ (shared.tasks task).scheduler = none) ∨
      (shared' = shared ∧ (shared.tasks task).dependents = []) := by
  cases moves with
  | call user performed =>
      rw [completing_of_isUser user] at before
      cases before
  | swap => exact .inl ⟨_, List.mem_singleton_self _, before⟩
  | resumedAll => exact .inl ⟨_, List.mem_singleton_self _, before⟩
  | resumeNext dispatches => exact .inl ⟨_, List.mem_append_right _ (List.mem_singleton_self _), before⟩
  | notify on => exact .inl ⟨_, List.mem_singleton_self _, before⟩
  | release front => exact .inl ⟨_, List.mem_singleton_self _, before⟩
  | unnotified off =>
      cases before
      exact .inr (.inl ⟨rfl, off⟩)
  | released empty =>
      cases before
      exact .inr (.inr ⟨rfl, empty⟩)
  | _ => cases before

theorem Moves.dependents (moves : Moves shared op choice shared' pushed) {dependency : TaskId}
    (member : task ∈ (shared'.tasks dependency).dependents) :
    task ∈ (shared.tasks dependency).dependents ∨
      (shared.tasks dependency).completed = false ∧
        ∃ scheduler rest pending, op = .registerDependencies scheduler task (some dependency :: rest) pending := by
  cases kind : op.bookkeeping with
  | false =>
      rw [(moves.plain kind).1.dependents] at member
      exact .inl member
  | true =>
      cases moves with
      | call user performed =>
          rw [not_bookkeeping_of_isUser user] at kind
          cases kind
      | complete => exact .inl (by simpa [Shared.field_modify TaskState.dependents] using member)
      | scheduleState => exact .inl member
      | schedule => exact .inl (by simpa [Shared.field_modify TaskState.dependents] using member)
      | gated some => exact .inl member
      | ungated => exact .inl member
      | skipToken settled => exact .inl member
      -- the only step that adds a dependent: to a task found incomplete under its lock
      | @register scheduler other source rest pending _ incomplete =>
          rw [Shared.tasks_modify] at member
          split at member
          · next same =>
              subst same
              rcases List.mem_append.mp member with old | new
              · exact .inl old
              · obtain rfl := List.mem_singleton.mp new
                exact .inr ⟨incomplete, scheduler, rest, pending, rfl⟩
          · exact .inl member
      | count => exact .inl (by simpa [Shared.field_modify TaskState.dependents] using member)
      | released empty => exact .inl member
      -- releasing a dependent only shortens the list
      | release front =>
          rw [Shared.field_modify TaskState.dependents rfl, Shared.tasks_modify] at member
          split at member
          · next same =>
              rw [same, front]
              exact .inl (List.mem_cons_of_mem _ member)
          · exact .inl member
      | _ => cases kind

end Completion

/-- The tokens that the operation may still register the task with, or has released it from. -/
def Op.names (task : TaskId) : Op → List TaskToken
  | .registerDependencies _ other rest _ | .countDependency _ other rest _ => if other = task then rest else []
  | .releaseDependents _ dependency ready => if task ∈ ready then [some dependency] else []
  | _ => []

/-- The token is in a dependency list with which the task was scheduled. -/
def Shared.Names {T E : Type} (shared : Shared T E) (task : TaskId) (token : TaskToken) : Prop :=
  ∃ dependencies ∈ shared.schedules task, token ∈ dependencies

section Naming

variable {T E : Type} [Inhabited T] {shared shared' : Shared T E} {op : Op} {choice : Choice T E}
  {pushed : List Op} {task : TaskId}

theorem Op.Gateless.names (gateless : op.Gateless) : op.names task = [] := by
  have phase := (gateless task).1
  have applies := (gateless task).2
  cases op with
  | registerDependencies scheduler other rest pending =>
      simp only [Op.phase, ite_eq_right_iff, reduceCtorEq, imp_false] at phase
      simp [Op.names, phase]
  | countDependency scheduler other rest pending =>
      simp only [Op.phase, ite_eq_right_iff, reduceCtorEq, imp_false] at phase
      simp [Op.names, phase]
  | releaseDependents scheduler dependency ready =>
      simp only [Op.applies, List.count_eq_zero] at applies
      simp [Op.names, applies]
  | _ => rfl

theorem mem_names_release {scheduler : SchedulerId} {dependency : TaskId} {ready : List TaskId}
    {token : TaskToken} : token ∈ (Op.releaseDependents scheduler dependency ready).names task ↔
      task ∈ ready ∧ token = some dependency := by
  simp only [Op.names]
  split
  · next within => simp [within]
  · next outside => simp [outside]

theorem Moves.schedules (moves : Moves shared op choice shared' pushed) (task : TaskId) :
    shared'.schedules task = shared.schedules task ∨
      ∃ scheduler dependencies, op = .schedule scheduler task dependencies ∧
        shared'.schedules task = shared.schedules task ++ [dependencies] := by
  cases concerned : op.concerns task shared with
  | false => exact .inl (moves.quiet task concerned).schedules
  | true =>
      cases moves with
      | call user performed => cases op <;> first | cases concerned | cases user
      | @schedule scheduler other dependencies _ =>
          obtain rfl : other = task := by simpa [Op.concerns] using concerned
          exact .inr ⟨scheduler, dependencies, rfl, by simp [Shared.schedules, Event.schedules]⟩
      | gated some => exact .inl rfl
      | ungated => exact .inl rfl
      | skipToken settled => exact .inl rfl
      | register incomplete => exact .inl rfl
      | count => exact .inl rfl
      | released empty => exact .inl rfl
      | release front => exact .inl rfl
      | _ => cases concerned

theorem Shared.Names.moves {token : TaskToken} (named : shared.Names task token)
    (moves : Moves shared op choice shared' pushed) : shared'.Names task token := by
  obtain ⟨dependencies, member, within⟩ := named
  refine ⟨dependencies, ?_, within⟩
  rcases moves.schedules task with same | ⟨_, _, -, more⟩
  · rw [same]
    exact member
  · rw [more]
    exact List.mem_append_left _ member

theorem Moves.names (moves : Moves shared op choice shared' pushed) {other : Op} (member : other ∈ pushed)
    {token : TaskToken} (named : token ∈ other.names task) :
    token ∈ op.names task ∨ shared'.Names task token ∨
      ∃ dependency, token = some dependency ∧ task ∈ (shared.tasks dependency).dependents := by
  cases kind : op.bookkeeping with
  | false =>
      rw [((moves.plain kind).2 other member).names] at named
      cases named
  | true =>
      cases moves with
      | call user performed =>
          rw [not_bookkeeping_of_isUser user] at kind
          cases kind
      | complete =>
          obtain rfl := List.mem_singleton.mp member
          cases named
      | scheduleState => cases member
      | @schedule scheduler scheduled dependencies _ =>
          obtain rfl := List.mem_singleton.mp member
          simp only [Op.names] at named
          split at named
          · next same =>
              subst same
              refine .inr (.inl ⟨dependencies, ?_, named⟩)
              simp [Shared.schedules, Event.schedules]
          · cases named
      | gated some => cases member
      | ungated =>
          obtain rfl := List.mem_singleton.mp member
          cases named
      | skipToken settled =>
          obtain rfl := List.mem_singleton.mp member
          simp only [Op.names] at named ⊢
          split at named
          · next same => simp [same, named]
          · cases named
      | register incomplete =>
          obtain rfl := List.mem_singleton.mp member
          simp only [Op.names] at named ⊢
          split at named
          · next same => simp [same, named]
          · cases named
      | count =>
          obtain rfl := List.mem_singleton.mp member
          exact .inl named
      | released empty =>
          obtain ⟨_, -, rfl⟩ := List.mem_map.mp member
          cases named
      -- The dependent just released was named by the list of dependents, the others already stood in `ready`.
      | @release scheduler dependency dependent ready rest _ front =>
          obtain rfl := List.mem_singleton.mp member
          obtain ⟨within, rfl⟩ := mem_names_release.mp named
          by_cases old : task ∈ ready
          · exact .inl (mem_names_release.mpr ⟨old, rfl⟩)
          · refine .inr (.inr ⟨dependency, rfl, ?_⟩)
            split at within
            · have new := (List.mem_append.mp within).resolve_left old
              rw [front, List.mem_singleton.mp new]
              exact List.mem_cons_self
            · exact absurd within old
      | _ => cases kind

omit [Inhabited T] in
theorem Shared.applied_pos :
    0 < shared.applied task ↔ ∃ scheduler, .enqueued scheduler (.resumeState task) ∈ shared.log := by
  unfold Shared.applied
  rw [List.countP_pos_iff]
  constructor
  · rintro ⟨event, member, applies⟩
    unfold Event.applies at applies
    split at applies
    · next scheduler other =>
        obtain rfl : other = task := by simpa using applies
        exact ⟨scheduler, member⟩
    · cases applies
  · rintro ⟨scheduler, member⟩
    exact ⟨_, member, by simp [Event.applies]⟩

end Naming

section Runs

variable {T E : Type} {coroutines : TaskId → Bool} {workers : List SchedulerId} {clients : Nat}
  {frames : FrameId → SchedulerId} {pool : Pool (Shared T E) Op} {task : TaskId}

theorem mem_initial {op : Op}
    (member : op ∈ (initial coroutines workers clients frames : Pool (Shared T E) Op).ops) :
    op = .user ∨ ∃ scheduler, op = .loopGuard scheduler := by
  simp only [Pool.ops, initial, threads, Multiset.mem_coe, List.mem_flatten, List.mem_append, List.mem_map,
    List.mem_replicate] at member
  obtain ⟨stack, ⟨scheduler, -, rfl⟩ | ⟨-, rfl⟩, member⟩ := member
  · exact .inr ⟨scheduler, List.mem_singleton.mp member⟩
  · exact .inl (List.mem_singleton.mp member)

/-- The gate of a task before anything has run. -/
def Gate.closed : Gate TaskId 32 where
  completed := fun _ => false
  held := 0
  counter := 0
  phase := .idle
  dependencies := []
  opened := 0

theorem gates_initial :
    Gates task (initial coroutines workers clients frames : Pool (Shared T E) Op).shared
      (initial coroutines workers clients frames : Pool (Shared T E) Op).ops .closed := by
  refine ⟨?_, ?_, ?_, ?_, rfl, ?_⟩
  · funext dependency
    simp only [initial, Gate.closed]
    split <;> rfl
  · intro dependency
    simp only [initial, Gate.closed]
    split <;> rfl
  · simp only [initial, Gate.closed]
    split <;> rfl
  · apply Multiset.eq_zero_of_forall_notMem
    intro phase member
    obtain ⟨op, pending, stands⟩ := (Multiset.mem_filterMap _ _).mp member
    rcases mem_initial pending with rfl | ⟨scheduler, rfl⟩ <;> cases stands
  · change 0 = 0 + _
    rw [Nat.zero_add, eq_comm]
    apply Multiset.sum_eq_zero
    intro weight member
    obtain ⟨op, pending, rfl⟩ := Multiset.mem_map.mp member
    rcases mem_initial pending with rfl | ⟨scheduler, rfl⟩ <;> rfl

variable [Inhabited T]

section Unguarded

variable {guard : Shared T E → Multiset Op → Op → Choice T E → Prop}
  (reach : (runtime T E).Reaches (Pool.admits guard) (initial coroutines workers clients frames) pool)

/-- `on_completed` has marked its task before anything else. -/
def Marked (shared : Shared T E) (ops : Multiset Op) : Prop :=
  ∀ op ∈ ops, ∀ task, op.completing = some task → (shared.tasks task).completed = true

include reach in
theorem marked : Marked pool.shared pool.ops := by
  apply Pool.invariant Marked _ _ reach
  · intro op member task completing
    rcases mem_initial member with rfl | ⟨scheduler, rfl⟩ <;> cases completing
  · intro shared shared' op pushed rest choice before _ executed other member task completing
    have moves := execute_moves executed
    rw [moves.completed_iff]
    rcases Multiset.mem_add.mp member with new | old
    · rcases moves.completing (Multiset.mem_coe.mp new) completing with here | here
      · exact .inl (before op (Multiset.mem_cons_self _ _) task here)
      · exact .inr here
    · exact .inl (before other (Multiset.mem_cons_of_mem old) task completing)

/-- Who holds a registration of the task is named by its dependency list. -/
def Named (task : TaskId) (shared : Shared T E) (ops : Multiset Op) : Prop :=
  (∀ dependency, task ∈ (shared.tasks dependency).dependents → shared.Names task (some dependency)) ∧
    ∀ op ∈ ops, ∀ token ∈ op.names task, shared.Names task token

include reach in
theorem named : Named task pool.shared pool.ops := by
  apply Pool.invariant (Named task) _ _ reach
  · constructor
    · intro dependency member
      simp only [initial] at member
      split at member <;> cases member
    · intro op member token named
      rcases mem_initial member with rfl | ⟨scheduler, rfl⟩ <;> cases named
  · intro shared shared' op pushed rest choice before _ executed
    have moves := execute_moves executed
    have self := before.2 op (Multiset.mem_cons_self _ _)
    constructor
    · intro dependency member
      rcases moves.dependents member with old | ⟨-, scheduler, remaining, pending, rfl⟩
      · exact (before.1 dependency old).moves moves
      · exact (self (some dependency) (by simp [Op.names])).moves moves
    · intro other member token named
      rcases Multiset.mem_add.mp member with new | old
      · rcases moves.names (Multiset.mem_coe.mp new) named with here | here | ⟨dependency, rfl, held⟩
        · exact (self token here).moves moves
        · exact here
        · exact (before.1 dependency held).moves moves
      · exact (before.2 other (Multiset.mem_cons_of_mem old) token named).moves moves

end Unguarded

theorem Gate.sound_closed : Gate.closed.Sound :=
  ⟨by decide, fun _ => rfl, by decide, rfl, rfl, rfl⟩

theorem gate_reached
    (reach : (runtime T E).Reaches (Pool.admits (Timely task)) (initial coroutines workers clients frames) pool) :
    ∃ gate, Gates task pool.shared pool.ops gate ∧ gate.Sound := by
  apply Pool.invariant_of Marked (fun shared ops => ∃ gate, Gates task shared ops gate ∧ gate.Sound) marked _ _
    reach
  · exact ⟨.closed, gates_initial, Gate.sound_closed⟩
  · intro shared shared' op pushed rest choice marked _ before timely executed
    obtain ⟨gate, gates, sound⟩ := before
    have completed : ∀ scheduler dependency ready, op = .releaseDependents scheduler dependency ready →
        (shared.tasks dependency).completed = true := by
      rintro scheduler dependency ready rfl
      exact marked _ (Multiset.mem_cons_self _ _) dependency rfl
    obtain ⟨gate', stepped, gates'⟩ := gates.step task (execute_moves executed) completed timely
    exact ⟨gate', gates', sound.step stepped⟩

theorem completing_of_held
    (reach : (runtime T E).Reaches (Pool.admits (Timely task)) (initial coroutines workers clients frames) pool) :
    ∀ dependency, (pool.shared.tasks dependency).completed = true →
      task ∈ (pool.shared.tasks dependency).dependents →
      ∃ op ∈ pool.ops, op.completing = some dependency := by
  apply Pool.invariant (fun shared ops => ∀ dependency, (shared.tasks dependency).completed = true →
    task ∈ (shared.tasks dependency).dependents → ∃ op ∈ ops, op.completing = some dependency) _ _ reach
  · intro dependency completed member
    simp only [initial] at member
    split at member <;> cases member
  · intro shared shared' op pushed rest choice before timely executed dependency completed member
    have moves := execute_moves executed
    rcases moves.completed_iff.mp completed with done | rfl
    · have held : task ∈ (shared.tasks dependency).dependents := by
        rcases moves.dependents member with held | ⟨incomplete, -⟩
        · exact held
        · rw [done] at incomplete
          cases incomplete
      obtain ⟨other, pending, completing⟩ := before dependency done held
      rcases Multiset.mem_cons.mp pending with rfl | old
      · rcases moves.completing_kept completing with ⟨next, new, kept⟩ | ⟨rfl, off⟩ | ⟨-, empty⟩
        · exact ⟨next, Multiset.mem_add.mpr (.inl (Multiset.mem_coe.mpr new)), kept⟩
        · exact absurd off (timely held)
        · rw [empty] at held
          cases held
      · exact ⟨other, Multiset.mem_add.mpr (.inr old), completing⟩
    · cases moves with
      | call user performed => cases user
      | complete => exact ⟨_, Multiset.mem_add.mpr (.inl (Multiset.mem_coe.mpr (List.mem_singleton_self _))), rfl⟩

/-- The operation belongs to a call of `schedule` or `schedule_state` for the task. -/
def Op.scheduling (task : TaskId) : Op → Bool
  | .schedule _ other _ | .registerDependencies _ other _ _ | .countDependency _ other _ _
  | .scheduleState _ other => other = task
  | _ => false

theorem scheduling_of_phase {op : Op} {task : TaskId} {phase : Phase TaskId 32} (stands : op.phase task = some phase) :
    op.scheduling task = true := by
  cases op with
  | registerDependencies scheduler other rest pending =>
      simp only [Op.phase, Option.ite_none_right_eq_some] at stands
      exact decide_eq_true stands.1
  | countDependency scheduler other rest pending =>
      simp only [Op.phase, Option.ite_none_right_eq_some] at stands
      exact decide_eq_true stands.1
  | _ => cases stands

/-- `schedule` and the `on_completed` of every dependency in the list have returned. -/
structure Returned (task : TaskId) (dependencies : List TaskToken) (pool : Pool (Shared T E) Op) : Prop where
  scheduled : dependencies ∈ pool.shared.schedules task
  idle : ∀ op ∈ pool.ops, op.scheduling task = false
  completed : Complete (fun dependency => (pool.shared.tasks dependency).completed) dependencies
  finished : ∀ dependency, some dependency ∈ dependencies → ∀ op ∈ pool.ops, op.completing ≠ some dependency

theorem Returned.gate {dependencies : List TaskToken} (returned : Returned task dependencies pool)
    (reach : (runtime T E).Reaches (Pool.admits (Timely task)) (initial coroutines workers clients frames) pool) :
    (pool.shared.tasks task).pendingDependencies = 0 ∧ pool.shared.applied task = 1 := by
  obtain ⟨gate, gates, sound⟩ := gate_reached reach
  have schedules := gates.schedules
  have phaseless : gate.phase.pending = 0 := by
    rw [← gates.phase]
    apply Multiset.eq_zero_of_forall_notMem
    intro phase member
    obtain ⟨op, pending, stands⟩ := (Multiset.mem_filterMap _ _).mp member
    exact Bool.false_ne_true ((returned.idle op pending).symm.trans (scheduling_of_phase stands))
  -- No operation of `schedule` is pending, so its loop is over.
  have settled : gate.phase = .settled := by
    unfold Gate.schedules at schedules
    cases here : gate.phase with
    | idle =>
        rw [here] at schedules
        have scheduled := returned.scheduled
        rw [schedules] at scheduled
        cases scheduled
    | registering rest pending => simp [here, Phase.pending] at phaseless
    | counting rest pending => simp [here, Phase.pending] at phaseless
    | settled => rfl
  have same : dependencies = gate.dependencies := by
    have scheduled := returned.scheduled
    rw [schedules, Gate.schedules, settled] at scheduled
    exact List.mem_singleton.mp scheduled
  have dependency : ∀ dependency, pool.shared.Names task (some dependency) → some dependency ∈ dependencies := by
    rintro dependency ⟨list, member, within⟩
    rw [schedules, Gate.schedules, settled] at member
    rw [same, ← List.mem_singleton.mp member]
    exact within
  -- A registration that is left would belong to a source whose `on_completed` is under way.
  have empty : gate.held = 0 := by
    apply Multiset.eq_zero_of_forall_notMem
    intro source holds
    have held : task ∈ (pool.shared.tasks source).dependents := by
      rw [← List.count_pos_iff, ← gates.held]
      exact Multiset.count_pos.mpr holds
    have listed := dependency source ((named reach).1 source held)
    obtain ⟨op, pending, completing⟩ := completing_of_held reach source (returned.completed source listed) held
    exact returned.finished source listed op pending completing
  have quiet : (pool.ops.map (Op.applies task)).sum = 0 := by
    apply Multiset.sum_eq_zero
    intro weight member
    obtain ⟨op, pending, rfl⟩ := Multiset.mem_map.mp member
    cases op with
    | scheduleState scheduler other => simpa [Op.scheduling, Op.applies] using returned.idle _ pending
    | releaseDependents scheduler source ready =>
        rw [Op.applies, List.count_eq_zero]
        intro within
        have name := (named reach).2 _ pending _ (mem_names_release.mpr ⟨within, rfl⟩)
        exact returned.finished source (dependency source name) _ pending rfl
    | _ => rfl
  have opened := gates.opened
  rw [sound.opened settled empty, quiet] at opened
  refine ⟨?_, by omega⟩
  have consistent := sound.consistent
  simp only [Gate.Consistent, settled, empty, Multiset.card_zero] at consistent
  rw [← gates.counter]
  exact BitVec.eq_of_toNat_eq consistent.1

theorem complete_of_applied
    (reach : (runtime T E).Reaches (Pool.admits (Timely task)) (initial coroutines workers clients frames) pool)
    (applied : 0 < pool.shared.applied task) {dependencies : List TaskToken}
    (scheduled : dependencies ∈ pool.shared.schedules task) :
    Complete (fun dependency => (pool.shared.tasks dependency).completed) dependencies := by
  obtain ⟨gate, gates, sound⟩ := gate_reached reach
  have opened := gates.opened
  have once := sound.once
  have complete := sound.complete (by omega)
  rw [gates.completed] at complete
  rw [gates.schedules, Gate.schedules] at scheduled
  split at scheduled
  · cases scheduled
  all_goals
    rw [List.mem_singleton.mp scheduled]
    exact complete

/-- A task is handed to `schedule_state` exactly once, after all its dependencies,
and its counter never goes below zero. -/
theorem schedule_state_applied_once
    (reach : (runtime T E).Reaches (Pool.admits (Timely task)) (initial coroutines workers clients frames) pool) :
    pool.shared.applied task ≤ 1 ∧
      (pool.shared.applied task = 1 → ∀ dependencies ∈ pool.shared.schedules task,
        Complete (fun dependency => (pool.shared.tasks dependency).completed) dependencies) ∧
      (∀ dependencies, Returned task dependencies pool → pool.shared.applied task = 1) ∧
      ∀ thread choice scheduler dependency ready,
        pool.next thread = some (.releaseDependents scheduler dependency ready) →
        (pool.shared.tasks dependency).dependents.head? = some task →
        pool.admits (Timely task) (thread, choice) →
        0 < (pool.shared.tasks task).pendingDependencies.toNat := by
  obtain ⟨gate, gates, sound⟩ := gate_reached reach
  have opened := gates.opened
  have once := sound.once
  refine ⟨by omega, ?_, fun _ returned => (returned.gate reach).2, ?_⟩
  · intro applied dependencies scheduled
    exact complete_of_applied reach (by omega) scheduled
  · intro thread choice scheduler dependency ready moving front admitted
    have timely := admitted _ moving front
    rw [← gates.counter]
    exact sound.counter_pos (gates.timely _ timely) (gates.holds _ front)

end Runs

/-- One worker and one client; the tasks below ten are coroutines. -/
def small : Pool (Shared Unit Unit) Op := initial (· < 10) [0] 1 fun _ => 0

/-- The client schedules task 1, and task 0 after it; then the worker runs task 1. -/
def chained : Pool (Shared Unit Unit) Op :=
  (runtime Unit Unit).after (Pool.admits (Timely 0)) small
    ((1, .call (.schedule 0 (some 1) [])) :: proceed 1 3 ++ (1, .call (.schedule 0 (some 0) [some 1])) ::
      proceed 1 4 ++ proceed 0 3 ++ (0, .finish (.ok ())) :: proceed 0 7) (by decide)

theorem returned_chained : Returned 0 [some 1] chained := by
  refine ⟨by decide, by decide, by decide, ?_⟩
  intro dependency member
  obtain rfl : dependency = 1 := by simpa using member
  decide

theorem schedule_state_applied_once_chained : chained.shared.applied 0 = 1 :=
  (schedule_state_applied_once (System.reaches_after _)).2.2.1 _ returned_chained

/-- The worker is inside task 1 when the client publishes task 0 with it. Task 1
completes and releases task 0 before the client has counted the registration:
the counter wraps, and nobody applies `schedule_state` to task 0. -/
def overtaken : List (Nat × Choice Unit Unit) :=
  (1, .call (.schedule 0 (some 1) [])) :: proceed 1 3 ++ proceed 0 3 ++
    (1, .call (.schedule 0 (some 0) [some 1])) :: proceed 1 2 ++ (0, .finish (.ok ())) :: proceed 0 6

theorem schedule_state_lost :
    ((runtime Unit Unit).run (fun _ _ => True) small overtaken).map
        (fun pool => (pool.shared.tasks 0).pendingDependencies) = some 0xffffffff ∧
      ((runtime Unit Unit).run (fun _ _ => True) small (overtaken ++ proceed 1 2)).map
        (fun pool => (pool.shared.schedules 0, (pool.shared.tasks 1).completed, pool.shared.applied 0,
          pool.threads)) =
        some ([[some 1]], true, 0, [[.finishJob 0 (.resumeState 1)], [.user]]) := by
  decide

section Release

variable {T E : Type} [Inhabited T] {coroutines : TaskId → Bool} {workers : List SchedulerId} {clients : Nat}
  {frames : FrameId → SchedulerId} {pool : Pool (Shared T E) Op} {task : TaskId}

/-- Completing all dependencies releases the task: `schedule_state` has enqueued it
and its counter is back at zero. -/
theorem dependents_released
    (reach : (runtime T E).Reaches (Pool.admits (Timely task)) (initial coroutines workers clients frames) pool)
    {dependencies : List TaskToken} (returned : Returned task dependencies pool) :
    (∃ scheduler, .enqueued scheduler (.resumeState task) ∈ pool.shared.log) ∧
      (pool.shared.tasks task).pendingDependencies = 0 := by
  obtain ⟨counter, applied⟩ := returned.gate reach
  exact ⟨Shared.applied_pos.mp (by omega), counter⟩

end Release

theorem dependents_released_chained :
    (∃ scheduler, .enqueued scheduler (.resumeState 0) ∈ chained.shared.log) ∧
      (chained.shared.tasks 0).pendingDependencies = 0 :=
  dependents_released (System.reaches_after _) returned_chained

/-- Task 1 was never scheduled. A client completes it inline by `get`, and task 0
is left waiting for it. -/
theorem dependents_left_waiting :
    ((runtime Unit Unit).run (fun _ _ => True) small
        ((1, .call (.schedule 0 (some 0) [some 1])) :: proceed 1 4 ++ (1, .call (.get 1)) :: proceed 1 2 ++
          (1, .finish (.ok ())) :: proceed 1 6)).map
        (fun pool => ((pool.shared.tasks 1).completed, (pool.shared.tasks 0).pendingDependencies,
          pool.shared.applied 0, pool.threads)) =
      some (true, 1, 0, [[.loopGuard 0], [.user]]) := by
  decide

end SoulLib.Async
