import SoulLib.Async.Coroutines

/-! Frame schedulers.

A frame scheduler keeps one token for each name it was given, and `wait_for_all`
waits for those. A task that is scheduled under a name already taken is run, and
not waited for.
-/

set_option autoImplicit false

namespace SoulLib.Time

open SoulLib.Async
open SoulLib.Semantics (Pool System)

section Frames

variable {T E : Type} {shared shared' : Shared T E} {op : Op} {choice : Choice T E} {pushed : List Op}

theorem frames_resumes {handle : TaskId} {ops : List Op} (resumes : Resumes shared handle shared' ops) :
    shared'.frames = shared.frames := by
  cases resumes <;> rfl

theorem frames_dispatches {handle : TaskId} {scheduler : Option SchedulerId} {ops : List Op}
    (dispatches : Dispatches shared handle scheduler shared' ops) : shared'.frames = shared.frames := by
  cases dispatches with
  | enqueue scheduler => rfl
  | inline resumes => exact frames_resumes resumes

theorem frames_perform {call : Call} {ops : List Op} (performed : shared.perform call = some (shared', ops)) :
    shared'.frames = shared.frames := by
  cases call with
  | runAsync scheduler task =>
      simp only [Shared.perform] at performed
      split at performed <;> cases performed
      rfl
  | frameScheduleAfter frame delay name task dependencies =>
      simp only [Shared.perform] at performed
      split at performed <;> cases performed
      rfl
  | _ =>
      cases performed
      rfl

variable [Inhabited T]

theorem frames_moves (moves : Moves shared op choice shared' pushed) :
    shared'.frames = shared.frames ∨
      ∃ frame name token, op = .emplace frame name token ∧
        shared'.frames = (shared.emplace frame name token).frames := by
  cases moves with
  | call user performed => exact .inl (frames_perform performed)
  | runHandle of resumable resumes => exact .inl (frames_resumes resumes)
  | resumeNext dispatches => exact .inl (frames_dispatches dispatches)
  | continueNow completed dispatches => exact .inl (frames_dispatches dispatches)
  | @produce task _ _ _ resumable dispatches =>
      have same : (shared.record (.launched task)).frames = shared.frames := rfl
      exact .inl ((frames_dispatches dispatches).trans same)
  | emplace => exact .inr ⟨_, _, _, rfl, rfl⟩
  | _ => exact .inl rfl

theorem mem_framed_moves (moves : Moves shared op choice shared' pushed) {frame : FrameId} {task : TaskId}
    (member : task ∈ shared'.framed frame) :
    task ∈ shared.framed frame ∨ ∃ name, op = .emplace frame name (some task) := by
  obtain ⟨event, logged, read⟩ := List.mem_filterMap.mp member
  rcases moves.mem_log logged with old | new
  · exact .inl (List.mem_filterMap.mpr ⟨event, old, read⟩)
  · cases event with
    | framed other name token =>
        cases token with
        | none => cases read
        | some framed =>
            simp only at read
            split at read
            · next same =>
                subst same
                cases read
                exact .inr ⟨name, new⟩
            · cases read
    | _ => cases read

/-- The tokens that a frame scheduler waits for. -/
def tokens (shared : Shared T E) (frame : FrameId) : List TaskToken := (shared.frames frame).tokens.map Prod.snd

omit [Inhabited T] in
theorem mem_tokens_emplace {frame other : FrameId} {name : String} {token stored : TaskToken}
    (member : stored ∈ tokens shared frame) : stored ∈ tokens (shared.emplace other name token) frame := by
  unfold tokens Shared.emplace
  by_cases same : frame = other
  · subst same
    simp only [Function.update_self]
    split
    · exact member
    · rw [List.map_append]
      exact List.mem_append_left _ member
  · simp only [Function.update_of_ne same]
    exact member

omit [Inhabited T] in
theorem mem_tokens_fresh {frame : FrameId} {name : String} {token : TaskToken}
    (fresh : name ∉ (shared.frames frame).tokens.map Prod.fst) :
    token ∈ tokens (shared.emplace frame name token) frame := by
  unfold tokens Shared.emplace
  simp only [Function.update_self, if_neg fresh, List.map_append]
  exact List.mem_append_right _ (List.mem_singleton_self _)

end Frames

section Barrier

variable {T E : Type}

/-- The name and the task that the operation enters into the token map. -/
def entered (frame : FrameId) : Op → Option (String × TaskId)
  | .emplace other name (some task) => if other = frame then some (name, task) else none
  | _ => none

/-- No incomplete task is scheduled through the frame scheduler under a name already taken. -/
def Named (frame : FrameId) (shared : Shared T E) (_ : Multiset Op) (op : Op) (_ : Choice T E) : Prop :=
  ∀ entry ∈ entered frame op, entry.1 ∉ (shared.frames frame).tokens.map Prod.fst ∨
    (shared.tasks entry.2).completed = true

instance (frame : FrameId) (shared : Shared T E) (ops : Multiset Op) (op : Op) (choice : Choice T E) :
    Decidable (Named frame shared ops op choice) :=
  inferInstanceAs (Decidable (∀ entry ∈ entered frame op, entry.1 ∉ (shared.frames frame).tokens.map Prod.fst ∨
    (shared.tasks entry.2).completed = true))

/-- Every task scheduled through the frame scheduler is completed or waited for. -/
structure Awaited (frame : FrameId) (shared : Shared T E) (ops : Multiset Op) : Prop where
  kept : ∀ task ∈ shared.framed frame, (shared.tasks task).completed = true ∨ some task ∈ tokens shared frame
  waiting : ∀ rest tasks, .waitTokens frame rest tasks ∈ ops →
    ∀ task ∈ tasks, (shared.tasks task).completed = true ∨ some task ∈ rest
  returned : ∀ tasks, .barrier frame tasks ∈ shared.log → ∀ task ∈ tasks, (shared.tasks task).completed = true

variable [Inhabited T] {frame : FrameId} {shared shared' : Shared T E} {op : Op} {choice : Choice T E}
  {pushed : List Op} {rest : Multiset Op}

theorem Awaited.kept_moves (awaited : Awaited frame shared (op ::ₘ rest))
    (named : Named frame shared (op ::ₘ rest) op choice) (moves : Moves shared op choice shared' pushed) :
    ∀ task ∈ shared'.framed frame, (shared'.tasks task).completed = true ∨ some task ∈ tokens shared' frame := by
  intro task member
  rw [moves.completed_iff]
  have stored : ∀ {token : TaskToken}, token ∈ tokens shared frame → token ∈ tokens shared' frame := by
    intro token before
    rcases frames_moves moves with same | ⟨other, name, added, -, same⟩
    · unfold tokens
      rw [same]
      exact before
    · have after : token ∈ tokens (shared.emplace other name added) frame := mem_tokens_emplace before
      unfold tokens at after ⊢
      rw [same]
      exact after
  rcases mem_framed_moves moves member with old | ⟨name, rfl⟩
  · rcases awaited.kept task old with completed | token
    · exact .inl (.inl completed)
    · exact .inr (stored token)
  · rcases named (name, task) (by simp [entered]) with fresh | completed
    · right
      cases moves with
      | call user performed => cases user
      | emplace => exact mem_tokens_fresh fresh
    · exact .inl (.inl completed)

theorem Awaited.moves (awaited : Awaited frame shared (op ::ₘ rest))
    (named : Named frame shared (op ::ₘ rest) op choice) (moves : Moves shared op choice shared' pushed) :
    Awaited frame shared' (pushed + rest) := by
  have completing : ∀ {task : TaskId}, (shared.tasks task).completed = true → (shared'.tasks task).completed = true :=
    fun completed => moves.completed_iff.mpr (.inl completed)
  refine ⟨awaited.kept_moves named moves, ?_, ?_⟩
  · intro left tasks pending task member
    rcases Multiset.mem_add.mp pending with new | old
    · rcases moves.pushes _ (Multiset.mem_coe.mp new) with rfl | ⟨before, earlier, rfl⟩
      · cases moves with
        | call user performed => cases user
        | waitForAll =>
            cases List.mem_singleton.mp (Multiset.mem_coe.mp new)
            exact awaited.kept task member
      · have waiting := awaited.waiting before earlier (Multiset.mem_cons_self _ _)
        cases moves with
        | call user performed => cases user
        | passed => cases new
        | passToken settled =>
            cases List.mem_singleton.mp (Multiset.mem_coe.mp new)
            rcases waiting task member with completed | token
            · exact .inl completed
            · rcases List.mem_cons.mp token with same | later
              · exact .inl (settled task same.symm)
              · exact .inr later
    · exact (awaited.waiting left tasks (Multiset.mem_cons_of_mem old) task member).imp_left completing
  · intro tasks logged task member
    rcases moves.mem_log logged with old | new
    · exact completing (awaited.returned tasks old task member)
    · obtain rfl : op = .waitTokens frame [] tasks := new
      rcases awaited.waiting [] tasks (Multiset.mem_cons_self _ _) task member with completed | token
      · exact completing completed
      · cases token

variable {coroutines : TaskId → Bool} {workers : List SchedulerId} {clients : Nat}
  {frames : FrameId → SchedulerId} {pool : Pool (Shared T E) Op}

end Barrier

end SoulLib.Time
