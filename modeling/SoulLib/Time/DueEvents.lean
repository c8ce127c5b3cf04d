import Mathlib.Data.List.Nodup
import SoulLib.Time.EventScheduler

/-! What one call of `update` leaves behind.

The events here do not repeat and their callbacks leave the scheduler alone, so a
call of `update` executes and pops what comes on top until that is not due. A due
event may be hidden behind one that is not due and has no lower priority.
-/

set_option autoImplicit false

namespace SoulLib.Time.EventScheduler

open SoulLib.Containers (arrange Topped)
open SoulLib.Semantics (System)

/-- Events that do not repeat, and callbacks that schedule nothing. -/
def Plain (_ : EventScheduler) : SchedulerAction → Prop
  | .scheduleEvent event _ _ => event.repeatInterval = 0
  | .round pushed _ _ => pushed = []
  | .cancelEvent .. | .rescheduleEvent .. | .update _ | .finish => True

instance (scheduler : EventScheduler) : (action : SchedulerAction) → Decidable (Plain scheduler action)
  | .scheduleEvent event _ _ => inferInstanceAs (Decidable (event.repeatInterval = 0))
  | .round pushed _ _ => inferInstanceAs (Decidable (pushed = []))
  | .cancelEvent .. | .rescheduleEvent .. | .update _ | .finish => inferInstanceAs (Decidable True)

/-- The steps of a call of `update`. -/
def Inside (_ : EventScheduler) : SchedulerAction → Prop
  | .round pushed _ _ => pushed = []
  | .finish => True
  | .scheduleEvent .. | .cancelEvent .. | .rescheduleEvent .. | .update _ => False

/-- The call goes on. -/
def Continues (after scheduler : EventScheduler) : Prop :=
  ∃ action, Inside scheduler action ∧ eventScheduler.step scheduler action = some after

variable {before during after : EventScheduler} {currentTime : BitVec 64}

/-- The scheduler at some point of a call of `update`. -/
def During (before : EventScheduler) (currentTime : BitVec 64) (during : EventScheduler) : Prop :=
  ∃ begun, eventScheduler.step before (.update currentTime) = some begun ∧ eventScheduler.Reaches Inside begun during

/-- Nothing due is left, what was due was executed once, and the rest was not touched. -/
structure Drains (before : EventScheduler) (currentTime : BitVec 64) (after : EventScheduler) : Prop where
  nothing : ∀ entry ∈ after.queue, entry.event.shouldTrigger currentTime = false
  once : ∀ entry ∈ before.queue, entry.event.shouldTrigger currentTime = true →
    after.executions entry.tag = before.executions entry.tag + 1
  untouched : ∀ entry ∈ before.queue, entry.event.shouldTrigger currentTime = false →
    after.executions entry.tag = before.executions entry.tag ∧ entry ∈ after.queue

/-- The call returns, however equal events are ordered, and has drained the queue then. -/
structure UpdateDrains (before : EventScheduler) (currentTime : BitVec 64) : Prop where
  progress : ∀ during, During before currentTime during → during.status ≠ .idle → ∃ after, Continues after during
  finite : ∀ during, During before currentTime during → Acc Continues during
  drains : ∀ after, During before currentTime after → after.status = .idle → Drains before currentTime after

/-- A due event that is not on top has a higher priority than every event that is not due. -/
def Ranked (before : EventScheduler) (currentTime : BitVec 64) : Prop :=
  ∀ due ∈ before.queue, due.event.shouldTrigger currentTime = true → before.queue.head? ≠ some due →
    ∀ late ∈ before.queue, late.event.shouldTrigger currentTime = false → late.event.priority < due.event.priority

/-- What has happened in a call so far. -/
structure Executed (before : EventScheduler) (currentTime : BitVec 64) (executed : List Entry)
    (during : EventScheduler) : Prop where
  formed : Formed during
  split : (executed ++ during.queue).Perm before.queue
  rounds : during.rounds.map Round.executed = before.rounds.map Round.executed ++ executed
  due : ∀ entry ∈ executed, entry.event.shouldTrigger currentTime = true
  first : (executed ++ during.queue).head? = before.queue.head?
  status : during.status = .updating currentTime ∨
    during.status = .idle ∧ ∀ top ∈ during.queue.head?, top.event.shouldTrigger currentTime = false

variable {executed : List Entry} {action : SchedulerAction}

/-- Everything one step of a call can do. -/
inductive Proceeds (during : EventScheduler) : EventScheduler → Prop where
  | finish {time : BitVec 64} (updating : during.status = .updating time)
      (quiet : ∀ top ∈ during.queue.head?, top.event.shouldTrigger time = false) :
      Proceeds during { during with status := .idle }
  | dangle {time : BitVec 64} (updating : during.status = .updating time)
      (full : during.capacity < during.queue.length) : Proceeds during { during with status := .undefined }
  | round {time : BitVec 64} {top : Entry} {rest queue : List Entry} (updating : during.status = .updating time)
      (queued : during.queue = top :: rest) (due : top.event.shouldTrigger time = true) (perm : queue.Perm rest) :
      Proceeds during
        { during with queue, rounds := during.rounds ++ [⟨top, { top with event := top.event.advance }⟩] }

theorem proceeds_of_moves (inside : Inside during action) (moves : Moves during action after) :
    Proceeds during after := by
  cases moves with
  | scheduleEvent => cases inside
  | cancelEvent => cases inside
  | rescheduleEvent => cases inside
  | update => cases inside
  | finish updating quiet => exact .finish updating quiet
  | dangle updating queued due full =>
      obtain rfl := inside
      exact .dangle updating full
  | round updating queued due fits pushes same greatest perm topped =>
      obtain rfl := inside
      obtain ⟨rfl, rfl⟩ := same rfl
      exact .round updating queued due perm

theorem Executed.moves (so : Executed before currentTime executed during) (inside : Inside during action)
    (moves : Moves during action after) : ∃ executed, Executed before currentTime executed after := by
  have formed := so.formed.moves moves
  cases proceeds_of_moves inside moves with
  | finish updating quiet =>
      rcases so.status with here | ⟨idle, -⟩
      · rw [here] at updating
        cases updating
        exact ⟨executed, formed, so.split, so.rounds, so.due, so.first, .inr ⟨rfl, quiet⟩⟩
      · rw [idle] at updating
        cases updating
  | dangle updating full => exact absurd full (Nat.not_lt.mpr so.formed.fits)
  | @round time top rest queue updating queued due perm =>
      have now : time = currentTime := by
        rcases so.status with here | ⟨idle, -⟩
        · rw [here] at updating
          exact (Status.updating.inj updating).symm
        · rw [idle] at updating
          cases updating
      subst now
      refine ⟨executed ++ [top], formed, ?_, ?_, ?_, ?_, .inl updating⟩
      -- the round only moves the top over to the executed ones
      · have whole := so.split
        rw [queued] at whole
        rw [List.append_assoc, List.singleton_append]
        exact ((perm.cons top).append_left executed).trans whole
      · rw [List.map_append, so.rounds, List.append_assoc]
        rfl
      · intro entry member
        rcases List.mem_append.mp member with old | new
        · exact so.due entry old
        · obtain rfl := List.mem_singleton.mp new
          exact due
      · have first := so.first
        rw [queued] at first
        -- the first round ran what was on top at the start, the later ones leave that
        cases executed with
        | nil => exact first
        | cons head tail => exact first

/-- What holds when a call begins, and is kept by its steps, holds at every point of it. -/
theorem During.induction {holds : EventScheduler → Prop} (in_call : During before currentTime during)
    (begins : before.status = .idle → holds { before with status := .updating currentTime })
    (kept : ∀ during action after, holds during → Inside during action → Moves during action after → holds after) :
    holds during := by
  obtain ⟨begun, called, reach⟩ := in_call
  refine reach.invariant ?_ fun _ _ _ _ held inside taken => kept _ _ _ held inside (moves_of_step taken)
  cases moves_of_step called with
  | update idle => exact begins idle

theorem executed_during (formed : Formed before) (in_call : During before currentTime during) :
    ∃ executed, Executed before currentTime executed during := by
  apply in_call.induction
  · intro idle
    have begins := formed.moves (moves_of_step (update_taken idle currentTime))
    exact ⟨[], begins, .refl _, by simp, by simp, rfl, .inl rfl⟩
  · intro _ _ _ ⟨executed, so⟩ inside moves
    exact so.moves inside moves

theorem executions_eq_count (scheduler : EventScheduler) (tag : Nat) :
    scheduler.executions tag = ((scheduler.rounds.map Round.executed).map Entry.tag).count tag := by
  rw [executions, List.map_map, List.count, List.countP_map]
  apply List.countP_congr
  intro round _
  simp

theorem Executed.executions (so : Executed before currentTime executed after) (tag : Nat) :
    after.executions tag = before.executions tag + (executed.map Entry.tag).count tag := by
  rw [executions_eq_count, executions_eq_count, so.rounds, List.map_append, List.count_append]

theorem Executed.distinct (so : Executed before currentTime executed after) (formed : Formed before) :
    (executed.map Entry.tag ++ after.queue.map Entry.tag).Nodup := by
  rw [← List.map_append, (so.split.map Entry.tag).nodup_iff]
  exact formed.distinct

/-- The event on top of the queue cannot hide a due one that ranks above it. -/
theorem Executed.nothing_due (so : Executed before currentTime executed after) (formed : Formed before)
    (idle : after.status = .idle) (ranked : Ranked before currentTime) :
    ∀ entry ∈ after.queue, entry.event.shouldTrigger currentTime = false := by
  have quiet : ∀ top ∈ after.queue.head?, top.event.shouldTrigger currentTime = false := by
    rcases so.status with updating | ⟨-, quiet⟩
    · rw [idle] at updating
      cases updating
    · exact quiet
  intro entry member
  -- a due event in the queue would have to rank below the late one on top
  by_contra isDue
  rw [Bool.not_eq_false] at isDue
  cases queue : after.queue with
  | nil =>
      rw [queue] at member
      cases member
  | cons top rest =>
      have late : top.event.shouldTrigger currentTime = false := quiet top (by rw [queue]; rfl)
      have known : ∀ other ∈ after.queue, other ∈ before.queue := fun other within =>
        so.split.mem_iff.mp (List.mem_append_right _ within)
      -- what was on top at the start is either still there, and late, or executed and gone
      have notFirst : before.queue.head? ≠ some entry := by
        rw [← so.first]
        intro first
        cases executed with
        | nil =>
            rw [List.nil_append, queue] at first
            cases first
            rw [late] at isDue
            cases isDue
        | cons head tail =>
            cases first
            have distinct := so.distinct formed
            rw [List.map_cons, List.cons_append, List.nodup_cons] at distinct
            exact distinct.1 (List.mem_append_right _ (List.mem_map_of_mem member))
      have lower := ranked entry (known entry member) isDue notFirst top (known top (by simp [queue])) late
      have above := so.formed.topped top (by rw [queue]; rfl) entry member
      rw [← Bool.not_eq_true, below, compare_iff] at above
      exact above (.inl lower)

theorem Executed.drains (so : Executed before currentTime executed after) (formed : Formed before)
    (idle : after.status = .idle) (ranked : Ranked before currentTime) : Drains before currentTime after := by
  have nothing := so.nothing_due formed idle ranked
  have distinct := List.nodup_append.mp (so.distinct formed)
  refine ⟨nothing, ?_, ?_⟩
  · intro entry member due
    rcases List.mem_append.mp (so.split.mem_iff.mpr member) with done | left
    · rw [so.executions, List.count_eq_one_of_mem distinct.1 (List.mem_map_of_mem done)]
    · rw [nothing entry left] at due
      cases due
  · intro entry member late
    rcases List.mem_append.mp (so.split.mem_iff.mpr member) with done | left
    · rw [so.due entry done] at late
      cases late
    · have unexecuted : entry.tag ∉ executed.map Entry.tag := fun within =>
        distinct.2.2 _ within _ (List.mem_map_of_mem left) rfl
      rw [so.executions, List.count_eq_zero.mpr unexecuted]
      exact ⟨rfl, left⟩

theorem quiet_round_taken {top : Entry} {rest queue : List Entry} {next : Nat}
    (updating : during.status = .updating currentTime) (queued : during.queue = top :: rest)
    (due : top.event.shouldTrigger currentTime = true) (fits : during.queue.length ≤ during.capacity)
    (arranged : arrange below next rest = some queue) :
    eventScheduler.step during (.round [] 0 next) =
      some { during with
        queue
        rounds := during.rounds ++ [⟨top, { top with event := top.event.advance }⟩] } := by
  have quiet : (top.event.shouldTrigger currentTime && (top.event.callback || true)) = true := by simp [due]
  exact round_taken updating queued quiet fits (congrArg some queued) arranged

theorem finish_taken (updating : during.status = .updating currentTime)
    (quiet : ∀ top ∈ during.queue.head?, top.event.shouldTrigger currentTime = false) :
    eventScheduler.step during .finish = some { during with status := .idle } := by
  have ends : (during.queue.head?.all fun top => !top.event.shouldTrigger currentTime) = true := by
    cases head : during.queue.head? with
    | none => rfl
    | some top => simp [quiet top head]
  simp only [eventScheduler, step, updating, finish, ends, if_true]

theorem continues_of_updating (formed : Formed during) (updating : during.status = .updating currentTime) :
    ∃ after, Continues after during := by
  cases queue : during.queue with
  | nil => exact ⟨_, .finish, trivial, finish_taken updating (by simp [queue])⟩
  | cons top rest =>
      cases due : top.event.shouldTrigger currentTime with
      | false => exact ⟨_, .finish, trivial, finish_taken updating (by simp [queue, due])⟩
      | true =>
          obtain ⟨next, arranged, same⟩ := Containers.exists_arrange below_irreflexive below_transitive rest
          exact ⟨_, .round [] 0 next, rfl, quiet_round_taken updating queue due formed.fits same⟩

theorem Continues.stops_or_shortens (continues : Continues after during) :
    (∀ time, after.status ≠ .updating time) ∨ after.queue.length < during.queue.length := by
  obtain ⟨action, inside, taken⟩ := continues
  cases proceeds_of_moves inside (moves_of_step taken) with
  | finish => exact .inl fun _ => Status.noConfusion
  | dangle => exact .inl fun _ => Status.noConfusion
  | round updating queued due perm =>
      right
      rw [queued, perm.length_eq]
      exact Nat.lt_succ_self _

theorem Continues.updating (continues : Continues after during) : ∃ time, during.status = .updating time := by
  obtain ⟨action, inside, taken⟩ := continues
  cases proceeds_of_moves inside (moves_of_step taken) with
  | finish updating => exact ⟨_, updating⟩
  | dangle updating => exact ⟨_, updating⟩
  | round updating => exact ⟨_, updating⟩

/-- Every round of a call shortens the queue. -/
theorem acc_continues (scheduler : EventScheduler) : Acc Continues scheduler := by
  induction length : scheduler.queue.length using Nat.strongRecOn generalizing scheduler with
  | ind size ih =>
      constructor
      intro after continues
      rcases continues.stops_or_shortens with stopped | shorter
      · constructor
        intro further onwards
        obtain ⟨time, updating⟩ := onwards.updating
        exact absurd updating (stopped time)
      · exact ih _ (length ▸ shorter) after rfl

theorem shouldTrigger_zero {event : TimedEvent} (late : event.shouldTrigger currentTime = false) :
    event.shouldTrigger 0 = false := by
  simp only [TimedEvent.shouldTrigger, decide_eq_false_iff_not, BitVec.le_def] at *
  have zero : (0 : BitVec 64).toNat = 0 := rfl
  omega

/-- An event that is not due and has no lower priority can stay above a due one to the end. -/
theorem exists_hidden {due late : Entry} (isDue : due.event.shouldTrigger currentTime = true)
    (isLate : late.event.shouldTrigger currentTime = false) (notLower : ¬ late.event.priority < due.event.priority)
    (formed : Formed during) (updating : during.status = .updating currentTime) (hasDue : due ∈ during.queue)
    (hasLate : late ∈ during.queue) (notFirst : during.queue.head? ≠ some due) :
    ∃ after, eventScheduler.Reaches Inside during after ∧ after.status = .idle ∧ due ∈ after.queue := by
  -- By induction on the length of the queue: each pop may bring `late`, or an event above it, on top.
  induction length : during.queue.length using Nat.strongRecOn generalizing during with
  | ind size ih =>
      cases queue : during.queue with
      | nil =>
          rw [queue] at hasDue
          cases hasDue
      | cons top rest =>
          cases topDue : top.event.shouldTrigger currentTime with
          | false =>
              have taken := finish_taken updating (by simp [queue, topDue])
              have inside : Inside during .finish := trivial
              exact ⟨_, .next .start inside taken, rfl, hasDue⟩
          | true =>
              rw [queue] at hasDue hasLate notFirst
              have dueBehind : due ∈ rest := by
                rcases List.mem_cons.mp hasDue with rfl | behind
                · exact absurd rfl notFirst
                · exact behind
              have lateBehind : late ∈ rest := by
                rcases List.mem_cons.mp hasLate with rfl | behind
                · rw [isLate] at topDue
                  cases topDue
                · exact behind
              obtain ⟨next, first, others, arranged, above⟩ :=
                Containers.exists_arrange_above below_irreflexive below_transitive lateBehind
              have taken := quiet_round_taken updating queue topDue formed.fits arranged
              have perm := Containers.arrange_perm arranged
              have notDue : first ≠ due := by
                rintro rfl
                rcases above with rfl | above
                · rw [isDue] at isLate
                  cases isLate
                · rw [below, compare_iff] at above
                  rcases above with lower | ⟨-, early, -⟩
                  · exact notLower lower
                  · rw [shouldTrigger_zero isLate] at early
                    cases early
              have shorter : (first :: others).length < size := by
                rw [← length, queue, perm.length_eq]
                exact Nat.lt_succ_self _
              have hidden : (first :: others).head? ≠ some due := fun same => notDue (Option.some.inj same)
              obtain ⟨after, reach, idle, left⟩ :=
                ih _ shorter (formed.moves (moves_of_step taken)) updating (perm.mem_iff.mpr dueBehind)
                  (perm.mem_iff.mpr lateBehind) hidden rfl
              have inside : Inside during (.round [] 0 next) := rfl
              exact ⟨after, (System.Reaches.next .start inside taken).trans reach, idle, left⟩

theorem updateDrains_iff (reach : eventScheduler.Reaches Plain {} before) (idle : before.status = .idle)
    (currentTime : BitVec 64) : UpdateDrains before currentTime ↔ Ranked before currentTime := by
  have formed := formed_reached reach
  have called := update_taken idle currentTime
  constructor
  · intro drained due hasDue isDue notFirst late hasLate isLate
    by_contra notLower
    obtain ⟨after, inside, returned, left⟩ :=
      exists_hidden isDue isLate notLower (formed.moves (moves_of_step called)) rfl hasDue hasLate notFirst
    have nothing := (drained.drains after ⟨_, called, inside⟩ returned).nothing due left
    rw [isDue] at nothing
    cases nothing
  · intro ranked
    refine ⟨?_, fun during _ => acc_continues during, ?_⟩
    · intro during in_call notIdle
      obtain ⟨executed, so⟩ := executed_during formed in_call
      rcases so.status with updating | ⟨returned, -⟩
      · exact continues_of_updating so.formed updating
      · exact absurd returned notIdle
    · intro after in_call returned
      obtain ⟨executed, so⟩ := executed_during formed in_call
      exact so.drains formed returned ranked

/-- Two events of which only that with the higher priority is due at 5. -/
def dueFirst : EventScheduler :=
  eventScheduler.after Plain {}
    [.scheduleEvent { triggerTime := 10 } 0 0, .scheduleEvent { triggerTime := 1, priority := 1 } 0 0] (by decide)

theorem updateDrains_dueFirst : Ranked dueFirst 5 ∧ UpdateDrains dueFirst 5 := by
  have reach : eventScheduler.Reaches Plain {} dueFirst := System.reaches_after _
  have ranked : Ranked dueFirst 5 := by
    unfold Ranked
    decide
  exact ⟨ranked, (updateDrains_iff reach (by decide) 5).mpr ranked⟩

/-- Two events of which only that with the lower priority is due at 5. -/
def dueBehind : EventScheduler :=
  eventScheduler.after Plain {}
    [.scheduleEvent { triggerTime := 1 } 0 0, .scheduleEvent { triggerTime := 10, priority := 1 } 0 0] (by decide)

/-- An update at 5 returns without executing the due event. -/
theorem due_event_left_behind :
    eventScheduler.Reaches Plain {} dueBehind ∧ dueBehind.status = .idle ∧ During dueBehind 5 dueBehind ∧
      dueBehind.rounds = [] ∧ (∃ entry ∈ dueBehind.queue, entry.event.shouldTrigger 5 = true) ∧
      ¬ UpdateDrains dueBehind 5 := by
  have reach : eventScheduler.Reaches Plain {} dueBehind := System.reaches_after _
  have returns : During dueBehind 5 dueBehind := by
    refine ⟨{ dueBehind with status := .updating 5 }, by decide, ?_⟩
    have inside : Inside { dueBehind with status := .updating 5 } .finish := trivial
    exact .next .start inside (by decide)
  have left : ∃ entry ∈ dueBehind.queue, entry.event.shouldTrigger 5 = true := by decide
  refine ⟨reach, by decide, returns, by decide, left, ?_⟩
  intro drained
  obtain ⟨entry, member, due⟩ := left
  rw [(drained.drains _ returns (by decide)).nothing entry member] at due
  cases due

end SoulLib.Time.EventScheduler
