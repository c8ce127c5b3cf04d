import SoulLib.Time.EventScheduler

/-! Repeating events.

`execute` adds the interval to the trigger time of the event on top, and `pop` then
removes that event. No pending event ever carries an advanced trigger time.
-/

set_option autoImplicit false

namespace SoulLib.Time.EventScheduler

open SoulLib.Semantics (System)

/-- The event with an identifier is neither cancelled nor rescheduled. -/
def Spares (id : String) (_ : EventScheduler) : SchedulerAction → Prop
  | .cancelEvent other _ _ => other ≠ id
  | .rescheduleEvent other _ _ _ => other ≠ id
  | .scheduleEvent .. | .update _ | .round .. | .finish => True

instance (id : String) (scheduler : EventScheduler) : (action : SchedulerAction) → Decidable (Spares id scheduler action)
  | .cancelEvent other _ _ => inferInstanceAs (Decidable (other ≠ id))
  | .rescheduleEvent other _ _ _ => inferInstanceAs (Decidable (other ≠ id))
  | .scheduleEvent .. | .update _ | .round .. | .finish => inferInstanceAs (Decidable True)

/-- Up to `currentTime` the event was executed at every multiple of its interval, and it is
pending for the next. -/
structure Repeats (scheduler : EventScheduler) (tag : Nat) (event : TimedEvent) (currentTime : BitVec 64) : Prop where
  count : scheduler.executions tag =
    (currentTime.toNat - event.triggerTime.toNat) / event.repeatInterval.toNat + 1
  pending : ∃ entry ∈ scheduler.queue, entry.tag = tag ∧ currentTime < entry.event.triggerTime

/-- As long as the event is in the queue it is the one that was scheduled. -/
structure Unmoved (tag : Nat) (event : TimedEvent) (scheduler : EventScheduler) : Prop where
  known : tag < scheduler.tags
  same : ∀ entry ∈ scheduler.queue, entry.tag = tag → entry.event = event

variable {scheduler before after : EventScheduler} {action : SchedulerAction} {tag : Nat} {event : TimedEvent}

theorem Unmoved.moves (unmoved : Unmoved tag event scheduler) (spares : Spares event.id scheduler action)
    (moves : Moves scheduler action after) : Unmoved tag event after := by
  cases moves with
  | scheduleEvent idle perm topped fits larger =>
      refine ⟨Nat.lt_succ_of_lt unmoved.known, ?_⟩
      intro entry member tagged
      rcases List.mem_cons.mp (perm.mem_iff.mp member) with rfl | old
      · exact absurd tagged (Nat.ne_of_gt unmoved.known)
      · exact unmoved.same entry old tagged
  | cancelEvent idle perm topped fits =>
      refine ⟨unmoved.known, ?_⟩
      intro entry member tagged
      exact unmoved.same entry (List.mem_of_mem_filter (perm.mem_iff.mp member)) tagged
  | rescheduleEvent idle perm topped fits =>
      refine ⟨unmoved.known, ?_⟩
      intro entry member tagged
      obtain ⟨old, within, rfl⟩ := List.mem_map.mp (perm.mem_iff.mp member)
      split at tagged
      · next hit =>
          have kept := unmoved.same old within tagged
          rw [kept] at hit
          exact absurd hit.symm spares
      · next missed =>
          rw [if_neg missed]
          exact unmoved.same old within tagged
  | update => exact ⟨unmoved.known, unmoved.same⟩
  | dangle => exact ⟨unmoved.known, unmoved.same⟩
  | finish => exact ⟨unmoved.known, unmoved.same⟩
  | round updating queued due fits pushes same greatest perm topped =>
      -- What `execute` advanced was in the first slot, and the pop removed it from there.
      refine ⟨Nat.lt_of_lt_of_le unmoved.known (Nat.le_add_right _ _), ?_⟩
      intro entry member tagged
      have within := pushes.mem_iff.mp (List.mem_cons_of_mem _ (perm.mem_iff.mp member))
      rcases List.mem_append.mp within with old | new
      · exact unmoved.same entry old tagged
      · have fresh := (fresh_entries new).1
        have known := unmoved.known
        omega

theorem Unmoved.scheduled {room front : Nat} (formed : Formed before)
    (taken : eventScheduler.step before (.scheduleEvent event room front) = some scheduler) :
    Unmoved before.tags event scheduler := by
  cases moves_of_step taken with
  | scheduleEvent idle perm topped fits larger =>
      refine ⟨Nat.lt_succ_self _, ?_⟩
      intro entry member tagged
      rcases List.mem_cons.mp (perm.mem_iff.mp member) with rfl | old
      · rfl
      · exact absurd tagged (Nat.ne_of_lt (formed.fresh entry old))

/-- Whatever is scheduled and whatever the callbacks do, no event repeats. -/
theorem not_repeats {admits : EventScheduler → SchedulerAction → Prop} {room front : Nat}
    (earlier : eventScheduler.Reaches admits {} before)
    (taken : eventScheduler.step before (.scheduleEvent event room front) = some scheduler)
    (later : eventScheduler.Reaches (Spares event.id) scheduler after) {currentTime : BitVec 64}
    (due : event.triggerTime ≤ currentTime) :
    ¬ Repeats after before.tags event currentTime := by
  have unmoved : Unmoved before.tags event after := by
    refine later.invariant (Unmoved.scheduled (formed_reached earlier) taken) ?_
    intro _ _ _ _ unmoved spares taken
    exact unmoved.moves spares (moves_of_step taken)
  intro repeats
  obtain ⟨entry, member, tagged, ahead⟩ := repeats.pending
  rw [unmoved.same entry member tagged] at ahead
  exact absurd due (BitVec.not_le.mpr ahead)

/-- An event for time 1 and every time unit after it. -/
def everyUnit : TimedEvent := { triggerTime := 1, repeatInterval := 1, id := "tick" }

def scheduledUnit : EventScheduler :=
  eventScheduler.after (fun _ _ => True) {} [.scheduleEvent everyUnit 0 0] (by decide)

/-- Updates at 1 and at 3. -/
def updatedTwice : EventScheduler :=
  eventScheduler.after (Spares "tick") scheduledUnit [.update 1, .round [] 0 0, .finish, .update 3, .finish] (by decide)

theorem not_repeats_everyUnit : everyUnit.triggerTime ≤ 3 ∧ ¬ Repeats updatedTwice 0 everyUnit 3 := by
  have due : everyUnit.triggerTime ≤ 3 := by decide
  have earlier : eventScheduler.Reaches (fun _ _ => True) {} {} := .start
  have taken : eventScheduler.step {} (.scheduleEvent everyUnit 0 0) = some scheduledUnit := by decide
  have later : eventScheduler.Reaches (Spares everyUnit.id) scheduledUnit updatedTwice := System.reaches_after _
  exact ⟨due, not_repeats earlier taken later due⟩

/-- By time 3 the event was executed once and is gone. -/
theorem everyUnit_executed_once :
    eventScheduler.Reaches (Spares everyUnit.id) scheduledUnit updatedTwice ∧ updatedTwice.status = .idle ∧
      updatedTwice.executions 0 = 1 ∧ updatedTwice.queue = [] ∧ ¬ Repeats updatedTwice 0 everyUnit 3 := by
  refine ⟨System.reaches_after _, by decide, by decide, by decide, ?_⟩
  intro repeats
  have count : updatedTwice.executions 0 = 3 := repeats.count
  revert count
  decide

end SoulLib.Time.EventScheduler
