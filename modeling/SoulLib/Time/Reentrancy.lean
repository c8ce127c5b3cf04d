import Mathlib.Data.List.Nodup
import SoulLib.Time.EventScheduler

/-! Callbacks that schedule events on the scheduler that runs them.

`update` pops whatever is on top after the callback. That is the event just executed
as long as everything else in the queue then ranks below it, and `execute` may
only go on with that event as long as the vector behind the queue has not grown.
-/

set_option autoImplicit false

namespace SoulLib.Time.EventScheduler

open SoulLib.Containers (arrange Topped)
open SoulLib.Semantics (System)

/-- Each pop removed the event just executed, and no event was executed twice. -/
structure SafeRounds (scheduler : EventScheduler) : Prop where
  defined : scheduler.status ≠ .undefined
  removed : ∀ round ∈ scheduler.rounds, round.removed.tag = round.executed.tag
  once : (scheduler.rounds.map fun round => round.executed.tag).Nodup

/-- What a callback schedules fits into the vector, and leaves the event on top the only
greatest one. -/
def Stable (scheduler : EventScheduler) : SchedulerAction → Prop
  | .round pushed _ _ => pushed = [] ∨
      scheduler.queue.length + pushed.length ≤ scheduler.capacity ∧
        ∀ top ∈ scheduler.queue.head?, (∀ other ∈ scheduler.queue.tail, below other top = true) ∧
          ∀ event ∈ pushed, compare event top.event = true
  | .scheduleEvent .. | .cancelEvent .. | .rescheduleEvent .. | .update _ | .finish => True

instance (scheduler : EventScheduler) : (action : SchedulerAction) → Decidable (Stable scheduler action)
  | .round pushed _ _ => inferInstanceAs (Decidable (pushed = [] ∨
      scheduler.queue.length + pushed.length ≤ scheduler.capacity ∧
        ∀ top ∈ scheduler.queue.head?, (∀ other ∈ scheduler.queue.tail, below other top = true) ∧
          ∀ event ∈ pushed, compare event top.event = true))
  | .scheduleEvent .. | .cancelEvent .. | .rescheduleEvent .. | .update _ | .finish => inferInstanceAs (Decidable True)

/-- No event that was executed is pending. -/
structure Retired (scheduler : EventScheduler) : Prop where
  safe : SafeRounds scheduler
  gone : ∀ round ∈ scheduler.rounds, round.executed.tag < scheduler.tags ∧
    ∀ entry ∈ scheduler.queue, entry.tag ≠ round.executed.tag

variable {scheduler after : EventScheduler} {action : SchedulerAction} {pushed : List TimedEvent} {top slot : Entry}
  {rest others : List Entry} {front next : Nat}

theorem Stable.slot_eq_top (stable : Stable scheduler (.round pushed front next)) (queued : scheduler.queue = top :: rest)
    (pushes : (slot :: others).Perm (scheduler.queue ++ entries scheduler.tags pushed))
    (same : pushed = [] → slot = top ∧ others = rest) (greatest : pushed ≠ [] → Topped below (slot :: others)) :
    slot = top := by
  rcases stable with rfl | ⟨-, lower⟩
  · exact (same rfl).1
  · by_cases none : pushed = []
    · exact (same none).1
    · have lower := lower top (by rw [queued]; rfl)
      rw [queued] at pushes lower
      by_contra other
      have hasSlot : slot ∈ rest ++ entries scheduler.tags pushed := by
        rcases List.mem_cons.mp (pushes.mem_iff.mp List.mem_cons_self) with rfl | within
        · exact absurd rfl other
        · exact within
      have underTop : below slot top = true := by
        rcases List.mem_append.mp hasSlot with old | new
        · exact lower.1 slot old
        · exact lower.2 slot.event (event_of_mem_entries new)
      have onTop := greatest none slot rfl top (pushes.mem_iff.mpr List.mem_cons_self)
      rw [underTop] at onTop
      cases onTop

theorem Retired.moves (retired : Retired scheduler) (formed : Formed scheduler) (stable : Stable scheduler action)
    (moves : Moves scheduler action after) : Retired after := by
  obtain ⟨⟨defined, removed, once⟩, gone⟩ := retired
  cases moves with
  | scheduleEvent idle perm topped fits larger =>
      refine ⟨⟨defined, removed, once⟩, ?_⟩
      intro round member
      have known := (gone round member).1
      refine ⟨Nat.lt_succ_of_lt known, ?_⟩
      intro entry within
      rcases List.mem_cons.mp (perm.mem_iff.mp within) with rfl | old
      · exact Nat.ne_of_gt known
      · exact (gone round member).2 entry old
  | cancelEvent idle perm topped fits =>
      refine ⟨⟨defined, removed, once⟩, ?_⟩
      intro round member
      refine ⟨(gone round member).1, ?_⟩
      intro entry within
      exact (gone round member).2 entry (List.mem_of_mem_filter (perm.mem_iff.mp within))
  | rescheduleEvent idle perm topped fits =>
      refine ⟨⟨defined, removed, once⟩, ?_⟩
      intro round member
      refine ⟨(gone round member).1, ?_⟩
      intro entry within
      obtain ⟨old, hasOld, rfl⟩ := List.mem_map.mp (perm.mem_iff.mp within)
      have differs := (gone round member).2 old hasOld
      split <;> exact differs
  | update => exact ⟨⟨Status.noConfusion, removed, once⟩, gone⟩
  | finish => exact ⟨⟨Status.noConfusion, removed, once⟩, gone⟩
  | dangle updating queued due full =>
      -- A stable callback has left room in the vector, or scheduled nothing.
      rcases stable with rfl | ⟨fits, -⟩
      · have fits := formed.fits
        rw [List.length_nil, Nat.add_zero] at full
        omega
      · omega
  | @round currentTime pushed front next top slot rest others queue updating queued due fits pushes same greatest
      perm topped =>
      -- The pop removes the event that was executed.
      obtain rfl := Stable.slot_eq_top stable queued pushes same greatest
      have hasSlot : slot ∈ scheduler.queue := by
        rw [queued]
        exact List.mem_cons_self
      have distinct := formed.distinct_pushed pushed
      rw [← (pushes.map Entry.tag).nodup_iff, List.map_cons, List.nodup_cons] at distinct
      refine ⟨⟨defined, ?_, ?_⟩, ?_⟩
      · intro round member
        rcases List.mem_append.mp member with old | new
        · exact removed round old
        · obtain rfl := List.mem_singleton.mp new
          rfl
      · rw [List.map_append, List.nodup_append]
        refine ⟨once, List.nodup_singleton _, ?_⟩
        intro tag old other new
        obtain ⟨round, member, rfl⟩ := List.mem_map.mp old
        obtain rfl := List.mem_singleton.mp new
        exact ((gone round member).2 slot hasSlot).symm
      · intro round member
        rcases List.mem_append.mp member with old | new
        · have known := (gone round old).1
          refine ⟨Nat.lt_of_lt_of_le known (Nat.le_add_right _ _), ?_⟩
          intro entry within
          rcases List.mem_append.mp (pushes.mem_iff.mp (List.mem_cons_of_mem _ (perm.mem_iff.mp within))) with
            before | fresh
          · exact (gone round old).2 entry before
          · have bound := (fresh_entries fresh).1
            omega
        · obtain rfl := List.mem_singleton.mp new
          refine ⟨Nat.lt_of_lt_of_le (formed.fresh slot hasSlot) (Nat.le_add_right _ _), ?_⟩
          intro entry within same
          exact distinct.1 (same ▸ List.mem_map_of_mem (perm.mem_iff.mp within))

theorem retired_reached (reach : eventScheduler.Reaches Stable {} scheduler) : Retired scheduler := by
  have empty : Retired {} := by
    refine ⟨⟨Status.noConfusion, ?_, List.nodup_nil⟩, ?_⟩
    · intro round member
      cases member
    · intro round member
      cases member
  refine reach.invariant empty ?_
  intro _ _ _ earlier retired stable taken
  exact retired.moves (formed_reached earlier) stable (moves_of_step taken)

/-- Unless the event on top ranks above all others, the pop may remove another event. -/
theorem exists_displaced {currentTime : BitVec 64} {other : Entry} (formed : Formed scheduler)
    (updating : scheduler.status = .updating currentTime) (queued : scheduler.queue = top :: rest)
    (ready : (top.event.shouldTrigger currentTime && (top.event.callback || pushed.isEmpty)) = true)
    (fits : scheduler.queue.length + pushed.length ≤ scheduler.capacity) (nonempty : pushed ≠ [])
    (member : other ∈ rest ++ entries scheduler.tags pushed) (notBelow : ¬ below other top = true) :
    ∃ front next after, eventScheduler.step scheduler (.round pushed front next) = some after ∧
      ¬ SafeRounds after := by
  have within : other ∈ scheduler.queue ++ entries scheduler.tags pushed := by
    rw [queued]
    exact List.mem_cons_of_mem _ member
  obtain ⟨front, slot, others, arranged, above⟩ :=
    Containers.exists_arrange_above below_irreflexive below_transitive within
  obtain ⟨next, queue, popped⟩ := Containers.exists_arrange below_irreflexive below_transitive others
  have pushes : scheduler.afterCallback pushed front = some (slot :: others) := by
    rw [afterCallback, if_neg (by simpa using nonempty), arranged]
  refine ⟨front, next, _, round_taken updating queued ready fits pushes popped, ?_⟩
  have distinct := formed.distinct_pushed pushed
  rw [queued, List.cons_append, List.map_cons, List.nodup_cons] at distinct
  intro safe
  have same : slot.tag = top.tag := safe.removed _ (List.mem_append_right _ (List.mem_singleton_self _))
  have hasSlot : slot ∈ top :: (rest ++ entries scheduler.tags pushed) := by
    have known := (Containers.arrange_perm arranged).mem_iff.mp List.mem_cons_self
    rwa [queued] at known
  rcases List.mem_cons.mp hasSlot with rfl | behind
  · rcases above with rfl | above
    · exact distinct.1 (List.mem_map_of_mem member)
    · exact notBelow above
  · exact distinct.1 (same ▸ List.mem_map_of_mem behind)

theorem stable_of_safe (formed : Formed scheduler)
    (taken : eventScheduler.step scheduler (.round pushed front next) = some after)
    (safe : ∀ front next after, eventScheduler.step scheduler (.round pushed front next) = some after → SafeRounds after) :
    Stable scheduler (.round pushed front next) := by
  obtain ⟨currentTime, updating, ran⟩ := round_of_step taken
  obtain ⟨top, rest, queued, ready, -⟩ := round_cases ran
  by_cases nonempty : pushed = []
  · exact .inl nonempty
  · have fits : scheduler.queue.length + pushed.length ≤ scheduler.capacity := by
      by_contra full
      rw [Nat.not_le] at full
      exact (safe front next _ (dangle_taken updating queued ready full)).defined rfl
    have lower : ∀ other ∈ rest ++ entries scheduler.tags pushed, below other top = true := by
      intro other member
      by_contra notBelow
      obtain ⟨front, next, after, displaces, wrong⟩ :=
        exists_displaced formed updating queued ready fits nonempty member notBelow
      exact wrong (safe front next after displaces)
    refine .inr ⟨fits, ?_⟩
    intro first isFirst
    rw [queued] at isFirst ⊢
    cases isFirst
    refine ⟨fun other old => lower other (List.mem_append_left _ old), ?_⟩
    intro event scheduled
    obtain ⟨entry, member, rfl⟩ := mem_entries scheduled scheduler.tags
    exact lower entry (List.mem_append_right _ member)

/-- As long as every callback is stable all pops are right, and a callback that is not stable
can make the next one wrong. -/
theorem safeRounds_of_stable (reach : eventScheduler.Reaches Stable {} scheduler) :
    SafeRounds scheduler ∧
      ∀ pushed, (∃ front next after, eventScheduler.step scheduler (.round pushed front next) = some after) →
        ((∀ front next after, eventScheduler.step scheduler (.round pushed front next) = some after →
            SafeRounds after) ↔ ∀ front next, Stable scheduler (.round pushed front next)) := by
  have formed := formed_reached reach
  have retired := retired_reached reach
  refine ⟨retired.safe, ?_⟩
  rintro pushed ⟨front, next, after, taken⟩
  constructor
  · intro safe
    have stable := stable_of_safe formed taken safe
    exact fun _ _ => stable
  · intro stable front next after taken
    exact (retired.moves formed (stable front next) (moves_of_step taken)).safe

/-- Three events with the same contents but for the priority of the first. -/
def threeEvents : EventScheduler :=
  eventScheduler.after Stable {}
    [.scheduleEvent { triggerTime := 1, priority := 1 } 0 0, .scheduleEvent { triggerTime := 1 } 0 1,
      .scheduleEvent { triggerTime := 1 } 1 1, .update 1] (by decide)

/-- The callback of the first event schedules an event of a lower priority. -/
theorem safeRounds_threeEvents :
    SafeRounds (eventScheduler.after Stable threeEvents [.round [{ triggerTime := 1 }] 0 0] (by decide)) := by
  have reach : eventScheduler.Reaches Stable {} threeEvents := System.reaches_after _
  exact (safeRounds_of_stable (reach.trans (System.reaches_after _))).1

/-- The callback of the first event schedules one of a higher priority. The pop removes the
new event, and the first event is executed again. -/
theorem callback_displaces_event :
    ∃ scheduler, eventScheduler.run (fun _ _ => True) threeEvents
        [.round [{ triggerTime := 1, priority := 2 }] 3 0, .round [] 0 0] = some scheduler ∧
      scheduler.status = .updating 1 ∧
      (scheduler.rounds.map fun round => (round.executed.tag, round.removed.tag)) = [(0, 3), (0, 0)] ∧
      ¬ SafeRounds scheduler := by
  refine ⟨_, rfl, by decide, by decide, ?_⟩
  intro safe
  exact absurd safe.once (by decide)

end SoulLib.Time.EventScheduler
