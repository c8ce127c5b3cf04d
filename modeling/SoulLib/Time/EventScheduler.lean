import SoulLib.Containers.PriorityQueue
import SoulLib.Semantics.Runs

/-! The event scheduler.

Which of several greatest events is on top of the `std::priority_queue` is left
open. `update` is a run of rounds: a round executes the event on top and pops what
is on top afterwards. What a callback schedules on the same scheduler is a choice
of the round. `execute` runs on a reference to the first slot of the vector behind
the queue, so after its callback it works on whatever is in that slot; when the
vector had to grow meanwhile, the reference dangles. Events carry a tag that tells
apart events with equal contents.
-/

set_option autoImplicit false

namespace SoulLib.Time

open SoulLib.Containers (arrange Topped)
open SoulLib.Semantics (System)

/-- `callback` tells whether the `std::function` has a target. -/
structure TimedEvent where
  triggerTime : BitVec 64
  callback : Bool := true
  repeatInterval : BitVec 64 := 0
  priority : Int := 0
  id : String := ""
  deriving DecidableEq, Repr

namespace TimedEvent

def shouldTrigger (event : TimedEvent) (currentTime : BitVec 64) : Bool := decide (event.triggerTime ≤ currentTime)

/-- The part of `execute` after the callback. -/
def advance (event : TimedEvent) : TimedEvent :=
  if 0 < event.repeatInterval then { event with triggerTime := event.triggerTime + event.repeatInterval } else event

def reschedule (event : TimedEvent) (newTime : BitVec 64) : TimedEvent := { event with triggerTime := newTime }

end TimedEvent

structure Entry where
  tag : Nat
  event : TimedEvent
  deriving DecidableEq, Repr

/-- One round of the loop of `update`. -/
structure Round where
  executed : Entry
  removed : Entry
  deriving DecidableEq, Repr

inductive Status where
  | idle
  | updating (currentTime : BitVec 64)
  | undefined
  deriving DecidableEq, Repr

/-- `capacity` is that of the vector behind the queue, `tags` the number of events scheduled so
far, and `rounds` what `update` has done. -/
structure EventScheduler where
  queue : List Entry := []
  capacity : Nat := 0
  status : Status := .idle
  tags : Nat := 0
  rounds : List Round := []
  deriving DecidableEq, Repr

/-- `room` and `front` resolve how far a vector grows and which event comes on top. -/
inductive SchedulerAction where
  | scheduleEvent (event : TimedEvent) (room front : Nat)
  | cancelEvent (id : String) (room front : Nat)
  | rescheduleEvent (id : String) (newTime : BitVec 64) (room front : Nat)
  | update (currentTime : BitVec 64)
  | round (pushed : List TimedEvent) (front next : Nat)
  | finish
  deriving DecidableEq, Repr

namespace EventScheduler

/-- `Compare`: whether `a` comes after `b`. -/
def compare (a b : TimedEvent) : Bool :=
  if a.priority = b.priority then a.shouldTrigger 0 && !b.shouldTrigger 0 else decide (a.priority < b.priority)

def below (a b : Entry) : Bool := compare a.event b.event

/-- What a callback schedules, in the order of its calls. -/
def entries (tags : Nat) : List TimedEvent → List Entry
  | [] => []
  | event :: rest => ⟨tags, event⟩ :: entries (tags + 1) rest

variable (scheduler : EventScheduler)

def scheduleEvent (event : TimedEvent) (room front : Nat) : Option EventScheduler :=
  (arrange below front (⟨scheduler.tags, event⟩ :: scheduler.queue)).map fun queue =>
    { scheduler with
      queue
      capacity := if queue.length ≤ scheduler.capacity then scheduler.capacity else queue.length + room
      tags := scheduler.tags + 1 }

/-- `cancelEvent` and `rescheduleEvent` move the events to a new queue. -/
def rebuild (entries : List Entry) (room front : Nat) : Option EventScheduler :=
  (arrange below front entries).map fun queue => { scheduler with queue, capacity := queue.length + room }

def cancelEvent (id : String) (room front : Nat) : Option EventScheduler :=
  scheduler.rebuild (scheduler.queue.filter fun entry => entry.event.id ≠ id) room front

def rescheduleEvent (id : String) (newTime : BitVec 64) (room front : Nat) : Option EventScheduler :=
  scheduler.rebuild (scheduler.queue.map fun entry =>
    if entry.event.id = id then { entry with event := entry.event.reschedule newTime } else entry) room front

/-- The queue when the callback returns. -/
def afterCallback (pushed : List TimedEvent) (front : Nat) : Option (List Entry) :=
  if pushed.isEmpty then some scheduler.queue
  else arrange below front (scheduler.queue ++ entries scheduler.tags pushed)

def round (currentTime : BitVec 64) (pushed : List TimedEvent) (front next : Nat) : Option EventScheduler :=
  match scheduler.queue with
  | [] => none
  | top :: _ =>
      if top.event.shouldTrigger currentTime && (top.event.callback || pushed.isEmpty) then
        if scheduler.capacity < scheduler.queue.length + pushed.length then
          some { scheduler with status := .undefined }
        else
          match scheduler.afterCallback pushed front with
          | some (slot :: rest) =>
              (arrange below next rest).map fun queue =>
                { scheduler with
                  queue
                  tags := scheduler.tags + pushed.length
                  rounds := scheduler.rounds ++ [⟨top, { slot with event := slot.event.advance }⟩] }
          | some [] | none => none
      else none

/-- The loop of `update` ends on an empty queue or an event that is not due. -/
def finish (currentTime : BitVec 64) : Option EventScheduler :=
  if scheduler.queue.head?.all fun top => !top.event.shouldTrigger currentTime then
    some { scheduler with status := .idle }
  else none

def step : SchedulerAction → Option EventScheduler
  | .scheduleEvent event room front =>
      if scheduler.status = .idle then scheduler.scheduleEvent event room front else none
  | .cancelEvent id room front => if scheduler.status = .idle then scheduler.cancelEvent id room front else none
  | .rescheduleEvent id newTime room front =>
      if scheduler.status = .idle then scheduler.rescheduleEvent id newTime room front else none
  | .update currentTime =>
      if scheduler.status = .idle then some { scheduler with status := .updating currentTime } else none
  | .round pushed front next =>
      match scheduler.status with
      | .updating currentTime => scheduler.round currentTime pushed front next
      | .idle | .undefined => none
  | .finish =>
      match scheduler.status with
      | .updating currentTime => scheduler.finish currentTime
      | .idle | .undefined => none

end EventScheduler

def eventScheduler : System EventScheduler SchedulerAction where
  step := EventScheduler.step

namespace EventScheduler

theorem compare_iff {a b : TimedEvent} :
    compare a b = true ↔
      a.priority < b.priority ∨ a.priority = b.priority ∧ a.shouldTrigger 0 = true ∧ b.shouldTrigger 0 = false := by
  unfold compare
  split
  · next same => simp [same]
  · next differ => simp [differ]

theorem below_irreflexive (a : Entry) : below a a = false := by
  rw [← Bool.not_eq_true, below, compare_iff]
  rintro (less | ⟨-, due, notDue⟩)
  · exact Int.lt_irrefl _ less
  · rw [due] at notDue
    cases notDue

theorem below_transitive (a b c : Entry) (first : below a b = true) (second : below b c = true) :
    below a c = true := by
  rw [below, compare_iff] at *
  rcases first with less | ⟨same, due, notDue⟩
  · rcases second with less' | ⟨same, -⟩
    · exact .inl (Int.lt_trans less less')
    · exact .inl (same ▸ less)
  · rcases second with less | ⟨-, due', -⟩
    · exact .inl (same ▸ less)
    · rw [due'] at notDue
      cases notDue

@[simp] theorem length_entries (tags : Nat) (events : List TimedEvent) : (entries tags events).length = events.length := by
  induction events generalizing tags with
  | nil => rfl
  | cons event rest ih => simp [entries, ih]

theorem event_of_mem_entries {tags : Nat} {events : List TimedEvent} {entry : Entry}
    (member : entry ∈ entries tags events) : entry.event ∈ events := by
  induction events generalizing tags with
  | nil => cases member
  | cons event rest ih =>
      rcases List.mem_cons.mp member with rfl | later
      · exact List.mem_cons_self
      · exact List.mem_cons_of_mem _ (ih later)

theorem mem_entries {events : List TimedEvent} {event : TimedEvent} (member : event ∈ events) (tags : Nat) :
    ∃ entry ∈ entries tags events, entry.event = event := by
  induction events generalizing tags with
  | nil => cases member
  | cons first rest ih =>
      rcases List.mem_cons.mp member with rfl | later
      · exact ⟨_, List.mem_cons_self, rfl⟩
      · obtain ⟨entry, within, same⟩ := ih later (tags + 1)
        exact ⟨entry, List.mem_cons_of_mem _ within, same⟩

theorem map_tag_entries (tags : Nat) (events : List TimedEvent) :
    (entries tags events).map Entry.tag = List.range' tags events.length := by
  induction events generalizing tags with
  | nil => rfl
  | cons event rest ih => simp [entries, ih, List.range'_succ]

/-- Everything one step can do. -/
inductive Moves (scheduler : EventScheduler) : SchedulerAction → EventScheduler → Prop where
  | scheduleEvent {event : TimedEvent} {room front capacity : Nat} {queue : List Entry}
      (idle : scheduler.status = .idle) (perm : queue.Perm (⟨scheduler.tags, event⟩ :: scheduler.queue))
      (topped : Topped below queue) (fits : queue.length ≤ capacity) (larger : scheduler.capacity ≤ capacity) :
      Moves scheduler (.scheduleEvent event room front) { scheduler with queue, capacity, tags := scheduler.tags + 1 }
  | cancelEvent {id : String} {room front capacity : Nat} {queue : List Entry} (idle : scheduler.status = .idle)
      (perm : queue.Perm (scheduler.queue.filter fun entry => entry.event.id ≠ id)) (topped : Topped below queue)
      (fits : queue.length ≤ capacity) : Moves scheduler (.cancelEvent id room front) { scheduler with queue, capacity }
  | rescheduleEvent {id : String} {newTime : BitVec 64} {room front capacity : Nat} {queue : List Entry}
      (idle : scheduler.status = .idle)
      (perm : queue.Perm (scheduler.queue.map fun entry =>
        if entry.event.id = id then { entry with event := entry.event.reschedule newTime } else entry))
      (topped : Topped below queue) (fits : queue.length ≤ capacity) :
      Moves scheduler (.rescheduleEvent id newTime room front) { scheduler with queue, capacity }
  | update {currentTime : BitVec 64} (idle : scheduler.status = .idle) :
      Moves scheduler (.update currentTime) { scheduler with status := .updating currentTime }
  | dangle {currentTime : BitVec 64} {pushed : List TimedEvent} {front next : Nat} {top : Entry} {rest : List Entry}
      (updating : scheduler.status = .updating currentTime) (queued : scheduler.queue = top :: rest)
      (due : top.event.shouldTrigger currentTime = true)
      (full : scheduler.capacity < scheduler.queue.length + pushed.length) :
      Moves scheduler (.round pushed front next) { scheduler with status := .undefined }
  | round {currentTime : BitVec 64} {pushed : List TimedEvent} {front next : Nat} {top slot : Entry}
      {rest others queue : List Entry} (updating : scheduler.status = .updating currentTime)
      (queued : scheduler.queue = top :: rest) (due : top.event.shouldTrigger currentTime = true)
      (fits : scheduler.queue.length + pushed.length ≤ scheduler.capacity)
      (pushes : (slot :: others).Perm (scheduler.queue ++ entries scheduler.tags pushed))
      (same : pushed = [] → slot = top ∧ others = rest) (greatest : pushed ≠ [] → Topped below (slot :: others))
      (perm : queue.Perm others) (topped : Topped below queue) :
      Moves scheduler (.round pushed front next)
        { scheduler with
          queue
          tags := scheduler.tags + pushed.length
          rounds := scheduler.rounds ++ [⟨top, { slot with event := slot.event.advance }⟩] }
  | finish {currentTime : BitVec 64} (updating : scheduler.status = .updating currentTime)
      (quiet : ∀ top ∈ scheduler.queue.head?, top.event.shouldTrigger currentTime = false) :
      Moves scheduler .finish { scheduler with status := .idle }

variable {scheduler after : EventScheduler} {action : SchedulerAction}

theorem round_of_step {pushed : List TimedEvent} {front next : Nat}
    (taken : eventScheduler.step scheduler (.round pushed front next) = some after) :
    ∃ currentTime, scheduler.status = .updating currentTime ∧
      scheduler.round currentTime pushed front next = some after := by
  simp only [eventScheduler, step] at taken
  split at taken
  · next currentTime updating => exact ⟨currentTime, updating, taken⟩
  · cases taken
  · cases taken

theorem round_cases {currentTime : BitVec 64} {pushed : List TimedEvent} {front next : Nat}
    (taken : scheduler.round currentTime pushed front next = some after) :
    ∃ top rest, scheduler.queue = top :: rest ∧
      (top.event.shouldTrigger currentTime && (top.event.callback || pushed.isEmpty)) = true ∧
      (scheduler.capacity < scheduler.queue.length + pushed.length ∧ after = { scheduler with status := .undefined } ∨
        scheduler.queue.length + pushed.length ≤ scheduler.capacity ∧
          ∃ slot left queue, scheduler.afterCallback pushed front = some (slot :: left) ∧
            arrange below next left = some queue ∧
            after = { scheduler with
              queue
              tags := scheduler.tags + pushed.length
              rounds := scheduler.rounds ++ [⟨top, { slot with event := slot.event.advance }⟩] }) := by
  unfold round at taken
  split at taken
  · cases taken
  · next top rest queued =>
      split at taken
      · next ready =>
          refine ⟨top, rest, queued, ready, ?_⟩
          split at taken
          · next full => exact .inl ⟨full, (Option.some.inj taken).symm⟩
          · next fits =>
              split at taken
              · next slot left arranged =>
                  obtain ⟨queue, popped, rfl⟩ := Option.map_eq_some_iff.mp taken
                  exact .inr ⟨Nat.le_of_not_lt fits, slot, left, queue, arranged, popped, rfl⟩
              · cases taken
              · cases taken
      · cases taken

/-- The queue when the callback returns: what was there and what the callback scheduled. -/
theorem afterCallback_cases {pushed : List TimedEvent} {front : Nat} {top slot : Entry} {rest left : List Entry}
    (queued : scheduler.queue = top :: rest) (arranged : scheduler.afterCallback pushed front = some (slot :: left)) :
    (slot :: left).Perm (scheduler.queue ++ entries scheduler.tags pushed) ∧
      (pushed = [] → slot = top ∧ left = rest) ∧ (pushed ≠ [] → Topped below (slot :: left)) := by
  unfold afterCallback at arranged
  split at arranged
  · next empty =>
      obtain rfl := List.isEmpty_iff.mp empty
      have same := Option.some.inj arranged
      rw [queued] at same
      cases same
      simp [entries, queued]
  · next some =>
      refine ⟨Containers.arrange_perm arranged, ?_, fun _ => Containers.arrange_topped arranged⟩
      rintro rfl
      exact absurd rfl some

theorem moves_of_round {currentTime : BitVec 64} {pushed : List TimedEvent} {front next : Nat}
    (updating : scheduler.status = .updating currentTime)
    (taken : scheduler.round currentTime pushed front next = some after) :
    Moves scheduler (.round pushed front next) after := by
  obtain ⟨top, rest, queued, ready, result⟩ := round_cases taken
  have due : top.event.shouldTrigger currentTime = true := (Bool.and_eq_true_iff.mp ready).1
  rcases result with ⟨full, rfl⟩ | ⟨fits, slot, left, queue, arranged, popped, rfl⟩
  · exact .dangle updating queued due full
  · obtain ⟨pushes, same, greatest⟩ := afterCallback_cases queued arranged
    exact .round updating queued due fits pushes same greatest (Containers.arrange_perm popped)
      (Containers.arrange_topped popped)

section Taken

variable {currentTime : BitVec 64} {pushed : List TimedEvent} {front next : Nat} {top : Entry} {rest : List Entry}

theorem update_taken (idle : scheduler.status = .idle) (currentTime : BitVec 64) :
    eventScheduler.step scheduler (.update currentTime) = some { scheduler with status := .updating currentTime } := by
  simp only [eventScheduler, step, idle, if_true]

theorem round_taken {slot : Entry} {left queue : List Entry} (updating : scheduler.status = .updating currentTime)
    (queued : scheduler.queue = top :: rest)
    (ready : (top.event.shouldTrigger currentTime && (top.event.callback || pushed.isEmpty)) = true)
    (fits : scheduler.queue.length + pushed.length ≤ scheduler.capacity)
    (arranged : scheduler.afterCallback pushed front = some (slot :: left))
    (popped : arrange below next left = some queue) :
    eventScheduler.step scheduler (.round pushed front next) =
      some { scheduler with
        queue
        tags := scheduler.tags + pushed.length
        rounds := scheduler.rounds ++ [⟨top, { slot with event := slot.event.advance }⟩] } := by
  have room : ¬ scheduler.capacity < scheduler.queue.length + pushed.length := Nat.not_lt.mpr fits
  rw [queued] at room
  simp only [eventScheduler, step, updating, round, queued, ready, if_true, if_neg room, arranged, popped,
    Option.map_some]

theorem dangle_taken (updating : scheduler.status = .updating currentTime) (queued : scheduler.queue = top :: rest)
    (ready : (top.event.shouldTrigger currentTime && (top.event.callback || pushed.isEmpty)) = true)
    (full : scheduler.capacity < scheduler.queue.length + pushed.length) :
    eventScheduler.step scheduler (.round pushed front next) = some { scheduler with status := .undefined } := by
  rw [queued] at full
  simp only [eventScheduler, step, updating, round, queued, ready, if_true, if_pos full]

end Taken

theorem moves_of_step (taken : eventScheduler.step scheduler action = some after) : Moves scheduler action after := by
  change scheduler.step action = some after at taken
  cases action with
  | scheduleEvent event room front =>
      simp only [step] at taken
      split at taken
      · next idle =>
          obtain ⟨queue, arranged, rfl⟩ := Option.map_eq_some_iff.mp taken
          -- push_back grows a full vector, so the new one has room
          refine .scheduleEvent idle (Containers.arrange_perm arranged) (Containers.arrange_topped arranged) ?_ ?_
          · split <;> omega
          · split <;> omega
      · cases taken
  | cancelEvent id room front =>
      simp only [step] at taken
      split at taken
      · next idle =>
          obtain ⟨queue, arranged, rfl⟩ := Option.map_eq_some_iff.mp taken
          exact .cancelEvent idle (Containers.arrange_perm arranged) (Containers.arrange_topped arranged) (by simp)
      · cases taken
  | rescheduleEvent id newTime room front =>
      simp only [step] at taken
      split at taken
      · next idle =>
          obtain ⟨queue, arranged, rfl⟩ := Option.map_eq_some_iff.mp taken
          exact .rescheduleEvent idle (Containers.arrange_perm arranged) (Containers.arrange_topped arranged) (by simp)
      · cases taken
  | update currentTime =>
      simp only [step] at taken
      split at taken
      · next idle =>
          cases taken
          exact .update idle
      · cases taken
  | round pushed front next =>
      obtain ⟨currentTime, updating, ran⟩ := round_of_step taken
      exact moves_of_round updating ran
  | finish =>
      simp only [step] at taken
      split at taken
      · next currentTime updating =>
          unfold EventScheduler.finish at taken
          split at taken
          · next quiet =>
              cases taken
              -- the loop ends at an empty queue or at an event that is not due
              refine .finish updating ?_
              intro top member
              simpa [Option.mem_def.mp member] using quiet
          · cases taken
      · cases taken
      · cases taken

/-- A greatest event is on top, the vector has room for the queue, and no two events share a tag. -/
structure Formed (scheduler : EventScheduler) : Prop where
  topped : Topped below scheduler.queue
  fits : scheduler.queue.length ≤ scheduler.capacity
  distinct : (scheduler.queue.map Entry.tag).Nodup
  fresh : ∀ entry ∈ scheduler.queue, entry.tag < scheduler.tags

theorem Formed.distinct_pushed (formed : Formed scheduler) (pushed : List TimedEvent) :
    ((scheduler.queue ++ entries scheduler.tags pushed).map Entry.tag).Nodup := by
  rw [List.map_append, map_tag_entries, List.nodup_append]
  refine ⟨formed.distinct, List.nodup_range', ?_⟩
  rintro tag old other new rfl
  obtain ⟨entry, member, rfl⟩ := List.mem_map.mp old
  have less := formed.fresh entry member
  have bound := (List.mem_range'_1.mp new).1
  omega

theorem fresh_entries {pushed : List TimedEvent} {entry : Entry} (member : entry ∈ entries scheduler.tags pushed) :
    scheduler.tags ≤ entry.tag ∧ entry.tag < scheduler.tags + pushed.length := by
  have within := List.mem_map_of_mem (f := Entry.tag) member
  rw [map_tag_entries] at within
  exact List.mem_range'_1.mp within

theorem Formed.moves (formed : Formed scheduler) (moves : Moves scheduler action after) : Formed after := by
  cases moves with
  | @scheduleEvent event room front capacity queue idle perm topped fits larger =>
      refine ⟨topped, fits, ?_, ?_⟩
      · rw [(perm.map Entry.tag).nodup_iff, List.map_cons, List.nodup_cons]
        -- The tag of the new entry is the counter, which is beyond all tags.
        refine ⟨?_, formed.distinct⟩
        intro member
        obtain ⟨entry, within, same⟩ := List.mem_map.mp member
        have less := formed.fresh entry within
        simp only at same
        omega
      · intro entry member
        rcases List.mem_cons.mp (perm.mem_iff.mp member) with rfl | old
        · exact Nat.lt_succ_self _
        · exact Nat.lt_succ_of_lt (formed.fresh entry old)
  | cancelEvent idle perm topped fits =>
      refine ⟨topped, fits, ?_, ?_⟩
      · rw [(perm.map Entry.tag).nodup_iff]
        exact formed.distinct.sublist (List.filter_sublist.map _)
      · intro entry member
        exact formed.fresh entry (List.mem_of_mem_filter (perm.mem_iff.mp member))
  | rescheduleEvent idle perm topped fits =>
      refine ⟨topped, fits, ?_, ?_⟩
      · rw [(perm.map Entry.tag).nodup_iff, List.map_map]
        refine (List.map_congr_left ?_ : _ = scheduler.queue.map Entry.tag) ▸ formed.distinct
        intro entry _
        simp only [Function.comp]
        split <;> rfl
      · intro entry member
        obtain ⟨old, within, rfl⟩ := List.mem_map.mp (perm.mem_iff.mp member)
        have less := formed.fresh old within
        split <;> exact less
  | update idle => exact ⟨formed.topped, formed.fits, formed.distinct, formed.fresh⟩
  | dangle updating queued due full => exact ⟨formed.topped, formed.fits, formed.distinct, formed.fresh⟩
  | finish updating quiet => exact ⟨formed.topped, formed.fits, formed.distinct, formed.fresh⟩
  | @round currentTime pushed front next top slot rest others queue updating queued due fits pushes same greatest
      perm topped =>
      have lengths := pushes.length_eq
      rw [List.length_cons, List.length_append, length_entries] at lengths
      refine ⟨topped, ?_, ?_, ?_⟩
      · rw [perm.length_eq]
        simp only
        omega
      · rw [(perm.map Entry.tag).nodup_iff]
        have all := formed.distinct_pushed pushed
        rw [← (pushes.map Entry.tag).nodup_iff, List.map_cons, List.nodup_cons] at all
        exact all.2
      · intro entry member
        have within := pushes.mem_iff.mp (List.mem_cons_of_mem slot (perm.mem_iff.mp member))
        rcases List.mem_append.mp within with old | new
        · have less := formed.fresh entry old
          simp only
          omega
        · exact (fresh_entries new).2

/-- How often `execute` has been called on an event. -/
def executions (scheduler : EventScheduler) (tag : Nat) : Nat :=
  scheduler.rounds.countP fun round => round.executed.tag = tag

theorem formed_reached {admits : EventScheduler → SchedulerAction → Prop}
    (reach : eventScheduler.Reaches admits {} scheduler) : Formed scheduler := by
  have empty : Formed {} := by
    refine ⟨?_, Nat.le_refl _, List.nodup_nil, ?_⟩
    · rintro top ⟨⟩
    · intro entry member
      cases member
  exact reach.invariant empty fun _ _ _ _ formed _ taken => formed.moves (moves_of_step taken)

end EventScheduler

end SoulLib.Time
