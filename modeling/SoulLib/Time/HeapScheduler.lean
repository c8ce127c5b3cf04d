import SoulLib.Containers.BinaryHeap
import SoulLib.Time.EventScheduler

/-! The event scheduler with the heap of its queue.

`cancelEvent` and `rescheduleEvent` pop the events one after the other and push them
onto a new queue. Whatever implements the heap operations, a run of this scheduler
is one of the scheduler that leaves open which event comes on top.
-/

set_option autoImplicit false

namespace SoulLib.Time

open SoulLib.Containers (HeapQueue HeapAlgorithms IsHeap StrictWeakOrder arrange binaryHeap)
open SoulLib.Semantics (System)

/-- The fields are those of `EventScheduler`. -/
structure HeapScheduler where
  eventQueue : HeapQueue EventScheduler.below := .empty
  capacity : Nat := 0
  status : Status := .idle
  tags : Nat := 0
  rounds : List Round := []

inductive HeapAction where
  | scheduleEvent (event : TimedEvent) (room : Nat)
  | cancelEvent (id : String) (room : Nat)
  | rescheduleEvent (id : String) (newTime : BitVec 64) (room : Nat)
  | update (currentTime : BitVec 64)
  | round (pushed : List TimedEvent)
  | finish
  deriving DecidableEq, Repr

/-- The call that an action is, without the choice of what comes on top. -/
def SchedulerAction.call : SchedulerAction → HeapAction
  | .scheduleEvent event room _ => .scheduleEvent event room
  | .cancelEvent id room _ => .cancelEvent id room
  | .rescheduleEvent id newTime room _ => .rescheduleEvent id newTime room
  | .update currentTime => .update currentTime
  | .round pushed _ _ => .round pushed
  | .finish => .finish

theorem EventScheduler.strictWeakOrder_below : StrictWeakOrder below where
  irreflexive := below_irreflexive
  transitive := below_transitive
  negativelyTransitive a b c notFirst notSecond := by
    rw [← Bool.not_eq_true, below, compare_iff] at *
    rintro (less | ⟨same, due, notDue⟩)
    · rcases Int.lt_or_le a.event.priority b.event.priority with above | notAbove
      · exact notFirst (.inl above)
      · exact notSecond (.inl (Int.lt_of_le_of_lt notAbove less))
    · rcases Int.lt_trichotomy a.event.priority b.event.priority with above | equal | under
      · exact notFirst (.inl above)
      · cases between : b.event.shouldTrigger 0 with
        | true => exact notSecond (.inr ⟨equal.symm.trans same, between, notDue⟩)
        | false => exact notFirst (.inr ⟨equal, due, between⟩)
      · exact notSecond (.inl (same ▸ under))

namespace HeapScheduler

variable (algorithms : HeapAlgorithms EventScheduler.below) (scheduler : HeapScheduler)

def scheduleEvent (event : TimedEvent) (room : Nat) : HeapScheduler :=
  let eventQueue := algorithms.push scheduler.eventQueue ⟨scheduler.tags, event⟩
  { scheduler with
    eventQueue
    capacity :=
      if eventQueue.elements.length ≤ scheduler.capacity then scheduler.capacity
      else eventQueue.elements.length + room
    tags := scheduler.tags + 1 }

/-- The loop pops a copy of the queue. -/
def getPendingEvents : HeapScheduler × List TimedEvent :=
  (scheduler, (algorithms.drain scheduler.eventQueue).map Entry.event)

/-- The loop of `cancelEvent` and `rescheduleEvent`, and the assignment behind it. -/
def rebuild (keep : Entry → Option Entry) (room : Nat) : HeapScheduler :=
  let newQueue := algorithms.transfer keep scheduler.eventQueue .empty
  { scheduler with eventQueue := newQueue, capacity := newQueue.elements.length + room }

def cancelEvent (id : String) (room : Nat) : HeapScheduler :=
  scheduler.rebuild algorithms (fun entry => if entry.event.id ≠ id then some entry else none) room

def rescheduleEvent (id : String) (newTime : BitVec 64) (room : Nat) : HeapScheduler :=
  scheduler.rebuild algorithms (fun entry =>
    if entry.event.id = id then some { entry with event := entry.event.reschedule newTime } else some entry) room

/-- The queue when the callback returns. -/
def afterCallback (pushed : List TimedEvent) : HeapQueue EventScheduler.below :=
  (EventScheduler.entries scheduler.tags pushed).foldl algorithms.push scheduler.eventQueue

/-- `pop` moves the element that it removes without comparing it, so that `execute` may change it. -/
def round (currentTime : BitVec 64) (pushed : List TimedEvent) : Option HeapScheduler :=
  match scheduler.eventQueue.elements with
  | [] => none
  | top :: _ =>
      if top.event.shouldTrigger currentTime && (top.event.callback || pushed.isEmpty) then
        if scheduler.capacity < scheduler.eventQueue.elements.length + pushed.length then
          some { scheduler with status := .undefined }
        else
          (scheduler.afterCallback algorithms pushed).elements.head?.map fun slot =>
            { scheduler with
              eventQueue := algorithms.pop (scheduler.afterCallback algorithms pushed)
              tags := scheduler.tags + pushed.length
              rounds := scheduler.rounds ++ [⟨top, { slot with event := slot.event.advance }⟩] }
      else none

def finish (currentTime : BitVec 64) : Option HeapScheduler :=
  if scheduler.eventQueue.elements.head?.all fun top => !top.event.shouldTrigger currentTime then
    some { scheduler with status := .idle }
  else none

def step (algorithms : HeapAlgorithms EventScheduler.below) (scheduler : HeapScheduler) :
    HeapAction → Option HeapScheduler
  | .scheduleEvent event room =>
      if scheduler.status = .idle then some (scheduler.scheduleEvent algorithms event room) else none
  | .cancelEvent id room => if scheduler.status = .idle then some (scheduler.cancelEvent algorithms id room) else none
  | .rescheduleEvent id newTime room =>
      if scheduler.status = .idle then some (scheduler.rescheduleEvent algorithms id newTime room) else none
  | .update currentTime =>
      if scheduler.status = .idle then some { scheduler with status := .updating currentTime } else none
  | .round pushed =>
      match scheduler.status with
      | .updating currentTime => scheduler.round algorithms currentTime pushed
      | .idle | .undefined => none
  | .finish =>
      match scheduler.status with
      | .updating currentTime => scheduler.finish currentTime
      | .idle | .undefined => none

end HeapScheduler

def heapScheduler (algorithms : HeapAlgorithms EventScheduler.below) : System HeapScheduler HeapAction where
  step := HeapScheduler.step algorithms

namespace HeapScheduler

/-- The pending events are the same, and so is the one on top. -/
structure Refines (scheduler : HeapScheduler) (abstract : EventScheduler) : Prop where
  perm : scheduler.eventQueue.elements.Perm abstract.queue
  top : scheduler.eventQueue.elements.head? = abstract.queue.head?
  capacity : scheduler.capacity = abstract.capacity
  status : scheduler.status = abstract.status
  tags : scheduler.tags = abstract.tags
  rounds : scheduler.rounds = abstract.rounds

/-- The order of a heap is one of those that are left open. -/
theorem exists_arrange_eq (heap : HeapQueue EventScheduler.below) {entries : List Entry}
    (perm : heap.elements.Perm entries) :
    ∃ front queue, arrange EventScheduler.below front entries = some queue ∧ heap.elements.Perm queue ∧
      heap.elements.head? = queue.head? := by
  cases elements : heap.elements with
  | nil =>
      rw [elements] at perm
      obtain rfl := perm.nil_eq
      exact ⟨0, [], rfl, .nil, rfl⟩
  | cons top rest =>
      rw [elements] at perm
      obtain ⟨front, found⟩ := List.getElem?_of_mem (perm.mem_iff.mp List.mem_cons_self)
      have great : Containers.greatest EventScheduler.below entries top = true := by
        rw [Containers.greatest_iff]
        intro other member
        have within := perm.mem_iff.mpr member
        rw [← elements] at within
        refine heap.not_above_top EventScheduler.strictWeakOrder_below ?_ within
        rw [elements, List.head?_cons]
      exact ⟨front, _, Containers.arrange_of_greatest found great,
        perm.trans (Containers.perm_eraseIdx found).symm, rfl⟩

theorem foldl_push_perm (algorithms : HeapAlgorithms EventScheduler.below) (heap : HeapQueue EventScheduler.below)
    (entries : List Entry) : (entries.foldl algorithms.push heap).elements.Perm (heap.elements ++ entries) := by
  induction entries generalizing heap with
  | nil => rw [List.foldl_nil, List.append_nil]
  | cons entry rest ih =>
      have pushed : ((algorithms.push heap entry).elements ++ rest).Perm (entry :: heap.elements ++ rest) :=
        (algorithms.push_perm heap entry).append_right rest
      exact (ih _).trans (pushed.trans List.perm_middle.symm)

theorem filterMap_cancelled (id : String) (entries : List Entry) :
    (entries.filterMap fun entry => if entry.event.id ≠ id then some entry else none) =
      entries.filter fun entry => entry.event.id ≠ id := by
  rw [← List.filterMap_eq_filter]
  apply List.filterMap_congr
  intro entry _
  simp [Option.guard]

theorem filterMap_rescheduled (id : String) (newTime : BitVec 64) (entries : List Entry) :
    (entries.filterMap fun entry =>
      if entry.event.id = id then some { entry with event := entry.event.reschedule newTime } else some entry) =
      entries.map fun entry =>
        if entry.event.id = id then { entry with event := entry.event.reschedule newTime } else entry := by
  rw [← List.filterMap_eq_map]
  apply List.filterMap_congr
  intro entry _
  simp only [Function.comp]
  split <;> rfl

variable {algorithms : HeapAlgorithms EventScheduler.below} {scheduler after : HeapScheduler}
  {abstract : EventScheduler} {action : HeapAction}

theorem rebuild_perm (keep : Entry → Option Entry) (room : Nat) :
    (scheduler.rebuild algorithms keep room).eventQueue.elements.Perm
      (scheduler.eventQueue.elements.filterMap keep) := by
  have moved := algorithms.transfer_perm keep scheduler.eventQueue .empty
  rwa [show (HeapQueue.empty : HeapQueue EventScheduler.below).elements = [] from rfl, List.append_nil] at moved

theorem Refines.rebuild (refines : scheduler.Refines abstract) {keep : Entry → Option Entry} {entries : List Entry}
    (kept : abstract.queue.filterMap keep = entries) (room : Nat) :
    ∃ front next, abstract.rebuild entries room front = some next ∧
      (scheduler.rebuild algorithms keep room).Refines next := by
  obtain ⟨front, queue, arranged, perm, top⟩ :=
    exists_arrange_eq _ ((rebuild_perm keep room).trans (kept ▸ refines.perm.filterMap keep))
  refine ⟨front, _, by rw [EventScheduler.rebuild, arranged, Option.map_some], ?_⟩
  exact ⟨perm, top, congrArg (· + room) perm.length_eq, refines.status, refines.tags, refines.rounds⟩

theorem Refines.scheduleEvent (refines : scheduler.Refines abstract) (event : TimedEvent) (room : Nat) :
    ∃ front next, abstract.scheduleEvent event room front = some next ∧
      (scheduler.scheduleEvent algorithms event room).Refines next := by
  have pushed := algorithms.push_perm scheduler.eventQueue ⟨scheduler.tags, event⟩
  rw [refines.tags] at pushed
  obtain ⟨front, queue, arranged, perm, top⟩ := exists_arrange_eq _ (pushed.trans (refines.perm.cons _))
  refine ⟨front, _, by rw [EventScheduler.scheduleEvent, arranged, Option.map_some], ?_⟩
  rw [HeapScheduler.scheduleEvent, refines.tags]
  exact ⟨perm, top, by simp only [perm.length_eq, refines.capacity], refines.status, rfl, refines.rounds⟩

theorem Refines.afterCallback (refines : scheduler.Refines abstract) (pushed : List TimedEvent) {slot : Entry}
    {rest : List Entry} (filled : (scheduler.afterCallback algorithms pushed).elements = slot :: rest) :
    ∃ front others, abstract.afterCallback pushed front = some (slot :: others) ∧ rest.Perm others := by
  unfold EventScheduler.afterCallback
  cases pushed with
  | nil =>
      have perm := refines.perm
      have top := refines.top
      change scheduler.eventQueue.elements = slot :: rest at filled
      rw [filled, List.head?_cons] at top
      obtain ⟨others, queued⟩ := List.head?_eq_some_iff.mp top.symm
      rw [filled, queued] at perm
      exact ⟨0, others, by rw [List.isEmpty_nil, if_pos rfl, queued], perm.cons_inv⟩
  | cons event later =>
      have pushes : (scheduler.afterCallback algorithms (event :: later)).elements.Perm
          (abstract.queue ++ EventScheduler.entries scheduler.tags (event :: later)) :=
        (foldl_push_perm algorithms _ _).trans (refines.perm.append_right _)
      obtain ⟨front, queue, arranged, perm, top⟩ := exists_arrange_eq _ pushes
      rw [filled, List.head?_cons] at top
      obtain ⟨others, rfl⟩ := List.head?_eq_some_iff.mp top.symm
      rw [filled] at perm
      rw [refines.tags] at arranged
      exact ⟨front, others, arranged, perm.cons_inv⟩

theorem Refines.round (refines : scheduler.Refines abstract) {currentTime : BitVec 64} {pushed : List TimedEvent}
    (taken : scheduler.round algorithms currentTime pushed = some after) :
    ∃ front position next, abstract.round currentTime pushed front position = some next ∧ after.Refines next := by
  have length := refines.perm.length_eq
  unfold HeapScheduler.round at taken
  split at taken
  · cases taken
  · next top rest filled =>
      -- the front of the vector is the top of the abstract queue
      have first := refines.top
      rw [filled, List.head?_cons] at first
      obtain ⟨others, queued⟩ := List.head?_eq_some_iff.mp first.symm
      split at taken
      · next ready =>
          split at taken
          · next full =>
              cases taken
              rw [length, refines.capacity, queued] at full
              refine ⟨0, 0, { abstract with status := .undefined }, ?_, ?_⟩
              · simp only [EventScheduler.round, queued, ready, if_true, if_pos full]
              · exact ⟨refines.perm, refines.top, refines.capacity, rfl, refines.tags, refines.rounds⟩
          · next fits =>
              obtain ⟨slot, found, rfl⟩ := Option.map_eq_some_iff.mp taken
              obtain ⟨behind, pushes⟩ := List.head?_eq_some_iff.mp found
              -- the callback may push: what is popped afterwards is the front of the heap then
              obtain ⟨front, others', returned, perm⟩ := refines.afterCallback pushed pushes
              have popped := algorithms.pop_perm_rest pushes
              obtain ⟨position, queue, arranged, perm', top'⟩ := exists_arrange_eq _ (popped.trans perm)
              rw [length, refines.capacity, queued] at fits
              refine ⟨front, position,
                { abstract with
                  queue
                  tags := abstract.tags + pushed.length
                  rounds := abstract.rounds ++ [⟨top, { slot with event := slot.event.advance }⟩] }, ?_, ?_⟩
              · simp only [EventScheduler.round, queued, ready, if_true, if_neg fits, returned, arranged,
                  Option.map_some]
              · exact ⟨perm', top', refines.capacity, refines.status, congrArg (· + pushed.length) refines.tags,
                  congrArg (· ++ [_]) refines.rounds⟩
      · cases taken

theorem Refines.step (refines : scheduler.Refines abstract)
    (taken : (heapScheduler algorithms).step scheduler action = some after) :
    ∃ label next, label.call = action ∧ eventScheduler.step abstract label = some next ∧ after.Refines next := by
  have status := refines.status
  change HeapScheduler.step algorithms scheduler action = some after at taken
  cases action with
  | scheduleEvent event room =>
      obtain ⟨idle, ⟨⟩⟩ := Option.ite_none_right_eq_some.mp taken
      obtain ⟨front, next, same, refined⟩ := refines.scheduleEvent event room
      exact ⟨.scheduleEvent event room front, next, rfl, (if_pos (status ▸ idle)).trans same, refined⟩
  | cancelEvent id room =>
      obtain ⟨idle, ⟨⟩⟩ := Option.ite_none_right_eq_some.mp taken
      obtain ⟨front, next, same, refined⟩ := refines.rebuild (filterMap_cancelled id _) room
      exact ⟨.cancelEvent id room front, next, rfl, (if_pos (status ▸ idle)).trans same, refined⟩
  | rescheduleEvent id newTime room =>
      obtain ⟨idle, ⟨⟩⟩ := Option.ite_none_right_eq_some.mp taken
      obtain ⟨front, next, same, refined⟩ := refines.rebuild (filterMap_rescheduled id newTime _) room
      exact ⟨.rescheduleEvent id newTime room front, next, rfl, (if_pos (status ▸ idle)).trans same, refined⟩
  -- beginning an update leaves the queue as it is
  | update currentTime =>
      obtain ⟨idle, ⟨⟩⟩ := Option.ite_none_right_eq_some.mp taken
      refine ⟨.update currentTime, _, rfl, if_pos (status ▸ idle), ?_⟩
      exact ⟨refines.perm, refines.top, refines.capacity, rfl, refines.tags, refines.rounds⟩
  | round pushed =>
      simp only [HeapScheduler.step] at taken
      split at taken
      · next currentTime updating =>
          obtain ⟨front, position, next, same, refined⟩ := refines.round taken
          rw [updating] at status
          refine ⟨.round pushed front position, next, rfl, ?_, refined⟩
          simp only [eventScheduler, EventScheduler.step, ← status, same]
      · cases taken
      · cases taken
  | finish =>
      simp only [HeapScheduler.step] at taken
      split at taken
      · next currentTime updating =>
          rw [updating] at status
          obtain ⟨quiet, ⟨⟩⟩ := Option.ite_none_right_eq_some.mp taken
          rw [refines.top] at quiet
          refine ⟨.finish, { abstract with status := .idle }, rfl, ?_, ?_⟩
          · simp only [eventScheduler, EventScheduler.step, ← status, EventScheduler.finish, quiet, if_true]
          · exact ⟨refines.perm, refines.top, refines.capacity, rfl, refines.tags, refines.rounds⟩
      · cases taken
      · cases taken

/-- Every run of the heap is a run with the same calls in which the order was chosen as the heap has it. -/
theorem exists_refined (reach : (heapScheduler algorithms).Reaches (fun _ _ => True) {} scheduler) :
    ∃ abstract, eventScheduler.Reaches (fun _ _ => True) {} abstract ∧ scheduler.Refines abstract := by
  induction reach with
  | start => exact ⟨{}, .start, .nil, rfl, rfl, rfl, rfl, rfl⟩
  | next _ _ taken ih =>
      obtain ⟨abstract, reach, refines⟩ := ih
      obtain ⟨label, next, -, same, refined⟩ := refines.step taken
      exact ⟨next, .next reach trivial same, refined⟩

/-- What the calls that name events do to the queue, and what is listed of it. -/
structure Framed (algorithms : HeapAlgorithms EventScheduler.below) (scheduler : HeapScheduler) (id : String)
    (newTime : BitVec 64) (room : Nat) : Prop where
  cancelled : (scheduler.cancelEvent algorithms id room).eventQueue.elements.Perm
    (scheduler.eventQueue.elements.filter fun entry => entry.event.id ≠ id)
  rescheduled : (scheduler.rescheduleEvent algorithms id newTime room).eventQueue.elements.Perm
    (scheduler.eventQueue.elements.map fun entry =>
      if entry.event.id = id then { entry with event := { entry.event with triggerTime := newTime } } else entry)
  heaps : IsHeap EventScheduler.below (scheduler.cancelEvent algorithms id room).eventQueue.elements ∧
    IsHeap EventScheduler.below (scheduler.rescheduleEvent algorithms id newTime room).eventQueue.elements
  listed : (scheduler.getPendingEvents algorithms).2.Perm (scheduler.eventQueue.elements.map Entry.event)
  ordered : (scheduler.getPendingEvents algorithms).2.Pairwise fun earlier later =>
    EventScheduler.compare earlier later = false
  unchanged : (scheduler.getPendingEvents algorithms).1 = scheduler

/-- Whatever implements the heap, and whatever is in it. -/
theorem calls_framed (algorithms : HeapAlgorithms EventScheduler.below) (scheduler : HeapScheduler) (id : String)
    (newTime : BitVec 64) (room : Nat) : Framed algorithms scheduler id newTime room := by
  constructor
  · rw [← filterMap_cancelled]
    exact rebuild_perm _ room
  · have moved := filterMap_rescheduled id newTime scheduler.eventQueue.elements
    exact (rebuild_perm _ room).trans (.of_eq moved)
  · exact ⟨HeapQueue.isHeap _, HeapQueue.isHeap _⟩
  · exact (algorithms.drain_perm scheduler.eventQueue).map _
  · rw [getPendingEvents, List.pairwise_map]
    exact algorithms.drain_pairwise EventScheduler.strictWeakOrder_below scheduler.eventQueue
  · rfl

end HeapScheduler

end SoulLib.Time
