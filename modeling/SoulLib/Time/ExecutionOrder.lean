import SoulLib.Time.DueEvents

/-! The order in which one call of `update` executes events.

Of the trigger times the heap only sees whether they are zero, and it puts those
that are zero last. Which of two due events of one priority comes first is then
up to the heap, unless the call ends before it comes to them.
-/

set_option autoImplicit false

namespace SoulLib.Time.EventScheduler

open SoulLib.Containers (arrange Topped)
open SoulLib.Semantics (System)

/-- Higher priorities come first, and of one priority the earlier trigger times. -/
def InOrder (first second : Entry) : Prop :=
  second.event.priority < first.event.priority ∨
    first.event.priority = second.event.priority ∧ first.event.triggerTime ≤ second.event.triggerTime

instance (first second : Entry) : Decidable (InOrder first second) := inferInstanceAs (Decidable (_ ∨ _))

/-- What was executed since an earlier state. -/
def executedSince (before during : EventScheduler) : List Entry :=
  (during.rounds.drop before.rounds.length).map Round.executed

def InOrderSince (before during : EventScheduler) : Prop := (executedSince before during).Pairwise InOrder

variable {before during after : EventScheduler} {currentTime : BitVec 64} {action : SchedulerAction}

/-- A due event `late` may be executed before one of its priority with an earlier trigger time. -/
structure Overtakes (before : EventScheduler) (currentTime : BitVec 64) (late early : Entry) : Prop where
  hasLate : late ∈ before.queue
  hasEarly : early ∈ before.queue
  due : late.event.shouldTrigger currentTime = true
  same : early.event.priority = late.event.priority
  earlier : early.event.triggerTime < late.event.triggerTime
  notFirst : before.queue.head? ≠ some early
  starts : ∀ top ∈ before.queue.head?, top.event.shouldTrigger currentTime = true
  higher : ∀ other ∈ before.queue, early.event.priority < other.event.priority →
    other.event.shouldTrigger currentTime = true
  level : early.event.triggerTime = 0 → ∀ other ∈ before.queue, other.event.priority = early.event.priority →
    other.event.shouldTrigger currentTime = true

/-- What a call of `update` has executed, most urgent events first. -/
structure Descends (before during : EventScheduler) (executed : List Entry) : Prop where
  rounds : during.rounds.map Round.executed = before.rounds.map Round.executed ++ executed
  sorted : executed.Pairwise fun earlier later => below earlier later = false
  above : ∀ entry ∈ executed, ∀ other ∈ during.queue, below entry other = false

theorem executedSince_eq {executed : List Entry}
    (rounds : during.rounds.map Round.executed = before.rounds.map Round.executed ++ executed) :
    executedSince before during = executed := by
  have length : (before.rounds.map Round.executed).length = before.rounds.length := List.length_map _
  rw [executedSince, List.map_drop, rounds, List.drop_left' length]

theorem Formed.not_below {top other : Entry} {rest : List Entry} (formed : Formed during)
    (queued : during.queue = top :: rest) (member : other ∈ during.queue) : below top other = false :=
  formed.topped top (by rw [queued]; rfl) other member

theorem Descends.moves {executed : List Entry} (descends : Descends before during executed) (formed : Formed during)
    (inside : Inside during action) (moves : Moves during action after) :
    ∃ executed, Descends before after executed := by
  cases proceeds_of_moves inside moves with
  | finish updating quiet => exact ⟨executed, descends.rounds, descends.sorted, descends.above⟩
  | dangle updating full => exact ⟨executed, descends.rounds, descends.sorted, descends.above⟩
  | @round time top rest queue updating queued due perm =>
      have within : ∀ other ∈ queue, other ∈ during.queue := by
        intro other member
        rw [queued]
        exact List.mem_cons_of_mem _ (perm.mem_iff.mp member)
      refine ⟨executed ++ [top], ?_, ?_, ?_⟩
      · rw [List.map_append, descends.rounds, List.append_assoc]
        rfl
      · rw [List.pairwise_append]
        refine ⟨descends.sorted, List.pairwise_singleton _ _, ?_⟩
        intro entry member other last
        rw [List.mem_singleton.mp last]
        exact descends.above entry member top (by rw [queued]; exact List.mem_cons_self)
      · intro entry member other remains
        rcases List.mem_append.mp member with old | new
        · exact descends.above entry old other (within other remains)
        · rw [List.mem_singleton.mp new]
          exact formed.not_below queued (within other remains)

theorem descends_during (formed : Formed before) (in_call : During before currentTime during) :
    ∃ executed, Executed before currentTime executed during ∧ Descends before during executed := by
  have descends : Formed during ∧ ∃ executed, Descends before during executed := by
    apply in_call.induction
    · intro idle
      have begins := formed.moves (moves_of_step (update_taken idle currentTime))
      exact ⟨begins, [], by simp, .nil, by simp⟩
    · intro _ _ _ ⟨formed, executed, descends⟩ inside moves
      exact ⟨formed.moves moves, descends.moves formed inside moves⟩
  obtain ⟨executed, so⟩ := executed_during formed in_call
  obtain ⟨-, executed', descends⟩ := descends
  obtain rfl : executed' = executed := (executedSince_eq descends.rounds).symm.trans (executedSince_eq so.rounds)
  exact ⟨executed', so, descends⟩

theorem shouldTrigger_zero_iff {event : TimedEvent} : event.shouldTrigger 0 = true ↔ event.triggerTime = 0 := by
  rw [TimedEvent.shouldTrigger, decide_eq_true_iff]
  exact BitVec.le_zero_iff

/-- What was executed behind another event was not on top at the call. -/
theorem not_first_of_sublist {executed : List Entry} {first second : Entry}
    (so : Executed before currentTime executed during) (formed : Formed before)
    (pair : [first, second].Sublist executed) : before.queue.head? ≠ some second := by
  have distinct := so.distinct formed
  rw [← so.first]
  intro onTop
  cases pair with
  | cons _ pair =>
      cases onTop
      rw [List.map_cons, List.cons_append, List.nodup_cons] at distinct
      have again := pair.subset (List.mem_cons_of_mem _ List.mem_cons_self)
      exact distinct.1 (List.mem_append_left _ (List.mem_map_of_mem again))
  | cons_cons _ pair =>
      cases onTop
      rw [List.map_cons, List.cons_append, List.nodup_cons] at distinct
      exact distinct.1 (List.mem_append_left _ (List.mem_map_of_mem (pair.subset List.mem_cons_self)))

theorem top_due_of_executed {executed : List Entry} {entry : Entry}
    (so : Executed before currentTime executed during) (done : entry ∈ executed) :
    ∀ top ∈ before.queue.head?, top.event.shouldTrigger currentTime = true := by
  intro top onTop
  rw [← so.first] at onTop
  cases executed with
  | nil => cases done
  | cons head tail =>
      cases onTop
      exact so.due _ List.mem_cons_self

theorem Descends.inOrder {executed : List Entry} (descends : Descends before during executed)
    (so : Executed before currentTime executed during) (formed : Formed before)
    (apart : ∀ late early, ¬Overtakes before currentTime late early) : executed.Pairwise InOrder := by
  rw [List.pairwise_iff_forall_sublist]
  intro late early pair
  have notBelow : below late early = false := List.pairwise_iff_forall_sublist.mp descends.sorted pair
  rw [← Bool.not_eq_true, below, compare_iff] at notBelow
  by_contra disorder
  have lateIn : late ∈ executed := pair.subset List.mem_cons_self
  have earlyIn : early ∈ executed := pair.subset (List.mem_cons_of_mem _ List.mem_cons_self)
  have same : early.event.priority = late.event.priority := by
    have notLower : ¬late.event.priority < early.event.priority := fun less => notBelow (.inl less)
    have notHigher : ¬early.event.priority < late.event.priority := fun less => disorder (.inl less)
    omega
  have earlier : early.event.triggerTime < late.event.triggerTime := by
    rw [← BitVec.not_le]
    exact fun le => disorder (.inr ⟨same.symm, le⟩)
  -- What is left in the queue did not stop `early` from being executed.
  have remains : ∀ other ∈ before.queue, other ∈ executed ∨ ¬below early other = true := by
    intro other member
    rcases List.mem_append.mp (so.split.mem_iff.mpr member) with done | left
    · exact .inl done
    · exact .inr (Bool.not_eq_true _ ▸ descends.above early earlyIn other left)
  simp only [below, compare_iff] at remains
  refine apart late early ⟨?_, ?_, so.due late lateIn, same, earlier, not_first_of_sublist so formed pair,
    top_due_of_executed so lateIn, ?_, ?_⟩
  · exact so.split.mem_iff.mp (List.mem_append_left _ lateIn)
  · exact so.split.mem_iff.mp (List.mem_append_left _ earlyIn)
  · intro other member higher
    rcases remains other member with done | notAbove
    · exact so.due other done
    · exact absurd (.inl higher) notAbove
  · intro zero other member level
    rcases remains other member with done | notAbove
    · exact so.due other done
    · have due := shouldTrigger_zero_iff.mpr zero
      by_contra late
      exact notAbove (.inr ⟨level.symm, due, shouldTrigger_zero (by simpa using late)⟩)

/-- What has to be executed before an event is due. -/
structure Unblocked (queue : List Entry) (currentTime : BitVec 64) (early : Entry) : Prop where
  due : early.event.shouldTrigger currentTime = true
  higher : ∀ other ∈ queue, early.event.priority < other.event.priority →
    other.event.shouldTrigger currentTime = true
  level : early.event.triggerTime = 0 → ∀ other ∈ queue, other.event.priority = early.event.priority →
    other.event.shouldTrigger currentTime = true

/-- What the call executes between two of its states. -/
def Executes (during after : EventScheduler) (executed : List Entry) : Prop :=
  eventScheduler.Reaches Inside during after ∧
    after.rounds.map Round.executed = during.rounds.map Round.executed ++ executed

theorem Executes.trans {executed further : List Entry} {last : EventScheduler} (first : Executes during after executed)
    (rest : Executes after last further) : Executes during last (executed ++ further) :=
  ⟨first.1.trans rest.1, by rw [rest.2, first.2, List.append_assoc]⟩

variable {late early top : Entry} {rest queue : List Entry}

theorem Unblocked.subset (unblocked : Unblocked queue currentTime early) (within : ∀ other ∈ rest, other ∈ queue) :
    Unblocked rest currentTime early :=
  ⟨unblocked.due, fun other member => unblocked.higher other (within other member),
    fun zero other member => unblocked.level zero other (within other member)⟩

theorem Unblocked.due_of_above (unblocked : Unblocked queue currentTime early) (member : top ∈ queue)
    (above : top = early ∨ below early top = true) : top.event.shouldTrigger currentTime = true := by
  rcases above with rfl | above
  · exact unblocked.due
  · rw [below, compare_iff] at above
    rcases above with higher | ⟨same, zero, -⟩
    · exact unblocked.higher top member higher
    · exact unblocked.level (shouldTrigger_zero_iff.mp zero) top member same.symm

/-- A round executes the top, and the rest is rearranged. -/
structure Pops (during : EventScheduler) (currentTime : BitVec 64) (top : Entry) (rest : List Entry)
    (after : EventScheduler) (next : Entry) (others : List Entry) : Prop where
  executes : Executes during after [top]
  queued : after.queue = next :: others
  perm : (next :: others).Perm rest
  updating : after.status = .updating currentTime
  formed : Formed after

section Pops

variable {next : Entry} {others : List Entry}

theorem Pops.mem_iff (pops : Pops during currentTime top rest after next others) {other : Entry} :
    other ∈ after.queue ↔ other ∈ rest := by
  rw [pops.queued]
  exact pops.perm.mem_iff

theorem Pops.length_lt (pops : Pops during currentTime top rest after next others) : others.length < rest.length := by
  rw [← pops.perm.length_eq]
  exact Nat.lt_succ_self _

theorem Pops.next_mem (pops : Pops during currentTime top rest after next others) : next ∈ after.queue := by
  rw [pops.queued]
  exact List.mem_cons_self

end Pops

theorem executes_round {front : Nat} (formed : Formed during) (updating : during.status = .updating currentTime)
    (queued : during.queue = top :: rest) (due : top.event.shouldTrigger currentTime = true)
    (arranged : arrange below front rest = some queue) :
    ∃ after, Executes during after [top] ∧ after.queue = queue ∧ after.status = .updating currentTime ∧
      Formed after := by
  have taken := quiet_round_taken updating queued due formed.fits arranged
  have inside : Inside during (.round [] 0 front) := rfl
  refine ⟨_, ⟨.next .start inside taken, ?_⟩, rfl, updating, formed.moves (moves_of_step taken)⟩
  rw [List.map_append]
  rfl

theorem exists_pops (formed : Formed during) (updating : during.status = .updating currentTime)
    (queued : during.queue = top :: rest) (due : top.event.shouldTrigger currentTime = true) {wanted : Entry}
    (member : wanted ∈ rest) :
    ∃ after next others, Pops during currentTime top rest after next others ∧
      (next = wanted ∨ below wanted next = true) := by
  obtain ⟨front, next, others, arranged, above⟩ :=
    Containers.exists_arrange_above below_irreflexive below_transitive member
  obtain ⟨after, executes, left, still, formed'⟩ := executes_round formed updating queued due arranged
  exact ⟨after, next, others, ⟨executes, left, Containers.arrange_perm arranged, still, formed'⟩, above⟩

theorem mem_rest {other : Entry} (queued : during.queue = top :: rest) (member : other ∈ during.queue)
    (differs : other ≠ top) : other ∈ rest := by
  rw [queued] at member
  rcases List.mem_cons.mp member with same | behind
  · exact absurd same differs
  · exact behind

theorem rest_subset {other : Entry} (queued : during.queue = top :: rest) (member : other ∈ rest) :
    other ∈ during.queue := by
  rw [queued]
  exact List.mem_cons_of_mem _ member

/-- An event that nothing blocks can be executed, by induction on the length of the queue. -/
theorem exists_executes (formed : Formed during) (updating : during.status = .updating currentTime)
    (queued : during.queue = top :: rest) (due : top.event.shouldTrigger currentTime = true)
    (unblocked : Unblocked during.queue currentTime early) (member : early ∈ during.queue) :
    ∃ after executed, Executes during after executed ∧ early ∈ executed := by
  induction length : rest.length using Nat.strongRecOn generalizing during top rest with
  | ind size ih =>
      by_cases first : early = top
      · obtain ⟨front, arranged, same⟩ := Containers.exists_arrange below_irreflexive below_transitive rest
        obtain ⟨after, executes, -⟩ := executes_round formed updating queued due same
        exact ⟨after, [top], executes, List.mem_singleton.mpr first⟩
      · have behind := mem_rest queued member first
        obtain ⟨middle, next, others, pops, above⟩ := exists_pops formed updating queued due behind
        have unblocked' : Unblocked middle.queue currentTime early :=
          unblocked.subset fun other left => rest_subset queued (pops.mem_iff.mp left)
        obtain ⟨after, executed, further, done⟩ :=
          ih _ (length ▸ pops.length_lt) pops.formed pops.updating pops.queued
            (unblocked'.due_of_above pops.next_mem above) unblocked' (pops.mem_iff.mpr behind) rfl
        exact ⟨after, _, pops.executes.trans further, List.mem_append_right _ done⟩

theorem Overtakes.unblocked (overtakes : Overtakes during currentTime late early) :
    Unblocked during.queue currentTime early := by
  refine ⟨?_, overtakes.higher, overtakes.level⟩
  have due := overtakes.due
  have earlier := overtakes.earlier
  rw [TimedEvent.shouldTrigger, decide_eq_true_iff] at due ⊢
  exact Nat.le_trans (BitVec.le_of_lt earlier) due

/-- Above an event that may overtake there are only events of higher priorities. -/
theorem Overtakes.higher_of_above (overtakes : Overtakes during currentTime late early)
    (above : below late top = true) : early.event.priority < top.event.priority := by
  rw [below, compare_iff] at above
  rcases above with higher | ⟨-, zero, -⟩
  · exact overtakes.same ▸ higher
  · have earlier := overtakes.earlier
    rw [shouldTrigger_zero_iff.mp zero] at earlier
    exact absurd earlier BitVec.not_lt_zero

theorem exists_overtaken (formed : Formed during) (updating : during.status = .updating currentTime)
    (queued : during.queue = top :: rest) (overtakes : Overtakes during currentTime late early) :
    ∃ after first last, Executes during after (first ++ late :: last) ∧ early ∈ last := by
  induction length : rest.length using Nat.strongRecOn generalizing during top rest with
  | ind size ih =>
      have onTop : during.queue.head? = some top := by rw [queued, List.head?_cons]
      have due := overtakes.starts top onTop
      have earlyBehind : early ∈ rest := by
        refine mem_rest queued overtakes.hasEarly ?_
        rintro rfl
        exact overtakes.notFirst onTop
      -- When `late` is on top it is executed now, and `early` can be reached after it; otherwise
      -- the round brings `late` on top, or something that `early` cannot be.
      by_cases first : late = top
      · obtain ⟨middle, next, others, pops, above⟩ := exists_pops formed updating queued due earlyBehind
        have unblocked : Unblocked middle.queue currentTime early :=
          overtakes.unblocked.subset fun other left => rest_subset queued (pops.mem_iff.mp left)
        obtain ⟨after, executed, further, done⟩ := exists_executes pops.formed pops.updating pops.queued
          (unblocked.due_of_above pops.next_mem above) unblocked (pops.mem_iff.mpr earlyBehind)
        exact ⟨after, [], executed, first ▸ pops.executes.trans further, done⟩
      · have lateBehind := mem_rest queued overtakes.hasLate first
        obtain ⟨middle, next, others, pops, above⟩ := exists_pops formed updating queued due lateBehind
        have within {other : Entry} (left : other ∈ middle.queue) : other ∈ during.queue :=
          rest_subset queued (pops.mem_iff.mp left)
        have nextDue : next.event.shouldTrigger currentTime = true := by
          rcases above with rfl | above
          · exact overtakes.due
          · exact overtakes.higher next (within pops.next_mem) (overtakes.higher_of_above above)
        have nextOther : next ≠ early := by
          rintro rfl
          rcases above with rfl | above
          · exact absurd overtakes.earlier (BitVec.lt_irrefl _)
          · exact Int.lt_irrefl _ (overtakes.higher_of_above above)
        have still : Overtakes middle currentTime late early := by
          refine ⟨pops.mem_iff.mpr lateBehind, pops.mem_iff.mpr earlyBehind, overtakes.due, overtakes.same,
            overtakes.earlier, ?_, ?_, fun other left => overtakes.higher other (within left),
            fun zero other left => overtakes.level zero other (within left)⟩
          · rw [pops.queued]
            exact fun same => nextOther (Option.some.inj same)
          · rw [pops.queued]
            rintro _ ⟨⟩
            exact nextDue
        obtain ⟨after, begun, last, further, done⟩ :=
          ih _ (length ▸ pops.length_lt) pops.formed pops.updating pops.queued still rfl
        exact ⟨after, top :: begun, last, pops.executes.trans further, done⟩

theorem Overtakes.not_inOrder (overtakes : Overtakes before currentTime late early) : ¬InOrder late early := by
  rintro (higher | ⟨-, le⟩)
  · exact Int.lt_irrefl _ (overtakes.same ▸ higher)
  · exact BitVec.not_le.mpr overtakes.earlier le

/-- Callbacks that schedule nothing are executed in order, however the heap ranks equal events. -/
def UpdateOrders (before : EventScheduler) (currentTime : BitVec 64) : Prop :=
  ∀ during, During before currentTime during → InOrderSince before during

theorem updateOrders_of_apart (formed : Formed before)
    (apart : ∀ late early, ¬Overtakes before currentTime late early) : UpdateOrders before currentTime := by
  intro during in_call
  obtain ⟨executed, so, descends⟩ := descends_during formed in_call
  rw [InOrderSince, executedSince_eq so.rounds]
  exact descends.inOrder so formed apart

theorem UpdateOrders.not_overtakes (orders : UpdateOrders before currentTime) (formed : Formed before)
    (idle : before.status = .idle) : ¬Overtakes before currentTime late early := by
  intro overtakes
  have called := update_taken idle currentTime
  obtain ⟨top, rest, queued⟩ := List.exists_cons_of_ne_nil (List.ne_nil_of_mem overtakes.hasLate)
  have begins : Overtakes { before with status := .updating currentTime } currentTime late early :=
    ⟨overtakes.hasLate, overtakes.hasEarly, overtakes.due, overtakes.same, overtakes.earlier, overtakes.notFirst,
      overtakes.starts, overtakes.higher, overtakes.level⟩
  obtain ⟨after, first, last, ⟨inside, executes⟩, behind⟩ :=
    exists_overtaken (formed.moves (moves_of_step called)) rfl queued begins
  have rounds : after.rounds.map Round.executed = before.rounds.map Round.executed ++ (first ++ late :: last) :=
    executes
  have ordered := orders after ⟨_, called, inside⟩
  rw [InOrderSince, executedSince_eq rounds] at ordered
  have follows := (List.pairwise_cons.mp (List.pairwise_append.mp ordered).2.1).1 early behind
  exact overtakes.not_inOrder follows

theorem InOrder.trans {first second third : Entry} (earlier : InOrder first second) (later : InOrder second third) :
    InOrder first third := by
  rcases earlier with higher | ⟨same, le⟩
  · rcases later with higher' | ⟨same', -⟩
    · exact .inl (Int.lt_trans higher' higher)
    · exact .inl (same' ▸ higher)
  · rcases later with higher | ⟨same', le'⟩
    · exact .inl (same ▸ higher)
    · exact .inr ⟨same.trans same', BitVec.le_trans le le'⟩

/-- Whatever is due and may be on top after a round is in order with the event the round executes. -/
def Followed (scheduler : EventScheduler) (currentTime : BitVec 64) (pushed : List TimedEvent) (front : Nat) : Prop :=
  ∀ top ∈ scheduler.queue.head?, ∀ left ∈ (scheduler.afterCallback pushed front).map List.tail,
    ∀ next ∈ left, Containers.greatest below left next = true → next.event.shouldTrigger currentTime = true →
      InOrder top next

/-- The steps of a call of `update` whose callbacks may schedule events. -/
def Orderly (currentTime : BitVec 64) (scheduler : EventScheduler) : SchedulerAction → Prop
  | .round pushed front _ => Followed scheduler currentTime pushed front
  | .finish => True
  | .scheduleEvent .. | .cancelEvent .. | .rescheduleEvent .. | .update _ => False

instance (currentTime : BitVec 64) (scheduler : EventScheduler) :
    (action : SchedulerAction) → Decidable (Orderly currentTime scheduler action)
  | .round pushed front _ => inferInstanceAs (Decidable (∀ top ∈ scheduler.queue.head?,
      ∀ left ∈ (scheduler.afterCallback pushed front).map List.tail, ∀ next ∈ left,
        Containers.greatest below left next = true → next.event.shouldTrigger currentTime = true → InOrder top next))
  | .finish => inferInstanceAs (Decidable True)
  | .scheduleEvent .. | .cancelEvent .. | .rescheduleEvent .. | .update _ => inferInstanceAs (Decidable False)

/-- However the heap ranks equal events, the event executed next is in order. -/
def NextInOrder (before during : EventScheduler) (pushed : List TimedEvent) (front : Nat) : Prop :=
  ∀ next after, eventScheduler.step during (.round pushed front next) = some after →
    ∀ pushed front next last, eventScheduler.step after (.round pushed front next) = some last →
      InOrderSince before last

/-- What was executed so far is in order, also with what a further round would execute. -/
structure Ordered (before : EventScheduler) (currentTime : BitVec 64) (executed : List Entry)
    (during : EventScheduler) : Prop where
  rounds : during.rounds.map Round.executed = before.rounds.map Round.executed ++ executed
  time : ∀ time, during.status = .updating time → time = currentTime
  sorted : executed.Pairwise InOrder
  onwards : ∀ entry ∈ executed, ∀ top ∈ during.queue.head?, top.event.shouldTrigger currentTime = true →
    InOrder entry top

variable {pushed : List TimedEvent} {front next : Nat} {executed : List Entry}

theorem Ordered.inOrderSince (ordered : Ordered before currentTime executed during) : InOrderSince before during := by
  rw [InOrderSince, executedSince_eq ordered.rounds]
  exact ordered.sorted

theorem cases_of_round (taken : eventScheduler.step during (.round pushed front next) = some after) :
    ∃ time top, during.status = .updating time ∧ top ∈ during.queue.head? ∧
      top.event.shouldTrigger time = true ∧
      (after = { during with status := .undefined } ∨
        ∃ slot left queue, during.afterCallback pushed front = some (slot :: left) ∧
          arrange below next left = some queue ∧ after.queue = queue ∧ after.status = during.status ∧
          after.rounds.map Round.executed = during.rounds.map Round.executed ++ [top]) := by
  obtain ⟨time, updating, ran⟩ := round_of_step taken
  obtain ⟨top, rest, queued, ready, result⟩ := round_cases ran
  refine ⟨time, top, updating, by rw [queued]; rfl, (Bool.and_eq_true_iff.mp ready).1, ?_⟩
  rcases result with ⟨-, rfl⟩ | ⟨-, slot, left, queue, arranged, popped, rfl⟩
  · exact .inl rfl
  · refine .inr ⟨slot, left, queue, arranged, popped, rfl, rfl, ?_⟩
    rw [List.map_append]
    rfl

theorem Ordered.round (ordered : Ordered before currentTime executed during)
    (taken : eventScheduler.step during (.round pushed front next) = some after) : InOrderSince before after := by
  obtain ⟨time, top, updating, onTop, due, result⟩ := cases_of_round taken
  obtain rfl := ordered.time time updating
  rcases result with rfl | ⟨slot, left, queue, -, -, -, -, rounds⟩
  · exact ordered.inOrderSince
  · rw [ordered.rounds, List.append_assoc] at rounds
    rw [InOrderSince, executedSince_eq rounds, List.pairwise_append]
    refine ⟨ordered.sorted, List.pairwise_singleton _ _, ?_⟩
    intro entry member other last
    rw [List.mem_singleton.mp last]
    exact ordered.onwards entry member top onTop due

theorem Ordered.orderly (ordered : Ordered before currentTime executed during)
    (orderly : Orderly currentTime during action) (taken : eventScheduler.step during action = some after) :
    ∃ executed, Ordered before currentTime executed after := by
  cases action with
  | scheduleEvent => cases orderly
  | cancelEvent => cases orderly
  | rescheduleEvent => cases orderly
  | update => cases orderly
  | finish =>
      cases moves_of_step taken with
      | finish updating quiet =>
          exact ⟨executed, ordered.rounds, fun _ => Status.noConfusion, ordered.sorted, ordered.onwards⟩
  | round pushed front next =>
      have sorted := ordered.round taken
      obtain ⟨time, top, updating, onTop, due, result⟩ := cases_of_round taken
      obtain rfl := ordered.time time updating
      rcases result with rfl | ⟨slot, left, queue, arranged, popped, queued, same, rounds⟩
      · exact ⟨executed, ordered.rounds, fun _ => Status.noConfusion, ordered.sorted, ordered.onwards⟩
      · rw [ordered.rounds, List.append_assoc] at rounds
        rw [InOrderSince, executedSince_eq rounds] at sorted
        refine ⟨executed ++ [top], rounds, fun _ => same ▸ ordered.time _, sorted, ?_⟩
        intro entry member following first followingDue
        rw [queued] at first
        -- What is on top now follows what was executed last, and that follows all before it.
        have perm := Containers.arrange_perm popped
        have within : following ∈ left := perm.mem_iff.mp (List.mem_of_mem_head? first)
        have great : Containers.greatest below left following = true := by
          rw [Containers.greatest_iff]
          intro other behind
          exact Containers.arrange_topped popped following first other (perm.mem_iff.mpr behind)
        have follows : InOrder top following :=
          orderly top onTop left (by rw [arranged]; rfl) following within great followingDue
        rcases List.mem_append.mp member with old | new
        · exact (ordered.onwards entry old top onTop due).trans follows
        · rw [List.mem_singleton.mp new]
          exact follows

theorem ordered_reached {begun : EventScheduler}
    (called : eventScheduler.step before (.update currentTime) = some begun)
    (reach : eventScheduler.Reaches (Orderly currentTime) begun during) :
    ∃ executed, Ordered before currentTime executed during := by
  induction reach with
  | start =>
      cases moves_of_step called with
      | update idle => exact ⟨[], by simp, fun _ same => (Status.updating.inj same).symm, .nil, by simp⟩
  | next _ orderly taken ih =>
      obtain ⟨executed, ordered⟩ := ih
      exact ordered.orderly orderly taken

/-- The pop at the end of a round may bring any greatest event on top. -/
theorem exists_round {slot wanted : Entry} {left : List Entry} (formed : Formed during)
    (onTop : top ∈ during.queue.head?)
    (taken : eventScheduler.step during (.round pushed front next) = some after) (defined : after.status ≠ .undefined)
    (arranged : during.afterCallback pushed front = some (slot :: left)) (member : wanted ∈ left)
    (great : Containers.greatest below left wanted = true) :
    ∃ next after rest, eventScheduler.step during (.round pushed front next) = some after ∧
      after.queue = wanted :: rest ∧ after.status = during.status ∧ Formed after ∧
        after.rounds.map Round.executed = during.rounds.map Round.executed ++ [top] := by
  obtain ⟨time, updating, ran⟩ := round_of_step taken
  obtain ⟨first, rest, queued, ready, result⟩ := round_cases ran
  rw [queued] at onTop
  cases onTop
  rcases result with ⟨-, rfl⟩ | ⟨fits, -⟩
  · exact absurd rfl defined
  · obtain ⟨next, found⟩ := List.getElem?_of_mem member
    have again := round_taken updating queued ready fits arranged (Containers.arrange_of_greatest found great)
    refine ⟨next, _, _, again, rfl, rfl, formed.moves (moves_of_step again), ?_⟩
    rw [List.map_append]
    rfl

theorem Ordered.nextInOrder_iff (ordered : Ordered before currentTime executed during) (formed : Formed during)
    (taken : eventScheduler.step during (.round pushed front next) = some after) (defined : after.status ≠ .undefined) :
    NextInOrder before during pushed front ↔ Followed during currentTime pushed front := by
  constructor
  · intro inOrder top onTop left isLeft following member great due
    obtain ⟨found, arranged, rfl⟩ := Option.map_eq_some_iff.mp (Option.mem_def.mp isLeft)
    obtain ⟨slot, left, rfl⟩ := List.exists_cons_of_ne_nil (l := found) (by rintro rfl; cases member)
    obtain ⟨time, -, updating, -⟩ := cases_of_round taken
    obtain rfl := ordered.time time updating
    obtain ⟨next, middle, rest, again, queued, same, formed, rounds⟩ :=
      exists_round formed onTop taken defined arranged member great
    obtain ⟨next', others, popped⟩ := Containers.exists_arrange below_irreflexive below_transitive rest
    have second := quiet_round_taken (same.trans updating) queued due formed.fits popped
    have sorted := inOrder next middle again [] 0 next' _ second
    have executes : (middle.rounds ++ [Round.mk following { following with event := following.event.advance }]).map
        Round.executed = before.rounds.map Round.executed ++ (executed ++ [top, following]) := by
      rw [List.map_append, rounds, ordered.rounds]
      simp
    rw [InOrderSince, executedSince_eq executes] at sorted
    have both := (List.pairwise_append.mp sorted).2.1
    exact (List.pairwise_cons.mp both).1 following (List.mem_singleton_self _)
  · intro followed next middle first pushed' front' next' last second
    have orderly : Orderly currentTime during (.round pushed front next) := followed
    obtain ⟨executed', ordered'⟩ := ordered.orderly orderly first
    exact ordered'.round second

/-- One call of `update` is in order unless an event may overtake another at the call, or a round leaves on
top what is due and not in order. -/
theorem updateOrders_iff (reach : eventScheduler.Reaches (fun _ _ => True) {} before) (idle : before.status = .idle)
    (currentTime : BitVec 64) :
    (UpdateOrders before currentTime ↔ ∀ late early, ¬Overtakes before currentTime late early) ∧
      ∀ begun during, eventScheduler.step before (.update currentTime) = some begun →
        eventScheduler.Reaches (Orderly currentTime) begun during →
          InOrderSince before during ∧
            ∀ pushed front next after, eventScheduler.step during (.round pushed front next) = some after →
              after.status ≠ .undefined →
                (NextInOrder before during pushed front ↔ Followed during currentTime pushed front) := by
  have formed := formed_reached reach
  refine ⟨⟨fun orders late early => orders.not_overtakes formed idle, updateOrders_of_apart formed⟩, ?_⟩
  intro begun during called inside
  obtain ⟨executed, ordered⟩ := ordered_reached called inside
  have formed' : Formed during := by
    have begins := formed.moves (moves_of_step called)
    exact inside.invariant begins fun _ _ _ _ formed _ taken => formed.moves (moves_of_step taken)
  exact ⟨ordered.inOrderSince, fun _ _ _ _ taken defined => ordered.nextInOrder_iff formed' taken defined⟩

/-- Two events with the same trigger time, the one of the higher priority on top. -/
def twoPriorities : EventScheduler :=
  eventScheduler.after (fun _ _ => True) {}
    [.scheduleEvent { triggerTime := 1 } 3 0, .scheduleEvent { triggerTime := 1, priority := 2 } 0 0] (by decide)

def twoPrioritiesBegun : EventScheduler := { twoPriorities with status := .updating 5 }

/-- The callback of the first event schedules one with a priority in between. -/
def threePriorities : EventScheduler :=
  eventScheduler.after (Orderly 5) twoPrioritiesBegun
    [.round [{ triggerTime := 0, priority := 1 }] 0 1, .round [] 0 0, .round [] 0 0, .finish] (by decide)

theorem updateOrders_twoPriorities : UpdateOrders twoPriorities 5 ∧ InOrderSince twoPriorities threePriorities := by
  have reach : eventScheduler.Reaches (fun _ _ => True) {} twoPriorities := System.reaches_after _
  have inside : eventScheduler.Reaches (Orderly 5) twoPrioritiesBegun threePriorities := System.reaches_after _
  have main := updateOrders_iff reach (by decide) 5
  refine ⟨main.1.mpr ?_, (main.2 twoPrioritiesBegun threePriorities (by decide) inside).1⟩
  intro late early overtakes
  have distinct : ∀ late ∈ twoPriorities.queue, ∀ early ∈ twoPriorities.queue,
      early.event.priority = late.event.priority → early = late := by decide
  obtain rfl := distinct late overtakes.hasLate early overtakes.hasEarly overtakes.same
  exact BitVec.lt_irrefl _ overtakes.earlier

/-- Two events of one priority, of which that for time 0 is below the other. -/
def zeroBelow : EventScheduler :=
  eventScheduler.after (fun _ _ => True) {}
    [.scheduleEvent { triggerTime := 0 } 3 0, .scheduleEvent { triggerTime := 5 } 0 0] (by decide)

instance (scheduler : EventScheduler) : (action : SchedulerAction) → Decidable (Inside scheduler action)
  | .round pushed _ _ => inferInstanceAs (Decidable (pushed = []))
  | .finish => inferInstanceAs (Decidable True)
  | .scheduleEvent .. | .cancelEvent .. | .rescheduleEvent .. | .update _ => inferInstanceAs (Decidable False)

def zeroBelowBegun : EventScheduler := { zeroBelow with status := .updating 5 }

def zeroLast : EventScheduler :=
  eventScheduler.after Inside zeroBelowBegun [.round [] 0 0, .round [] 0 0, .finish] (by decide)

/-- An update at 5 executes the event for time 5 before that for time 0. -/
theorem later_event_first :
    eventScheduler.Reaches (fun _ _ => True) {} zeroBelow ∧ zeroBelow.status = .idle ∧ zeroLast.status = .idle ∧
      During zeroBelow 5 zeroLast ∧
      (executedSince zeroBelow zeroLast).map (fun entry => entry.event.triggerTime) = [5, 0] ∧
      ¬InOrderSince zeroBelow zeroLast := by
  have returns : During zeroBelow 5 zeroLast := ⟨zeroBelowBegun, by decide, System.reaches_after _⟩
  refine ⟨System.reaches_after _, by decide, by decide, returns, by decide, ?_⟩
  unfold InOrderSince
  decide

end SoulLib.Time.EventScheduler
