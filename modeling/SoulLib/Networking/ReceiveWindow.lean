import SoulLib.Networking.NetworkManager
import SoulLib.Networking.Window

/-! The receive window of a channel represents a duplicate filter of width 32.

Below half of the sequence space the serial comparisons are comparisons of
natural numbers, and bit `i` of the received mask says whether the number
`i + 1` below the newest was accepted late.
-/

set_option autoImplicit false

namespace SoulLib.Networking

theorem sequenceGreater_iff {lhs rhs : BitVec 32} (left : lhs.toNat < 2 ^ 31) (right : rhs.toNat < 2 ^ 31) :
    sequenceGreater lhs rhs = true ↔ rhs.toNat < lhs.toNat := by
  unfold sequenceGreater
  rw [decide_eq_true_eq, BitVec.toInt_eq_toNat_cond, BitVec.toNat_sub]
  split <;> omega

theorem sequenceLessEqual_iff {lhs rhs : BitVec 32} (left : lhs.toNat < 2 ^ 31) (right : rhs.toNat < 2 ^ 31) :
    sequenceLessEqual lhs rhs = true ↔ lhs.toNat ≤ rhs.toNat := by
  unfold sequenceLessEqual
  rw [decide_eq_true_eq, BitVec.toInt_eq_toNat_cond, BitVec.toNat_sub]
  split <;> omega

theorem toNat_distance {newer older : BitVec 32} (le : older.toNat ≤ newer.toNat) :
    (newer - older).toNat = newer.toNat - older.toNat :=
  BitVec.toNat_sub_of_le le

theorem mask_test (mask : BitVec 32) {place : BitVec 32} (bound : place.toNat < 32) :
    ((mask &&& (1#32 <<< place)) != 0) = mask.getLsbD place.toNat := by
  rw [BitVec.shiftLeft_eq', ← BitVec.twoPow_eq, BitVec.and_twoPow]
  split
  · next set =>
      rw [set, bne_iff_ne]
      intro zero
      have := congrArg BitVec.toNat zero
      simp [BitVec.toNat_twoPow_of_lt bound] at this
  · next clear => simpa using clear

theorem mask_set (mask : BitVec 32) {place : BitVec 32} (bound : place.toNat < 32) (i : Nat) :
    (mask ||| (1#32 <<< place)).getLsbD i = (mask.getLsbD i || decide (i = place.toNat)) := by
  rw [BitVec.shiftLeft_eq', ← BitVec.twoPow_eq, BitVec.getLsbD_or, BitVec.getLsbD_twoPow]
  simp [bound, eq_comm]

/-- The mask position of a number strictly below the newest and within the window. -/
theorem toNat_place {newest sequence : BitVec 32} (lt : sequence.toNat < newest.toNat) :
    (newest - sequence - 1).toNat = newest.toNat - sequence.toNat - 1 := by
  have distance := toNat_distance (Nat.le_of_lt lt)
  rw [BitVec.toNat_sub_of_le (by rw [BitVec.le_def]; simp; omega), distance]
  rfl

theorem isSequenceAcked_iff {sequence ack ackMask : BitVec 32} (sent : sequence.toNat < 2 ^ 31)
    (received : ack.toNat < 2 ^ 31) :
    isSequenceAcked sequence ack ackMask = true ↔
      sequence.toNat = ack.toNat ∨ (sequence.toNat < ack.toNat ∧ ack.toNat - sequence.toNat ≤ 32 ∧
        ackMask.getLsbD (ack.toNat - sequence.toNat - 1) = true) := by
  unfold isSequenceAcked
  by_cases same : sequence = ack
  · simp [same]
  · have differ : sequence.toNat ≠ ack.toNat := fun equal => same (BitVec.eq_of_toNat_eq equal)
    rw [if_neg same]
    by_cases lt : sequence.toNat < ack.toNat
    · have distance := toNat_distance (Nat.le_of_lt lt)
      have ordered : sequenceLessEqual sequence ack = true :=
        (sequenceLessEqual_iff sent received).mpr (Nat.le_of_lt lt)
      -- the distance of two different numbers is a place from 1 on
      have nonzero : ack - sequence ≠ 0 := by
        intro zero
        rw [zero] at distance
        simp at distance
        omega
      simp only [ordered, Bool.not_true, Bool.false_eq_true, if_false, if_neg nonzero]
      have far : (32 < ack - sequence) ↔ 32 < ack.toNat - sequence.toNat := by
        rw [BitVec.lt_def, distance]
        rfl
      by_cases beyond : 32 < ack.toNat - sequence.toNat
      · rw [if_pos (far.mpr beyond)]
        simp only [Bool.false_eq_true, false_iff]
        omega
      · rw [if_neg (mt far.mp beyond), mask_test _ (by rw [toNat_place lt]; omega), toNat_place lt]
        constructor
        · intro set
          exact .inr ⟨lt, by omega, set⟩
        · rintro (equal | ⟨-, -, set⟩)
          · exact absurd equal differ
          · exact set
    -- a number after the head is never acknowledged
    · have unordered : sequenceLessEqual sequence ack = false := by
        rw [← Bool.not_eq_true, sequenceLessEqual_iff sent received]
        omega
      simp only [unordered, Bool.not_false, if_true, Bool.false_eq_true, false_iff]
      omega

/-- A channel state whose window holds what a filter of width 32 holds. -/
structure Represents (state : ReliableChannelState) (filter : Filter) : Prop where
  received : state.hasReceived = filter.newest.isSome
  fresh : filter.newest = none → state.lastReceivedSequence = 0 ∧ state.receivedMask = 0
  last : ∀ newest, filter.newest = some newest → state.lastReceivedSequence.toNat = newest
  mask : ∀ newest, filter.newest = some newest → ∀ i < 32,
    state.receivedMask.getLsbD i = decide (i < newest ∧ newest - (i + 1) ∈ filter.late)

namespace Represents

variable {state : ReliableChannelState} {filter : Filter}

theorem congr {other : ReliableChannelState} (represents : Represents state filter)
    (received : other.hasReceived = state.hasReceived)
    (last : other.lastReceivedSequence = state.lastReceivedSequence)
    (mask : other.receivedMask = state.receivedMask) : Represents other filter := by
  obtain ⟨receivedEq, fresh, lastEq, maskEq⟩ := represents
  refine ⟨received.trans receivedEq, ?_, ?_, ?_⟩
  · rw [last, mask]
    exact fresh
  · rw [last]
    exact lastEq
  · rw [mask]
    exact maskEq

variable {newest : Nat} {sequence : BitVec 32}

/-- Shifting by the distance to a new head keeps every remembered number in place. -/
theorem shift (represents : Represents state filter) (found : filter.newest = some newest)
    (lateLt : ∀ other ∈ filter.late, other < newest) (newer : newest < sequence.toNat) :
    Represents
      { state with
        receivedMask := if 32 ≤ sequence - state.lastReceivedSequence then 0
          else state.receivedMask <<< (sequence - state.lastReceivedSequence)
        lastReceivedSequence := sequence
        pendingAck := true }
      { filter with newest := some sequence.toNat, accepted := filter.accepted ++ [sequence.toNat] } := by
  have last := represents.last newest found
  have distance := toNat_distance (show state.lastReceivedSequence.toNat ≤ sequence.toNat by omega)
  refine ⟨?_, ?_, ?_, ?_⟩
  · simp [represents.received, found]
  · intro impossible
    cases impossible
  · rintro _ same
    exact Option.some.inj same
  · rintro _ same i bound
    cases same
    have wide : (32 ≤ sequence - state.lastReceivedSequence) ↔ 32 ≤ sequence.toNat - newest := by
      rw [BitVec.le_def, distance, last]
      rfl
    -- A shift by 32 or more would be undefined; the source clears the mask.
    by_cases far : 32 ≤ sequence.toNat - newest
    · simp only [if_pos (wide.mpr far)]
      have outside : ¬ (i < sequence.toNat ∧ sequence.toNat - (i + 1) ∈ filter.late) := by
        rintro ⟨-, member⟩
        have := lateLt _ member
        omega
      simp [outside]
    · simp only [if_neg (mt wide.mp far), BitVec.shiftLeft_eq', distance, last, BitVec.getLsbD_shiftLeft]
      -- The new low bits stand for numbers between the heads, none of which has arrived.
      by_cases inside : i < sequence.toNat - newest
      · have outside : ¬ (i < sequence.toNat ∧ sequence.toNat - (i + 1) ∈ filter.late) := by
          rintro ⟨-, member⟩
          have := lateLt _ member
          omega
        simp [inside, outside]
      · have old := represents.mask newest found (i - (sequence.toNat - newest)) (by omega)
        have place : newest - (i - (sequence.toNat - newest) + 1) = sequence.toNat - (i + 1) := by omega
        have range : i - (sequence.toNat - newest) < newest ↔ i < sequence.toNat := by omega
        rw [old]
        simp only [place, range]
        simp [bound, inside]

/-- The mask bit of a number below the newest says whether it was accepted late. -/
theorem bit (represents : Represents state filter) (found : filter.newest = some newest)
    (lt : sequence.toNat < newest) (near : newest - sequence.toNat ≤ 32) :
    (state.lastReceivedSequence - sequence - 1).toNat = newest - sequence.toNat - 1 ∧
      ((state.receivedMask &&& (1#32 <<< (state.lastReceivedSequence - sequence - 1))) != 0) =
        decide (sequence.toNat ∈ filter.late) := by
  have last := represents.last newest found
  have place := toNat_place (show sequence.toNat < state.lastReceivedSequence.toNat by omega)
  rw [last] at place
  have positive : newest - sequence.toNat - 1 < newest := by omega
  have recovered : newest - (newest - sequence.toNat - 1 + 1) = sequence.toNat := by omega
  refine ⟨place, ?_⟩
  rw [mask_test _ (by omega), place, represents.mask newest found _ (by omega), recovered]
  simp [positive]

theorem remember (represents : Represents state filter) (found : filter.newest = some newest)
    (lt : sequence.toNat < newest) (near : newest - sequence.toNat ≤ 32) :
    Represents
      { state with
        receivedMask := state.receivedMask ||| (1#32 <<< (state.lastReceivedSequence - sequence - 1))
        pendingAck := true }
      { filter with
        late := sequence.toNat :: filter.late
        accepted := filter.accepted ++ [sequence.toNat] } := by
  have place := (represents.bit found lt near).1
  refine ⟨represents.received, by simp [found], represents.last, ?_⟩
  intro other otherFound i small
  obtain rfl : newest = other := Option.some.inj (found.symm.trans otherFound)
  rw [mask_set _ (by omega), represents.mask newest found i small, place]
  have here : i = newest - sequence.toNat - 1 ↔ i < newest ∧ newest - (i + 1) = sequence.toNat := by
    omega
  by_cases low : i < newest
  · simp [low, here, or_comm]
  · simp [low, here]

/-- `handle_incoming_sequence` answers and updates as the filter does. -/
theorem handleIncomingSequence (represents : Represents state filter) {arrivals : List Nat}
    (tracks : Filter.Tracks arrivals filter)
    (below : ∀ newest, filter.newest = some newest → newest < 2 ^ 31)
    (bound : sequence.toNat < 2 ^ 31) :
    (state.handleIncomingSequence sequence).2 = filter.duplicate 32 sequence.toNat ∧
      Represents (state.handleIncomingSequence sequence).1 (filter.receive 32 sequence.toNat) := by
  unfold ReliableChannelState.handleIncomingSequence Filter.receive
  cases found : filter.newest with
  | none =>
      have unreceived : state.hasReceived = false := by simp [represents.received, found]
      simp only [unreceived, Bool.not_false, if_true]
      refine ⟨by simp [Filter.duplicate, found], by simp, by simp, ?_, ?_⟩
      · rintro _ same
        exact Option.some.inj same
      · rintro _ same i -
        simp [(tracks.empty found).2.1]
  | some newest =>
      have received : state.hasReceived = true := by simp [represents.received, found]
      have last := represents.last newest found
      have lastBound : state.lastReceivedSequence.toNat < 2 ^ 31 := by
        rw [last]
        exact below newest found
      rw [if_neg (by simp [received])]
      -- Below 2^31 the serial comparison is the ordinary one, so the branches line up with the filter's.
      by_cases newer : newest < sequence.toNat
      · have greater : sequenceGreater sequence state.lastReceivedSequence = true :=
          (sequenceGreater_iff bound lastBound).mpr (by omega)
        have notLe : ¬ sequence.toNat ≤ newest := by omega
        simp only [greater, if_true, newer]
        refine ⟨by simp [Filter.duplicate, found, notLe], ?_⟩
        exact represents.shift found (tracks.late_lt newest found) newer
      · have notGreater : sequenceGreater sequence state.lastReceivedSequence = false := by
          rw [← Bool.not_eq_true, sequenceGreater_iff bound lastBound]
          omega
        have le : sequence.toNat ≤ newest := by omega
        have distance := toNat_distance (show sequence.toNat ≤ state.lastReceivedSequence.toNat by omega)
        rw [last] at distance
        have zero : (state.lastReceivedSequence - sequence = 0) ↔ sequence.toNat = newest := by
          rw [← BitVec.toNat_inj, distance]
          change newest - sequence.toNat = 0 ↔ _
          omega
        have far : (32 < state.lastReceivedSequence - sequence) ↔ 32 < newest - sequence.toNat := by
          rw [BitVec.lt_def, distance]
          rfl
        simp only [notGreater, Bool.false_eq_true, if_false, newer]
        simp only [zero, far, Filter.duplicate, found, le, decide_true, Bool.true_and]
        by_cases same : sequence.toNat = newest
        · simp [same, represents]
        · by_cases beyond : 32 < newest - sequence.toNat
          · simp [same, beyond, represents]
          · have lt : sequence.toNat < newest := by omega
            have near : newest - sequence.toNat ≤ 32 := by omega
            simp only [same, beyond, (represents.bit found lt near).2, if_false, decide_false,
              Bool.false_or, decide_eq_true_eq]
            by_cases late : sequence.toNat ∈ filter.late
            · simp [late, represents]
            · simp only [late, if_false, decide_false, true_and]
              have remembered := represents.remember found lt near
              rw [found] at remembered
              exact remembered

theorem acked_accepted (represents : Represents state filter) {arrivals : List Nat}
    (tracks : Filter.Tracks arrivals filter)
    (below : ∀ newest, filter.newest = some newest → newest < 2 ^ 31)
    (positive : 0 < sequence.toNat) (sent : sequence.toNat < 2 ^ 31)
    (acked : isSequenceAcked sequence state.lastReceivedSequence state.receivedMask = true) :
    sequence.toNat ∈ filter.accepted := by
  cases found : filter.newest with
  | none =>
      obtain ⟨last, mask⟩ := represents.fresh found
      rw [last, mask, isSequenceAcked_iff sent (by decide)] at acked
      simp at acked
      omega
  | some newest =>
      have last := represents.last newest found
      rw [isSequenceAcked_iff sent (by rw [last]; exact below newest found), last] at acked
      rcases acked with same | ⟨lt, near, set⟩
      · rw [same]
        exact tracks.newest_accepted newest found
      · rw [represents.mask newest found _ (by omega), decide_eq_true_eq] at set
        have recovered : newest - (newest - sequence.toNat - 1 + 1) = sequence.toNat := by omega
        rw [recovered] at set
        exact tracks.late_accepted _ set.2

end Represents

end SoulLib.Networking
