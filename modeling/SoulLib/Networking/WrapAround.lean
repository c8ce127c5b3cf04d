import SoulLib.Networking.Channels

/-! No sequence number is special.

Only differences of sequence numbers are ever looked at. Numbers that are all
shifted by the same amount are answered in the same way, wherever they wrap around.
-/

set_option autoImplicit false

namespace SoulLib.Networking

/-- What a sequence number is answered with, and the window it leaves. -/
structure Reception where
  duplicate : Bool
  receivedMask : BitVec 32
  lastReceivedSequence : BitVec 32
  deriving DecidableEq, Repr

def Reception.shift (reception : Reception) (k : BitVec 32) : Reception :=
  { reception with lastReceivedSequence := reception.lastReceivedSequence + k }

section Differences

variable (lhs rhs k : BitVec 32)

theorem sub_shift : (lhs + k) - (rhs + k) = lhs - rhs := by bv_omega

theorem sequenceGreater_shift : sequenceGreater (lhs + k) (rhs + k) = sequenceGreater lhs rhs := by
  rw [sequenceGreater, sequenceGreater, sub_shift]

theorem sequenceLessEqual_shift : sequenceLessEqual (lhs + k) (rhs + k) = sequenceLessEqual lhs rhs := by
  rw [sequenceLessEqual, sequenceLessEqual, sub_shift]

theorem isSequenceAcked_shift (sequence ack ackMask : BitVec 32) :
    isSequenceAcked (sequence + k) (ack + k) ackMask = isSequenceAcked sequence ack ackMask := by
  have same : sequence + k = ack + k ↔ sequence = ack := by
    constructor
    · intro shifted
      bv_omega
    · rintro rfl
      rfl
  simp only [isSequenceAcked, same, sequenceLessEqual_shift, sub_shift]

end Differences

namespace ReliableChannelState

/-- The channel as it looks when all numbers are greater by `k`. -/
structure Shifted (k : BitVec 32) (state shifted : ReliableChannelState) : Prop where
  hasReceived : shifted.hasReceived = state.hasReceived
  receivedMask : state.hasReceived = true → shifted.receivedMask = state.receivedMask
  last : state.hasReceived = true → shifted.lastReceivedSequence = state.lastReceivedSequence + k

variable {k : BitVec 32} {state shifted : ReliableChannelState}

def reception (state : ReliableChannelState) (duplicate : Bool) : Reception where
  duplicate
  receivedMask := state.receivedMask
  lastReceivedSequence := state.lastReceivedSequence

theorem Shifted.handleIncomingSequence (same : Shifted k state shifted) (sequence : BitVec 32) :
    let left := state.handleIncomingSequence sequence
    let right := shifted.handleIncomingSequence (sequence + k)
    Shifted k left.1 right.1 ∧ right.1.reception right.2 = (left.1.reception left.2).shift k := by
  obtain ⟨received, mask, last⟩ := same
  cases begun : state.hasReceived with
  | false =>
      rw [begun] at received
      simp only [ReliableChannelState.handleIncomingSequence, begun, received, Bool.not_false, if_true]
      exact ⟨⟨rfl, fun _ => rfl, fun _ => rfl⟩, rfl⟩
  | true =>
      rw [begun] at received
      have kept : Shifted k state shifted := ⟨received.trans begun.symm, mask, last⟩
      -- A number that changes nothing is answered from states that are alike.
      have alike : ∀ duplicate, shifted.reception duplicate = (state.reception duplicate).shift k := by
        intro duplicate
        rw [reception, reception, Reception.shift, mask begun, last begun]
      simp only [ReliableChannelState.handleIncomingSequence, begun, received, mask begun, last begun,
        sequenceGreater_shift, sub_shift, Bool.not_true, Bool.false_eq_true, if_false]
      split
      · exact ⟨⟨rfl, fun _ => rfl, fun _ => rfl⟩, rfl⟩
      · split
        · exact ⟨kept, alike true⟩
        · split
          · exact ⟨kept, alike true⟩
          · split
            · exact ⟨kept, alike true⟩
            · exact ⟨⟨rfl, fun _ => rfl, fun _ => rfl⟩, rfl⟩

end ReliableChannelState

namespace NetworkManager

/-- Sequence numbers that arrive one after the other on a channel. -/
def receptions (endpoint : Endpoint) (channel : BitVec 16) (manager : NetworkManager) : List (BitVec 32) → List Reception
  | [] => []
  | sequence :: rest =>
      let handled := manager.handleIncomingSequence endpoint { sequence, channel }
      (handled.1.channelState (makeConnectionKey endpoint) channel).reception handled.2 ::
        receptions endpoint channel handled.1 rest

variable {endpoint : Endpoint} {channel : BitVec 16} {manager other : NetworkManager}

theorem receptions_shift {k : BitVec 32} (sequences : List (BitVec 32))
    (same : ReliableChannelState.Shifted k (manager.channelState (makeConnectionKey endpoint) channel)
      (other.channelState (makeConnectionKey endpoint) channel)) :
    other.receptions endpoint channel (sequences.map (· + k)) =
      (manager.receptions endpoint channel sequences).map (·.shift k) := by
  induction sequences generalizing manager other with
  | nil => rfl
  | cons sequence sequences ih =>
      obtain ⟨shifted, answered⟩ := same.handleIncomingSequence sequence
      have state := fun manager : NetworkManager => fun sequence : BitVec 32 =>
        manager.channelState_handleIncomingSequence endpoint (makeConnectionKey endpoint) channel { sequence, channel }
      simp only [and_self, if_true] at state
      rw [List.map_cons, receptions, receptions, List.map_cons]
      refine congrArg₂ List.cons ?_ (ih ?_)
      · rw [state, state]
        exact answered
      · rw [state, state]
        exact shifted

/-- From a channel that has received nothing, shifted numbers are answered in the same way, and so are
shifted acknowledgements. -/
theorem receptions_wrapAround (k : BitVec 32) :
    (∀ (endpoint : Endpoint) (channel : BitVec 16) (manager : NetworkManager) (sequences : List (BitVec 32)),
        (manager.channelState (makeConnectionKey endpoint) channel).hasReceived = false →
          manager.receptions endpoint channel (sequences.map (· + k)) =
            (manager.receptions endpoint channel sequences).map (·.shift k)) ∧
      ∀ sequence ack ackMask : BitVec 32,
        isSequenceAcked (sequence + k) (ack + k) ackMask = isSequenceAcked sequence ack ackMask := by
  refine ⟨?_, isSequenceAcked_shift k⟩
  intro endpoint channel manager sequences fresh
  apply receptions_shift
  -- Before the first reception there is no last number that could be shifted.
  have never : ∀ {P : Prop}, (manager.channelState (makeConnectionKey endpoint) channel).hasReceived = true → P := by
    intro P received
    rw [fresh] at received
    cases received
  exact ⟨rfl, never, never⟩

/-- The third number wraps around, and the fourth is late. -/
theorem receptions_wrapAround_max :
    receptions ⟨0, 0⟩ 1 {} ([1, 2, 4, 3, 3].map (· + 0xFFFFFFFD#32)) =
        (receptions ⟨0, 0⟩ 1 {} [1, 2, 4, 3, 3]).map (·.shift 0xFFFFFFFD#32) ∧
      (receptions ⟨0, 0⟩ 1 {} [1, 2, 4, 3, 3]).map Reception.duplicate = [false, false, false, false, true] :=
  ⟨(receptions_wrapAround _).1 _ _ {} _ rfl, by decide⟩

end NetworkManager

end SoulLib.Networking
