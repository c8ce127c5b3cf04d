import SoulLib.Networking.Retransmission
import SoulLib.Networking.ReceiveWindow

/-! What one call of `receive` answers and acknowledges.

The answer to a data packet depends on the receive window alone: neither the
guarantee in the header nor an earlier acknowledgement plays a part.
-/

set_option autoImplicit false

namespace SoulLib.Networking

open SoulLib.Semantics (System)

namespace ReliableChannelState

variable {state : ReliableChannelState} {sequence : BitVec 32}

/-- The receiving half of a channel. -/
def incoming (state : ReliableChannelState) : BitVec 32 × BitVec 32 × Bool × Bool :=
  (state.lastReceivedSequence, state.receivedMask, state.hasReceived, state.pendingAck)

private theorem not_newer (near : state.lastReceivedSequence - sequence ≤ 32) :
    sequenceGreater sequence state.lastReceivedSequence = false ∧
      sequenceLessEqual sequence state.lastReceivedSequence = true := by
  rw [BitVec.le_def, BitVec.toNat_sub] at near
  change _ ≤ 32 at near
  have nonpositive : (sequence - state.lastReceivedSequence).toInt ≤ 0 := by
    rw [BitVec.toInt_eq_toNat_cond, BitVec.toNat_sub]
    split <;> omega
  rw [sequenceGreater, sequenceLessEqual, decide_eq_false_iff_not, decide_eq_true_eq]
  exact ⟨Int.not_lt.mpr nonpositive, nonpositive⟩

theorem handleIncomingSequence_near (received : state.hasReceived = true)
    (near : state.lastReceivedSequence - sequence ≤ 32) :
    state.handleIncomingSequence sequence =
      if isSequenceAcked sequence state.lastReceivedSequence state.receivedMask then (state, true)
      else
        ({ state with
            receivedMask := state.receivedMask ||| 1#32 <<< (state.lastReceivedSequence - sequence - 1)
            pendingAck := true }, false) := by
  obtain ⟨notGreater, lessEqual⟩ := not_newer near
  have inside : ¬ 32 < state.lastReceivedSequence - sequence := BitVec.not_lt.mpr near
  have equal : sequence = state.lastReceivedSequence ↔ state.lastReceivedSequence - sequence = 0 := by
    constructor
    · intro same
      rw [same]
      exact BitVec.sub_self _
    · intro zero
      bv_omega
  simp only [handleIncomingSequence, isSequenceAcked, received, notGreater, lessEqual, inside, equal, Bool.not_true,
    Bool.false_eq_true, if_false]
  split
  · simp
  · split <;> simp_all

theorem isSequenceAcked_enter (near : state.lastReceivedSequence - sequence ≤ 32)
    (uncovered : isSequenceAcked sequence state.lastReceivedSequence state.receivedMask = false) :
    isSequenceAcked sequence state.lastReceivedSequence
        (state.receivedMask ||| 1#32 <<< (state.lastReceivedSequence - sequence - 1)) = true ∧
      state.receivedMask ||| 1#32 <<< (state.lastReceivedSequence - sequence - 1) ≠ state.receivedMask := by
  obtain ⟨-, lessEqual⟩ := not_newer near
  have differ : sequence ≠ state.lastReceivedSequence := by
    intro same
    simp [isSequenceAcked, same] at uncovered
  have nonzero : state.lastReceivedSequence - sequence ≠ 0 := by
    intro zero
    apply differ
    bv_omega
  have inside : ¬ 32 < state.lastReceivedSequence - sequence := BitVec.not_lt.mpr near
  have place : (state.lastReceivedSequence - sequence - 1).toNat < 32 := by bv_omega
  have covered : isSequenceAcked sequence state.lastReceivedSequence
      (state.receivedMask ||| 1#32 <<< (state.lastReceivedSequence - sequence - 1)) = true := by
    simp only [isSequenceAcked, differ, lessEqual, nonzero, inside, Bool.not_true, Bool.false_eq_true, if_false]
    rw [mask_test _ place, mask_set _ place]
    simp
  refine ⟨covered, fun same => ?_⟩
  rw [same, uncovered] at covered
  cases covered

theorem hasReceived_handleIncomingSequence :
    (state.handleIncomingSequence sequence).1.hasReceived = true := by
  unfold handleIncomingSequence
  cases received : state.hasReceived with
  | false => rfl
  | true =>
      simp only [Bool.not_true, Bool.false_eq_true, if_false]
      split
      · rfl
      · split
        · exact received
        · split
          · exact received
          · split
            · exact received
            · rfl

/-- What is pending plays no part in receiving. -/
theorem handleIncomingSequence_eraseAcked (ack ackMask : BitVec 32) :
    (state.eraseAcked ack ackMask).handleIncomingSequence sequence =
      (((state.handleIncomingSequence sequence).1.eraseAcked ack ackMask),
        (state.handleIncomingSequence sequence).2) := by
  obtain ⟨next, last, mask, received, pending, owed⟩ := state
  cases received with
  | false => rfl
  | true =>
      simp only [handleIncomingSequence, eraseAcked, Bool.not_true, Bool.false_eq_true, if_false]
      by_cases newer : sequenceGreater sequence last = true
      · simp only [newer, if_true]
      · by_cases same : last - sequence = 0
        · simp only [newer, same, Bool.false_eq_true, if_false, if_true]
        · by_cases far : 32 < last - sequence
          · simp only [newer, same, far, Bool.false_eq_true, if_false, if_true]
          · simp only [newer, same, far, Bool.false_eq_true, if_false]
            split <;> rfl

end ReliableChannelState

namespace NetworkManager

variable (manager : NetworkManager) (endpoint : Endpoint)

/-- The receive window that a data packet of the endpoint meets. -/
def window (packet : Packet) : ReliableChannelState :=
  manager.channelState (makeConnectionKey endpoint) packet.header.channel

theorem receive_data {packet : Packet} (enabled : manager.isUdpReliable packet.header.channel = true)
    (data : packet.ackOnly = false) :
    let received := manager.receive none (some (endpoint, packet))
    let handled := (manager.window endpoint packet).handleIncomingSequence packet.header.sequence
    received.2.2 = (if handled.2 then none else some (endpoint, packet)) ∧
      (received.1.window endpoint packet).incoming =
        ({ handled.1 with pendingAck := false } : ReliableChannelState).incoming ∧
      received.2.1 =
        if handled.1.pendingAck then [.udpSend endpoint (ackPacket handled.1 packet.header.channel)] else [] := by
  have erased : (manager.recordAck endpoint packet.header).window endpoint packet =
      (manager.window endpoint packet).eraseAcked packet.header.acknowledgment packet.header.acknowledgmentMask := by
    simp [window, channelState_recordAck]
  have handled : ((manager.recordAck endpoint packet.header).handleIncomingSequence endpoint packet.header).1.window
        endpoint packet =
      ((manager.window endpoint packet).handleIncomingSequence packet.header.sequence).1.eraseAcked
        packet.header.acknowledgment packet.header.acknowledgmentMask := by
    have here := (manager.recordAck endpoint packet.header).channelState_handleIncomingSequence endpoint
      (makeConnectionKey endpoint) packet.header.channel packet.header
    rw [if_pos ⟨rfl, rfl⟩] at here
    rw [window, here, ← window, erased, ReliableChannelState.handleIncomingSequence_eraseAcked]
  have answered : ((manager.recordAck endpoint packet.header).handleIncomingSequence endpoint packet.header).2 =
      ((manager.window endpoint packet).handleIncomingSequence packet.header.sequence).2 := by
    change (((manager.recordAck endpoint packet.header).window endpoint packet).handleIncomingSequence _).2 = _
    rw [erased, ReliableChannelState.handleIncomingSequence_eraseAcked]
  simp only [receive, enabled, data, Bool.false_eq_true, if_false, if_true, answered]
  refine ⟨trivial, ?_, ?_⟩
  · rw [window, channelState_maybeSendAck, if_pos ⟨rfl, rfl⟩, ← window, handled]
    rfl
  · rw [effects_maybeSendAck, ← window, handled]
    rfl

@[simp] theorem ackOnly_ackPacket (state : ReliableChannelState) (channel : BitVec 16) :
    (ackPacket state channel).ackOnly = true := by
  simp only [Packet.ackOnly, ackPacket]
  decide

theorem effect_receive (tcp udp : Option (Endpoint × Packet)) :
    ∀ effect ∈ (manager.receive tcp udp).2.1,
      ∃ destination state channel, effect = .udpSend destination (ackPacket state channel) := by
  unfold receive
  split
  · simp
  · simp
  · next source packet =>
      split
      · split
        · simp
        · intro effect member
          simp only [effects_maybeSendAck] at member
          split at member
          · exact ⟨_, _, _, List.mem_singleton.mp member⟩
          · cases member
      · simp

section Incoming

variable (key : BitVec 64) (channel : BitVec 16)

theorem incoming_send (packet : Packet) :
    ((manager.send endpoint packet).1.channelState key channel).incoming =
      (manager.channelState key channel).incoming := by
  unfold send
  split
  · simp only [channelState_sendReliableUdp]
    split <;> rfl
  · split <;> rfl

theorem incoming_retransmitAfter (lane : BitVec 16) (sequence : BitVec 32) (maxAttempts : BitVec 8) :
    ((manager.retransmitAfter endpoint lane sequence maxAttempts).1.channelState key channel).incoming =
      (manager.channelState key channel).incoming := by
  have pending : ∀ entry, ((manager.setChannel (makeConnectionKey endpoint) lane
      ((manager.channelState (makeConnectionKey endpoint) lane).setPending sequence entry)).channelState key
        channel).incoming = (manager.channelState key channel).incoming := by
    intro entry
    rw [channelState_setChannel]
    split
    · next here =>
        obtain ⟨rfl, rfl⟩ := here
        rfl
    · rfl
  rcases manager.retransmitAfter_cases endpoint lane sequence maxAttempts with
    ⟨-, same⟩ | ⟨entry, -, ⟨-, same⟩ | ⟨-, same⟩⟩
  · rw [same]
  · rw [same]
    exact pending none
  · rw [same]
    exact pending _

theorem incoming_recordAck (header : PacketHeader) :
    ((manager.recordAck endpoint header).channelState key channel).incoming =
      (manager.channelState key channel).incoming := by
  rw [channelState_recordAck]
  split <;> rfl

theorem incoming_receive_data {packet : Packet} (enabled : manager.isUdpReliable packet.header.channel = true)
    (data : packet.ackOnly = false) :
    let after := (manager.receive none (some (endpoint, packet))).1.channelState key channel
    if key = makeConnectionKey endpoint ∧ channel = packet.header.channel then
      after.pendingAck = false ∧ after.hasReceived = true
    else after = manager.channelState key channel := by
  simp only [receive, enabled, data, Bool.false_eq_true, if_false, if_true]
  split
  · next here =>
      obtain ⟨rfl, rfl⟩ := here
      rw [channelState_maybeSendAck, if_pos ⟨rfl, rfl⟩, channelState_handleIncomingSequence, if_pos ⟨rfl, rfl⟩]
      exact ⟨rfl, ReliableChannelState.hasReceived_handleIncomingSequence⟩
  · next elsewhere =>
      rw [channelState_maybeSendAck, if_neg elsewhere, channelState_handleIncomingSequence, if_neg elsewhere,
        channelState_recordAck, if_neg elsewhere]

theorem incoming_receive (tcp udp : Option (Endpoint × Packet)) :
    let before := manager.channelState key channel
    let after := (manager.receive tcp udp).1.channelState key channel
    (before.pendingAck = false → after.pendingAck = false) ∧
      (before.hasReceived = true → after.hasReceived = true) := by
  match tcp, udp with
  | some reliable, _ => exact ⟨id, id⟩
  | none, none => exact ⟨id, id⟩
  | none, some (source, packet) =>
      intro before after
      by_cases enabled : manager.isUdpReliable packet.header.channel = true
      · cases data : packet.ackOnly with
        | true =>
            have same : after.incoming = before.incoming := by
              simp only [after, before, receive, enabled, data, if_true]
              exact manager.incoming_recordAck source key channel packet.header
            simp only [ReliableChannelState.incoming, Prod.mk.injEq] at same
            rw [same.2.2.1, same.2.2.2]
            exact ⟨id, id⟩
        | false =>
            have result := manager.incoming_receive_data source key channel enabled data
            simp only at result
            split at result
            · exact ⟨fun _ => result.1, fun _ => result.2⟩
            · simp only [after, result]
              exact ⟨id, id⟩
      · have same : after = before := by
          simp only [after, before, receive, enabled, Bool.false_eq_true, if_false]
        rw [same]
        exact ⟨id, id⟩

theorem hasReceived_of_accepted {tcp udp : Option (Endpoint × Packet)} {slot : Slot}
    (member : slot ∈ manager.acceptedBy tcp udp) :
    ((manager.receive tcp udp).1.channelState (makeConnectionKey slot.endpoint) slot.channel).hasReceived = true := by
  unfold acceptedBy at member
  split at member
  · next source packet =>
      split at member
      · next both =>
          obtain ⟨enabled, returned⟩ := Bool.and_eq_true_iff.mp both
          obtain rfl := List.mem_singleton.mp member
          have data : packet.ackOnly = false := by
            cases only : packet.ackOnly with
            | false => rfl
            | true => simp [receive, enabled, only] at returned
          have result := manager.incoming_receive_data source (makeConnectionKey source) packet.header.channel
            enabled data
          simp only [and_self, if_true] at result
          exact result.2
      · cases member
  · cases member

end Incoming

end NetworkManager

namespace Host

variable {host host' : Host} {action : Action}

/-- What a host's history says about its receive windows. -/
structure Settled (host : Host) : Prop where
  quiet : ∀ key channel, (host.manager.channelState key channel).pendingAck = false
  received : ∀ slot ∈ host.accepted,
    (host.manager.channelState (makeConnectionKey slot.endpoint) slot.channel).hasReceived = true

theorem Settled.keep (settled : Settled host) (accepted : host'.accepted = host.accepted)
    (incoming : ∀ key channel, (host'.manager.channelState key channel).incoming =
      (host.manager.channelState key channel).incoming) : Settled host' := by
  simp only [ReliableChannelState.incoming, Prod.mk.injEq] at incoming
  constructor
  · intro key channel
    rw [(incoming key channel).2.2.2]
    exact settled.quiet key channel
  · intro slot member
    rw [accepted] at member
    rw [(incoming _ _).2.2.1]
    exact settled.received slot member

theorem Settled.step (settled : Settled host) (taken : step host action = some host') : Settled host' := by
  cases action with
  | send endpoint packet =>
      cases taken
      exact settled.keep rfl fun key channel => host.manager.incoming_send endpoint key channel packet
  | receive tcp udp =>
      cases taken
      constructor
      · intro key channel
        exact (host.manager.incoming_receive key channel tcp udp).1 (settled.quiet key channel)
      · intro slot member
        -- a slot that was received stays so, and what was just accepted is received now
        rcases List.mem_append.mp member with old | new
        · exact (host.manager.incoming_receive _ _ tcp udp).2 (settled.received slot old)
        · exact host.manager.hasReceived_of_accepted new
  -- nothing else writes the receiving half of a channel
  | transmit k completes =>
      simp only [Host.step] at taken
      split at taken
      · cases completes <;> cases taken <;> exact settled.keep rfl fun _ _ => rfl
      · cases taken
  | readBudget k =>
      simp only [Host.step] at taken
      split at taken
      · cases taken
        exact settled.keep rfl fun _ _ => rfl
      · cases taken
  | fire k =>
      simp only [Host.step] at taken
      split at taken
      · cases taken
        exact settled.keep rfl fun key channel => host.manager.incoming_retransmitAfter _ key channel _ _ _
      · cases taken
  | enableUdpReliability channel enabled =>
      cases taken
      exact settled.keep rfl fun _ _ => rfl
  | configureUdpRetransmission interval maxAttempts =>
      cases taken
      exact settled.keep rfl fun _ _ => rfl

theorem settled_of_reaches {interval : Int} {maxAttempts : BitVec 8} {admits : Host → Action → Prop}
    (reach : system.Reaches admits (configured interval maxAttempts) host) : Settled host := by
  induction reach with
  | start =>
      constructor
      · intro key channel
        rfl
      · intro slot member
        cases member
  | next _ _ taken settled => exact settled.step taken

/-- `receive` answers the packet with an acknowledgement that covers it. -/
def Reacknowledges (host : Host) (endpoint : Endpoint) (packet : Packet) : Prop :=
  ∃ ack, .udpSend endpoint ack ∈ (host.manager.receive none (some (endpoint, packet))).2.1 ∧ ack.ackOnly = true ∧
    isSequenceAcked packet.header.sequence ack.header.acknowledgment ack.header.acknowledgmentMask = true

/-- A packet that was accepted before and is still within the window is acknowledged again
exactly when the acknowledgement fields have lost it. -/
theorem reacknowledges_iff {interval : Int} {maxAttempts : BitVec 8}
    (reach : system.Reaches (fun _ _ => True) (configured interval maxAttempts) host) {endpoint : Endpoint}
    {packet : Packet} (enabled : host.manager.isUdpReliable packet.header.channel = true)
    (data : packet.ackOnly = false) (again : Slot.ofPacket endpoint packet ∈ host.accepted)
    (near : (host.manager.window endpoint packet).lastReceivedSequence - packet.header.sequence ≤ 32) :
    host.Reacknowledges endpoint packet ↔
      isSequenceAcked packet.header.sequence (host.manager.window endpoint packet).lastReceivedSequence
        (host.manager.window endpoint packet).receivedMask = false := by
  have settled := settled_of_reaches reach
  have received : (host.manager.window endpoint packet).hasReceived = true :=
    settled.received (Slot.ofPacket endpoint packet) again
  have quiet : (host.manager.window endpoint packet).pendingAck = false := settled.quiet _ _
  have effects := (host.manager.receive_data endpoint enabled data).2.2
  rw [ReliableChannelState.handleIncomingSequence_near received near] at effects
  unfold Reacknowledges
  cases covered : isSequenceAcked packet.header.sequence (host.manager.window endpoint packet).lastReceivedSequence
      (host.manager.window endpoint packet).receivedMask with
  | true =>
      -- A duplicate leaves `pendingAck` as it was, and nobody owes an acknowledgement.
      simp only [covered, if_true, quiet, Bool.false_eq_true, if_false] at effects
      simp [effects]
  | false =>
      simp only [covered, Bool.false_eq_true, if_false, if_true] at effects
      have entered := (ReliableChannelState.isSequenceAcked_enter near covered).1
      constructor
      · intro _
        rfl
      · intro _
        rw [effects]
        exact ⟨_, List.mem_singleton_self _, NetworkManager.ackOnly_ackPacket _ _, entered⟩

/-- A data packet on channel 0. -/
def numbered (sequence : BitVec 32) : Packet where
  header := { sequence, guarantee := .reliable }
  payload := [7]

def receiving (packets : List Packet) : List Action :=
  .enableUdpReliability 0 true :: packets.map fun packet => .receive none (some (remote, packet))

/-- Packet 1 was accepted and overtaken by packet 2. -/
def overtaken : Host :=
  system.after (fun _ _ => True) (configured 75 5) (receiving [numbered 1, numbered 2]) (by decide)

theorem overtaken_reacknowledged : overtaken.Reacknowledges remote (numbered 1) := by
  have enabled : overtaken.manager.isUdpReliable 0 = true := by decide
  have again : Slot.ofPacket remote (numbered 1) ∈ overtaken.accepted := by decide +kernel
  have near : (overtaken.manager.window remote (numbered 1)).lastReceivedSequence - 1 ≤ 32 := by decide +kernel
  have lost : isSequenceAcked 1 (overtaken.manager.window remote (numbered 1)).lastReceivedSequence
      (overtaken.manager.window remote (numbered 1)).receivedMask = false := by decide +kernel
  have reach : system.Reaches (fun _ _ => True) (configured 75 5) overtaken := System.reaches_after _
  exact (reacknowledges_iff reach enabled rfl again near).mpr lost

/-- Packet 1 was accepted and its acknowledgement is lost. -/
def acceptedOnce : Host :=
  system.after (fun _ _ => True) (configured 75 5) (receiving [numbered 1]) (by decide)

/-- The retransmission of the last packet is not acknowledged again. -/
theorem last_not_reacknowledged :
    Slot.ofPacket remote (numbered 1) ∈ acceptedOnce.accepted ∧
      (acceptedOnce.manager.window remote (numbered 1)).lastReceivedSequence = 1 ∧
      ¬ acceptedOnce.Reacknowledges remote (numbered 1) := by
  have silent : (acceptedOnce.manager.receive none (some (remote, numbered 1))).2.1 = [] := by decide
  refine ⟨by decide, by decide, ?_⟩
  rintro ⟨ack, sent, -⟩
  rw [silent] at sent
  cases sent

end Host

namespace ReliableChannelState

variable {state : ReliableChannelState} {sequence : BitVec 32}

theorem handleIncomingSequence_fresh (fresh : state.hasReceived = false) :
    state.handleIncomingSequence sequence =
      ({ state with
          hasReceived := true
          lastReceivedSequence := sequence
          receivedMask := 0
          pendingAck := true }, false) := by
  simp only [handleIncomingSequence, fresh, Bool.not_false, if_true]

theorem handleIncomingSequence_last (received : state.hasReceived = true)
    (last : state.lastReceivedSequence = sequence) : state.handleIncomingSequence sequence = (state, true) := by
  have near : state.lastReceivedSequence - sequence ≤ 32 := by
    rw [last, BitVec.sub_self]
    decide
  rw [handleIncomingSequence_near received near, isSequenceAcked, if_pos last.symm, if_pos rfl]

/-- On a channel that has received, a number is answered as a duplicate or changes the
acknowledgement fields. -/
theorem handleIncomingSequence_changes (received : state.hasReceived = true) :
    (state.handleIncomingSequence sequence).2 = true ∨
      (state.handleIncomingSequence sequence).1.lastReceivedSequence ≠ state.lastReceivedSequence ∨
      (state.handleIncomingSequence sequence).1.receivedMask ≠ state.receivedMask := by
  by_cases near : state.lastReceivedSequence - sequence ≤ 32
  · rw [handleIncomingSequence_near received near]
    cases covered : isSequenceAcked sequence state.lastReceivedSequence state.receivedMask with
    | true => exact .inl rfl
    | false => exact .inr (.inr (isSequenceAcked_enter near covered).2)
  · have far : 32 < state.lastReceivedSequence - sequence := BitVec.not_le.mp near
    have nonzero : state.lastReceivedSequence - sequence ≠ 0 := by
      intro zero
      rw [zero] at far
      revert far
      decide
    have differ : sequence ≠ state.lastReceivedSequence := by
      intro same
      rw [same, BitVec.sub_self] at nonzero
      exact nonzero rfl
    simp only [handleIncomingSequence, received, Bool.not_true, Bool.false_eq_true, if_false, nonzero, far, if_true]
    split
    · exact .inr (.inl differ)
    · exact .inl rfl

end ReliableChannelState

namespace NetworkManager

variable (manager : NetworkManager) (endpoint : Endpoint)

theorem receive_fresh {packet : Packet} (enabled : manager.isUdpReliable packet.header.channel = true)
    (data : packet.ackOnly = false) (fresh : (manager.window endpoint packet).hasReceived = false) :
    (manager.receive none (some (endpoint, packet))).2.2 = some (endpoint, packet) := by
  rw [(manager.receive_data endpoint enabled data).1, ReliableChannelState.handleIncomingSequence_fresh fresh]
  rfl

theorem receive_last {packet : Packet} (enabled : manager.isUdpReliable packet.header.channel = true)
    (data : packet.ackOnly = false) (received : (manager.window endpoint packet).hasReceived = true)
    (last : (manager.window endpoint packet).lastReceivedSequence = packet.header.sequence) :
    (manager.receive none (some (endpoint, packet))).2.2 = none := by
  rw [(manager.receive_data endpoint enabled data).1, ReliableChannelState.handleIncomingSequence_last received last]
  rfl

/-- For each of a row of UDP packets, whether `receive` returns it. -/
def answers (manager : NetworkManager) (endpoint : Endpoint) : List Packet → List Bool
  | [] => []
  | packet :: rest =>
      let (after, _, result) := manager.receive none (some (endpoint, packet))
      result.isSome :: after.answers endpoint rest

/-- The packet is returned and leaves no trace for reliable packets. -/
structure Unaffected (packet : Packet) : Prop where
  returned : (manager.receive none (some (endpoint, packet))).2.2 = some (endpoint, packet)
  last : ((manager.receive none (some (endpoint, packet))).1.window endpoint packet).lastReceivedSequence =
    (manager.window endpoint packet).lastReceivedSequence
  mask : ((manager.receive none (some (endpoint, packet))).1.window endpoint packet).receivedMask =
    (manager.window endpoint packet).receivedMask
  later : ∀ packets : List Packet, (∀ reliable ∈ packets, reliable.header.guarantee = .reliable ∧
      reliable.header.channel = packet.header.channel ∧ reliable.ackOnly = false) →
    (manager.receive none (some (endpoint, packet))).1.answers endpoint packets = manager.answers endpoint packets

/-- An unreliable packet on a reliable channel is never without effect on it. -/
theorem unreliable_interferes {packet : Packet} (enabled : manager.isUdpReliable packet.header.channel = true)
    (_unreliable : packet.header.guarantee = .unreliable) (payload : packet.payload ≠ []) :
    ¬ manager.Unaffected endpoint packet := by
  intro unaffected
  have data : packet.ackOnly = false := by simp [Packet.ackOnly, payload]
  obtain ⟨result, incoming, -⟩ := manager.receive_data endpoint enabled data
  have returned := result.symm.trans unaffected.returned
  simp only [ReliableChannelState.incoming, Prod.mk.injEq] at incoming
  cases received : (manager.window endpoint packet).hasReceived with
  | true =>
      rcases ReliableChannelState.handleIncomingSequence_changes received with duplicate | moved | masked
      · rw [duplicate] at returned
        cases returned
      · exact moved (incoming.1.symm.trans unaffected.last)
      · exact masked (incoming.2.1.symm.trans unaffected.mask)
  | false =>
      -- A reliable packet of the same number was new before and is a duplicate now.
      let reliable : Packet := { packet with header := { packet.header with guarantee := .reliable } }
      let after := (manager.receive none (some (endpoint, packet))).1
      have reliableData : reliable.ackOnly = false := data
      have enabledAfter : after.isUdpReliable packet.header.channel = true :=
        (manager.isUdpReliable_receive none (some (endpoint, packet)) packet.header.channel).trans enabled
      rw [ReliableChannelState.handleIncomingSequence_fresh received] at incoming
      have accepted : (manager.receive none (some (endpoint, reliable))).2.2 = some (endpoint, reliable) :=
        manager.receive_fresh endpoint enabled reliableData received
      have refused : (after.receive none (some (endpoint, reliable))).2.2 = none :=
        after.receive_last endpoint enabledAfter reliableData incoming.2.2.1 incoming.1
      have same := unaffected.later [reliable] (by simp [reliable, reliableData])
      simp only [answers] at same
      rw [accepted, refused] at same
      cases same

/-- A channel on which packet 34 arrived. -/
def advanced : NetworkManager :=
  (enableUdpReliability {} 0 true).receive none (some (Host.remote, Host.numbered 34)) |>.1

/-- An unreliable packet keeps the sequence number 0 that it was built with. -/
def unnumbered : Packet where
  payload := [9]

theorem unreliable_interferes_advanced : ¬ advanced.Unaffected Host.remote unnumbered :=
  advanced.unreliable_interferes Host.remote (by decide) rfl (by decide)

/-- The packet is dropped as a duplicate. -/
theorem unreliable_dropped :
    (advanced.receive none (some (Host.remote, unnumbered))).2.2 = none ∧
      ¬ advanced.Unaffected Host.remote unnumbered := by
  have dropped : (advanced.receive none (some (Host.remote, unnumbered))).2.2 = none := by decide
  refine ⟨dropped, fun unaffected => ?_⟩
  cases dropped.symm.trans unaffected.returned

end NetworkManager

end SoulLib.Networking
