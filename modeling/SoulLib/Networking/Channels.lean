import SoulLib.Networking.NetworkManager

/-! What each manager function does to the state of one connection and channel.

Every function reads and writes the channel state of one key and channel only.
The lemmas give its effect on an arbitrary key and channel, so that callers
never unfold the functions.
-/

set_option autoImplicit false

namespace SoulLib.Networking

namespace ReliableChannelState

theorem pending_setPending (channelState : ReliableChannelState) (sequence other : BitVec 32)
    (entry : Option PendingPacket) :
    (channelState.setPending sequence entry).pending other =
      if other = sequence then entry else channelState.pending other := by
  simp [setPending, Function.update_apply]

theorem outgoing_handleIncomingSequence (channelState : ReliableChannelState) (sequence : BitVec 32) :
    (channelState.handleIncomingSequence sequence).1.pending = channelState.pending ∧
      (channelState.handleIncomingSequence sequence).1.nextOutgoingSequence =
        channelState.nextOutgoingSequence := by
  unfold handleIncomingSequence
  split
  · exact ⟨rfl, rfl⟩
  · split
    · exact ⟨rfl, rfl⟩
    · simp only
      split
      · exact ⟨rfl, rfl⟩
      · split
        · exact ⟨rfl, rfl⟩
        · split <;> exact ⟨rfl, rfl⟩

end ReliableChannelState

namespace NetworkManager

section Lookups

variable (manager : NetworkManager) (endpoint : Endpoint) (key : BitVec 64) (channel : BitVec 16)

theorem channelState_setChannel (state : ReliableChannelState) (other : BitVec 64) (lane : BitVec 16) :
    (manager.setChannel key channel state).channelState other lane =
      if other = key ∧ lane = channel then state else manager.channelState other lane := by
  unfold channelState findChannel setChannel
  by_cases sameKey : other = key
  · subst sameKey
    by_cases sameLane : lane = channel
    · simp [sameLane]
    · cases found : manager.connections other <;> simp [sameLane]
  · simp [sameKey]

@[simp] theorem isUdpReliable_setChannel (state : ReliableChannelState) (lane : BitVec 16) :
    (manager.setChannel key channel state).isUdpReliable lane = manager.isUdpReliable lane := rfl

theorem channelState_of_findChannel {state : ReliableChannelState}
    (found : manager.findChannel key channel = some state) : manager.channelState key channel = state := by
  simp [channelState, found]

theorem channelState_of_none (absent : manager.findChannel key channel = none) :
    manager.channelState key channel = {} := by
  simp [channelState, absent]

/-- An absent channel has nothing pending, so erasing from it changes nothing. -/
theorem channelState_recordAck (header : PacketHeader) :
    (manager.recordAck endpoint header).channelState key channel =
      if key = makeConnectionKey endpoint ∧ channel = header.channel then
        (manager.channelState key channel).eraseAcked header.acknowledgment header.acknowledgmentMask
      else manager.channelState key channel := by
  cases found : manager.findChannel (makeConnectionKey endpoint) header.channel with
  | none =>
      simp only [recordAck, found]
      split
      · next here =>
          obtain ⟨rfl, rfl⟩ := here
          rw [channelState_of_none _ _ _ found]
          simp [ReliableChannelState.eraseAcked]
      · rfl
  | some state =>
      simp only [recordAck, found, channelState_setChannel]
      split
      · next here =>
          obtain ⟨rfl, rfl⟩ := here
          rw [channelState_of_findChannel _ _ _ found]
      · rfl

@[simp] theorem isUdpReliable_recordAck (header : PacketHeader) :
    (manager.recordAck endpoint header).isUdpReliable channel = manager.isUdpReliable channel := by
  simp only [recordAck]
  split <;> simp

theorem channelState_handleIncomingSequence (header : PacketHeader) :
    (manager.handleIncomingSequence endpoint header).1.channelState key channel =
      if key = makeConnectionKey endpoint ∧ channel = header.channel then
        ((manager.channelState key channel).handleIncomingSequence header.sequence).1
      else manager.channelState key channel := by
  simp only [handleIncomingSequence, channelState_setChannel]
  split
  · next here =>
      obtain ⟨rfl, rfl⟩ := here
      rfl
  · rfl

@[simp] theorem isUdpReliable_handleIncomingSequence (header : PacketHeader) :
    (manager.handleIncomingSequence endpoint header).1.isUdpReliable channel =
      manager.isUdpReliable channel := rfl

theorem channelState_maybeSendAck (lane : BitVec 16) :
    (manager.maybeSendAck endpoint lane).1.channelState key channel =
      if key = makeConnectionKey endpoint ∧ channel = lane then
        { manager.channelState key channel with pendingAck := false }
      else manager.channelState key channel := by
  cases found : manager.findChannel (makeConnectionKey endpoint) lane with
  | none =>
      simp only [maybeSendAck, found]
      split
      · next here =>
          obtain ⟨rfl, rfl⟩ := here
          rw [channelState_of_none _ _ _ found]
      · rfl
  | some state =>
      cases owed : state.pendingAck with
      | false =>
          simp only [maybeSendAck, found, owed, Bool.not_false, if_true]
          split
          · next here =>
              obtain ⟨rfl, rfl⟩ := here
              rw [channelState_of_findChannel _ _ _ found]
              cases state
              simp_all
          · rfl
      | true =>
          simp only [maybeSendAck, found, owed, Bool.not_true, Bool.false_eq_true, if_false,
            channelState_setChannel]
          split
          · next here =>
              obtain ⟨rfl, rfl⟩ := here
              rw [channelState_of_findChannel _ _ _ found]
          · rfl

theorem effects_maybeSendAck :
    (manager.maybeSendAck endpoint channel).2 =
      if (manager.channelState (makeConnectionKey endpoint) channel).pendingAck then
        [.udpSend endpoint (ackPacket (manager.channelState (makeConnectionKey endpoint) channel) channel)]
      else [] := by
  cases found : manager.findChannel (makeConnectionKey endpoint) channel with
  | none => simp [maybeSendAck, found, channelState_of_none _ _ _ found]
  | some state =>
      rw [channelState_of_findChannel _ _ _ found]
      cases owed : state.pendingAck <;> simp [maybeSendAck, found, owed]

@[simp] theorem isUdpReliable_maybeSendAck (lane : BitVec 16) :
    (manager.maybeSendAck endpoint lane).1.isUdpReliable channel = manager.isUdpReliable channel := by
  simp only [maybeSendAck]
  split
  · rfl
  · split <;> simp

theorem channelState_sendReliableUdp (packet : Packet) :
    (manager.sendReliableUdp endpoint packet).1.channelState key channel =
      if key = makeConnectionKey endpoint ∧ channel = packet.header.channel then
        let state := manager.channelState key channel
        { state with nextOutgoingSequence := state.nextOutgoingSequence + 1 }.setPending
          (state.nextOutgoingSequence + 1)
          (some { endpoint, packet := (manager.sendReliableUdp endpoint packet).2, attempts := 0 })
      else manager.channelState key channel := by
  simp only [sendReliableUdp, channelState_setChannel, ReliableChannelState.stamp]
  split
  · next here =>
      obtain ⟨rfl, rfl⟩ := here
      rfl
  · rfl

@[simp] theorem isUdpReliable_sendReliableUdp (packet : Packet) :
    (manager.sendReliableUdp endpoint packet).1.isUdpReliable channel = manager.isUdpReliable channel := rfl

theorem retransmitAfter_cases (sequence : BitVec 32) (maxAttempts : BitVec 8) :
    let state := manager.channelState (makeConnectionKey endpoint) channel
    let result := manager.retransmitAfter endpoint channel sequence maxAttempts
    state.pending sequence = none ∧ result = (manager, []) ∨
      ∃ entry, state.pending sequence = some entry ∧
        (maxAttempts.toNat ≤ entry.attempts.toNat + 1 ∧
            result = (manager.setChannel (makeConnectionKey endpoint) channel
              (state.setPending sequence none), []) ∨
          entry.attempts.toNat + 1 < maxAttempts.toNat ∧
            result = (manager.setChannel (makeConnectionKey endpoint) channel
              (state.setPending sequence (some (state.refresh entry))),
              [.udpSend entry.endpoint (state.refresh entry).packet,
                .retransmitAfter endpoint channel sequence])) := by
  intro state result
  -- no channel and no entry come to the same: the task ends
  cases found : manager.findChannel (makeConnectionKey endpoint) channel with
  | none =>
      left
      have empty : state = {} := channelState_of_none _ _ _ found
      refine ⟨by rw [empty], ?_⟩
      simp only [result, retransmitAfter, found]
  | some found' =>
      have same : state = found' := channelState_of_findChannel _ _ _ found
      subst same
      cases waiting : state.pending sequence with
      | none =>
          left
          refine ⟨rfl, ?_⟩
          simp only [result, retransmitAfter, found, waiting]
      | some entry =>
          right
          refine ⟨entry, rfl, ?_⟩
          -- the attempts field counts the retransmissions, so the first send makes it one more
          by_cases exhausted : maxAttempts.toNat ≤ entry.attempts.toNat + 1
          · left
            refine ⟨exhausted, ?_⟩
            simp only [result, retransmitAfter, found, waiting, if_pos exhausted]
          · right
            refine ⟨by omega, ?_⟩
            simp only [result, retransmitAfter, found, waiting, if_neg exhausted]
            rfl

end Lookups

/-- Every pending entry is filed under its own endpoint and channel. -/
def Filed (manager : NetworkManager) : Prop :=
  ∀ key channel sequence entry, (manager.channelState key channel).pending sequence = some entry →
    makeConnectionKey entry.endpoint = key ∧ entry.packet.header.channel = channel

namespace Filed

variable {manager : NetworkManager} {endpoint : Endpoint}

theorem setChannel (filed : Filed manager) {key : BitVec 64} {channel : BitVec 16}
    {state : ReliableChannelState}
    (entries : ∀ sequence entry, state.pending sequence = some entry →
      makeConnectionKey entry.endpoint = key ∧ entry.packet.header.channel = channel) :
    Filed (manager.setChannel key channel state) := by
  intro other lane sequence entry waiting
  rw [channelState_setChannel] at waiting
  split at waiting
  · next here =>
      obtain ⟨rfl, rfl⟩ := here
      exact entries sequence entry waiting
  · exact filed other lane sequence entry waiting

theorem recordAck (filed : Filed manager) (header : PacketHeader) :
    Filed (manager.recordAck endpoint header) := by
  intro key channel sequence entry waiting
  rw [channelState_recordAck] at waiting
  split at waiting
  · simp only [ReliableChannelState.eraseAcked] at waiting
    split at waiting
    · cases waiting
    · exact filed key channel sequence entry waiting
  · exact filed key channel sequence entry waiting

theorem handleIncomingSequence (filed : Filed manager) (header : PacketHeader) :
    Filed (manager.handleIncomingSequence endpoint header).1 := by
  intro key channel sequence entry waiting
  rw [channelState_handleIncomingSequence] at waiting
  split at waiting
  · rw [(ReliableChannelState.outgoing_handleIncomingSequence _ _).1] at waiting
    exact filed key channel sequence entry waiting
  · exact filed key channel sequence entry waiting

theorem maybeSendAck (filed : Filed manager) (channel : BitVec 16) :
    Filed (manager.maybeSendAck endpoint channel).1 := by
  intro key lane sequence entry waiting
  rw [channelState_maybeSendAck] at waiting
  split at waiting <;> exact filed key lane sequence entry waiting

theorem sendReliableUdp (filed : Filed manager) (packet : Packet) :
    Filed (manager.sendReliableUdp endpoint packet).1 := by
  intro key channel sequence entry waiting
  rw [channelState_sendReliableUdp] at waiting
  split at waiting
  · next here =>
      obtain ⟨rfl, rfl⟩ := here
      rw [ReliableChannelState.pending_setPending] at waiting
      split at waiting
      · cases waiting
        exact ⟨rfl, rfl⟩
      · exact filed _ _ sequence entry waiting
  · exact filed key channel sequence entry waiting

theorem send (filed : Filed manager) (packet : Packet) : Filed (manager.send endpoint packet).1 := by
  unfold NetworkManager.send
  split
  · exact filed.sendReliableUdp packet
  · split <;> exact filed

theorem receive (filed : Filed manager) (tcp udp : Option (Endpoint × Packet)) :
    Filed (manager.receive tcp udp).1 := by
  unfold NetworkManager.receive
  split
  · exact filed
  · exact filed
  · next endpoint packet =>
      split
      · split
        · exact filed.recordAck packet.header
        · exact ((filed.recordAck packet.header).handleIncomingSequence packet.header).maybeSendAck _
      · exact filed

theorem retransmitAfter (filed : Filed manager) (endpoint : Endpoint) (channel : BitVec 16)
    (sequence : BitVec 32) (maxAttempts : BitVec 8) :
    Filed (manager.retransmitAfter endpoint channel sequence maxAttempts).1 := by
  rcases retransmitAfter_cases manager endpoint channel sequence maxAttempts with
    ⟨-, same⟩ | ⟨entry, waiting, ⟨-, same⟩ | ⟨-, same⟩⟩
  · rw [same]
    exact filed
  · rw [same]
    refine filed.setChannel fun other found member => ?_
    rw [ReliableChannelState.pending_setPending] at member
    split at member
    · cases member
    · exact filed _ _ other found member
  · rw [same]
    refine filed.setChannel fun other found member => ?_
    rw [ReliableChannelState.pending_setPending] at member
    split at member
    · cases member
      exact filed _ _ sequence entry waiting
    · exact filed _ _ other found member

end Filed

section OtherChannels

variable (manager : NetworkManager) (endpoint : Endpoint) (key : BitVec 64) {channel : BitVec 16}

theorem channelState_send_of_ne {packet : Packet} (ne : packet.header.channel ≠ channel) :
    (manager.send endpoint packet).1.channelState key channel = manager.channelState key channel := by
  unfold send
  split
  · simp only [channelState_sendReliableUdp, ne.symm, and_false, if_false]
  · split <;> rfl

theorem effects_send (packet : Packet) :
    ∀ effect ∈ (manager.send endpoint packet).2, effect.channel = packet.header.channel := by
  unfold send
  split
  · intro effect member
    simp only [List.mem_cons, List.not_mem_nil, or_false] at member
    rcases member with rfl | rfl <;> rfl
  · split <;>
    · intro effect member
      simp only [List.mem_singleton] at member
      subst member
      rfl

theorem rearmed_send (packet : Packet) (destination : Endpoint) (lane : BitVec 16) (sequence : BitVec 32)
    (armed : .retransmitAfter destination lane sequence ∈ (manager.send endpoint packet).2) :
    destination = endpoint := by
  unfold send at armed
  split at armed
  · simp only [List.mem_cons, Effect.retransmitAfter.injEq, List.not_mem_nil, or_false, reduceCtorEq,
      false_or] at armed
    exact armed.1
  · split at armed <;> simp at armed

@[simp] theorem isUdpReliable_send (packet : Packet) (lane : BitVec 16) :
    (manager.send endpoint packet).1.isUdpReliable lane = manager.isUdpReliable lane := by
  unfold send
  split
  · simp
  · split <;> rfl

theorem channelState_receive_of_ne {packet : Packet} (ne : packet.header.channel ≠ channel) :
    (manager.receive none (some (endpoint, packet))).1.channelState key channel =
      manager.channelState key channel := by
  simp only [receive]
  split
  · split
    · simp only [channelState_recordAck, ne.symm, and_false, if_false]
    · simp only [channelState_maybeSendAck, channelState_handleIncomingSequence, channelState_recordAck,
        ne.symm, and_false, if_false]
  · rfl

theorem effects_maybeSendAck_channel (lane : BitVec 16) :
    ∀ effect ∈ (manager.maybeSendAck endpoint lane).2, effect.channel = lane := by
  intro effect member
  rw [effects_maybeSendAck] at member
  split at member
  · obtain rfl := List.mem_singleton.mp member
    rfl
  · cases member

theorem effects_receive (packet : Packet) :
    ∀ effect ∈ (manager.receive none (some (endpoint, packet))).2.1,
      effect.channel = packet.header.channel := by
  simp only [receive]
  split
  · split
    · simp
    · exact effects_maybeSendAck_channel _ _ _
  · simp

theorem not_rearmed_receive (tcp udp : Option (Endpoint × Packet)) (destination : Endpoint)
    (lane : BitVec 16) (sequence : BitVec 32) :
    .retransmitAfter destination lane sequence ∉ (manager.receive tcp udp).2.1 := by
  unfold receive
  split
  · simp
  · simp
  · split
    · split
      · simp
      · simp only [effects_maybeSendAck]
        split <;> simp
    · simp

@[simp] theorem isUdpReliable_receive (tcp udp : Option (Endpoint × Packet)) (lane : BitVec 16) :
    (manager.receive tcp udp).1.isUdpReliable lane = manager.isUdpReliable lane := by
  unfold receive
  split
  · rfl
  · rfl
  · split
    · split <;> simp
    · rfl

@[simp] theorem isUdpReliable_retransmitAfter (lane : BitVec 16) (sequence : BitVec 32)
    (maxAttempts : BitVec 8) (other : BitVec 16) :
    (manager.retransmitAfter endpoint lane sequence maxAttempts).1.isUdpReliable other =
      manager.isUdpReliable other := by
  rcases retransmitAfter_cases manager endpoint lane sequence maxAttempts with
    ⟨-, same⟩ | ⟨entry, -, ⟨-, same⟩ | ⟨-, same⟩⟩ <;> simp [same]

end OtherChannels

end NetworkManager

end SoulLib.Networking
