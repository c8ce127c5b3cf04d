import SoulLib.Networking.Delivery

/-! A pending entry is only ever acknowledged by a peer that accepted its packet. -/

set_option autoImplicit false

namespace SoulLib.Networking

open SoulLib.Semantics (System)

namespace Lane

variable {channel : BitVec 16} {lane lane' : Lane} {peer : Peer}

theorem Receipt.acked (receipt : Receipt channel lane peer lane') {sequence : BitVec 32}
    {entry : PendingPacket} (waiting : (lane.window peer).pending sequence = some entry)
    (erased : (lane'.window peer).pending sequence = none) :
    ∃ packet, (peer.other, packet) ∈ lane.wire ∧
      isSequenceAcked sequence packet.header.acknowledgment packet.header.acknowledgmentMask = true := by
  have acked : ∀ header : PacketHeader, ((lane.recordAck peer header).window peer).pending sequence = none →
      isSequenceAcked sequence header.acknowledgment header.acknowledgmentMask = true := by
    intro header gone
    simp only [recordAck, Function.update_self, ReliableChannelState.eraseAcked] at gone
    split at gone
    · assumption
    · rw [waiting] at gone
      cases gone
  cases receipt with
  | quiet =>
      rw [waiting] at erased
      cases erased
  | acknowledge packet offered bare => exact ⟨packet, offered, acked packet.header erased⟩
  | arrive packet offered data =>
      refine ⟨packet, offered, acked packet.header ?_⟩
      simp only [Lane.arrive, Function.update_self] at erased
      rw [(ReliableChannelState.outgoing_handleIncomingSequence _ _).1] at erased
      exact erased

end Lane

section Reached

variable {link : Link} {channel : BitVec 16} {world world' : World}

/-- When `receive` erases the pending entry of a sequence number, the other peer
has already returned the packet that carries it to its application. -/
theorem erased_accepted (reach : (network link).Reaches (World.Traffic channel) (.initial channel) world)
    {peer : Peer} {tcpChoice udpChoice : Option Nat}
    (taken : (network link).step world (.receive peer tcpChoice udpChoice) = some world')
    {sequence : BitVec 32} {entry : PendingPacket}
    (waiting : (world.window link channel peer).pending sequence = some entry)
    (erased : (world'.window link channel peer).pending sequence = none) :
    (link.endpoint peer, sequence) ∈ world.returned channel peer.other := by
  obtain ⟨lane, shows, sound⟩ := sound_reached reach
  obtain ⟨lane', receipt, shows'⟩ := shows.receive taken
  rw [shows.window] at waiting
  rw [shows'.window] at erased
  obtain ⟨packet, offered, acked⟩ := receipt.acked waiting erased
  obtain ⟨-, positive, le⟩ := sound.waiting peer sequence entry waiting
  have accepted := sound.vouched peer.other packet offered sequence positive
    (Nat.lt_of_le_of_lt le (sound.bound peer)) acked
  obtain ⟨returned, member, same⟩ := shows.returned_of_accepted sound accepted
  rw [BitVec.eq_of_toNat_eq same, Peer.other_other] at member
  exact member

/-- One packet has been delivered and its acknowledgement is on the wire. -/
def acknowledged : World :=
  (network localLink).after (World.Traffic 0) (.initial 0) [.send .a dataPacket, .receive .b none (some 0)] (by decide)

theorem erased_accepted_one :
    ∃ world, (network localLink).step acknowledged (.receive .a none (some 1)) = some world ∧
      (world.window localLink 0 .a).pending 1 = none ∧
      (localLink.endpoint .a, 1) ∈ acknowledged.returned 0 .b := by
  have taken : ((network localLink).step acknowledged (.receive .a none (some 1))).isSome := by decide
  have waiting : ((acknowledged.window localLink 0 .a).pending 1).isSome := by decide
  have erased : ((((network localLink).step acknowledged (.receive .a none (some 1))).get taken).window
      localLink 0 .a).pending 1 = none := by decide +revert
  exact ⟨_, (Option.some_get taken).symm, erased,
    erased_accepted (System.reaches_after _) (Option.some_get taken).symm (Option.some_get waiting).symm erased⟩

end Reached

end SoulLib.Networking
