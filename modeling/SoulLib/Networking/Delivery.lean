import SoulLib.Networking.Lane
import SoulLib.Networking.ReceiveWindow

/-! What a reliable channel delivers and acknowledges.

Along every run of the lane, each receive window represents the duplicate filter
fed with the data packets that arrived, and every acknowledgement pair that was
ever put on the wire speaks only of packets its sender has accepted. Delivery at
most once, the fate of overtaken packets and the soundness of acknowledgements
are read off from this one invariant.
-/

set_option autoImplicit false

namespace SoulLib.Networking

open SoulLib.Semantics (System)

namespace Lane

/-- The filter that has seen everything that arrived at `peer`. -/
def filter (lane : Lane) (peer : Peer) : Filter := .receiveAll 32 (lane.arrivals peer)

/-- Every number the pair acknowledges has been accepted by `peer`. -/
def Vouches (lane : Lane) (peer : Peer) (ack ackMask : BitVec 32) : Prop :=
  ∀ sequence : BitVec 32, 0 < sequence.toNat → sequence.toNat < 2 ^ 31 →
    isSequenceAcked sequence ack ackMask = true → sequence.toNat ∈ (lane.filter peer).accepted

structure Sound (lane : Lane) : Prop where
  bound : ∀ peer, lane.sends peer < 2 ^ 31
  counted : ∀ peer, (lane.window peer).nextOutgoingSequence.toNat = lane.sends peer
  waiting : ∀ peer sequence entry, (lane.window peer).pending sequence = some entry →
    entry.packet.header.sequence = sequence ∧ 0 < sequence.toNat ∧ sequence.toNat ≤ lane.sends peer
  numbered : ∀ peer packet, (peer, packet) ∈ lane.wire → packet.ackOnly = false →
    0 < packet.header.sequence.toNat ∧ packet.header.sequence.toNat ≤ lane.sends peer
  vouched : ∀ peer packet, (peer, packet) ∈ lane.wire →
    lane.Vouches peer packet.header.acknowledgment packet.header.acknowledgmentMask
  arrived : ∀ peer, ∀ sequence ∈ lane.arrivals peer, sequence < 2 ^ 31
  represents : ∀ peer, Represents (lane.window peer) (lane.filter peer)
  delivered : ∀ peer, (lane.deliveries peer).map (·.header.sequence.toNat) = (lane.filter peer).accepted

theorem sound_initial : Sound {} where
  bound _ := Nat.two_pow_pos 31
  counted _ := rfl
  waiting _ _ _ waiting := by cases waiting
  numbered _ _ member := by cases member
  vouched _ _ member := by cases member
  arrived _ _ member := by cases member
  represents _ := by
    refine ⟨rfl, fun _ => ⟨rfl, rfl⟩, ?_, ?_⟩ <;> simp [filter, Filter.receiveAll]
  delivered _ := rfl

variable {channel : BitVec 16} {lane : Lane}

theorem tracks (lane : Lane) (peer : Peer) : Filter.Tracks (lane.arrivals peer) (lane.filter peer) :=
  Filter.tracks_receiveAll 32 _

theorem Sound.newest_lt (sound : lane.Sound) (peer : Peer) :
    ∀ newest, (lane.filter peer).newest = some newest → newest < 2 ^ 31 :=
  fun newest found => sound.arrived peer newest ((lane.tracks peer).newest_mem newest found)

theorem Sound.vouches (sound : lane.Sound) (peer : Peer) :
    lane.Vouches peer (lane.window peer).lastReceivedSequence (lane.window peer).receivedMask := by
  intro sequence positive small acked
  exact (sound.represents peer).acked_accepted (lane.tracks peer) (sound.newest_lt peer) positive small acked

/-- One peer changes what it sends: its receive window stays, and what it adds to
the wire is numbered and carries the current acknowledgement fields. -/
theorem Sound.transmit (sound : lane.Sound) (peer : Peer) (state : ReliableChannelState)
    (added : List Packet) (sends : Nat)
    (received : state.hasReceived = (lane.window peer).hasReceived)
    (last : state.lastReceivedSequence = (lane.window peer).lastReceivedSequence)
    (mask : state.receivedMask = (lane.window peer).receivedMask)
    (more : lane.sends peer ≤ sends) (bound : sends < 2 ^ 31)
    (counted : state.nextOutgoingSequence.toNat = sends)
    (waiting : ∀ sequence entry, state.pending sequence = some entry →
      entry.packet.header.sequence = sequence ∧ 0 < sequence.toNat ∧ sequence.toNat ≤ sends)
    (numbered : ∀ packet ∈ added, packet.ackOnly = false →
      0 < packet.header.sequence.toNat ∧ packet.header.sequence.toNat ≤ sends)
    (stamped : ∀ packet ∈ added, packet.header.acknowledgment = (lane.window peer).lastReceivedSequence ∧
      packet.header.acknowledgmentMask = (lane.window peer).receivedMask) :
    Sound { lane with
      window := Function.update lane.window peer state
      wire := lane.wire ++ added.map fun packet => (peer, packet)
      sends := Function.update lane.sends peer sends } := by
  refine ⟨?_, ?_, ?_, ?_, ?_, sound.arrived, ?_, sound.delivered⟩
  · intro other
    by_cases same : other = peer
    · subst same
      simpa using bound
    · simpa [same] using sound.bound other
  · intro other
    by_cases same : other = peer
    · subst same
      simpa using counted
    · simpa [same] using sound.counted other
  · intro other sequence entry found
    by_cases same : other = peer
    · subst same
      simp only [Function.update_self] at found ⊢
      exact waiting sequence entry found
    · simp only [Function.update_of_ne same] at found ⊢
      exact sound.waiting other sequence entry found
  · intro other packet member data
    rcases List.mem_append.mp member with old | new
    · -- What is on the wire stays numbered, since the counter only grows.
      obtain ⟨positive, le⟩ := sound.numbered other packet old data
      refine ⟨positive, ?_⟩
      by_cases same : other = peer
      · subst same
        simpa using le.trans more
      · simpa [same] using le
    · obtain ⟨packet, fresh, same⟩ := List.mem_map.mp new
      cases same
      simpa using numbered packet fresh data
  · intro other packet member
    rcases List.mem_append.mp member with old | new
    · exact sound.vouched other packet old
    · obtain ⟨packet, fresh, same⟩ := List.mem_map.mp new
      cases same
      rw [(stamped packet fresh).1, (stamped packet fresh).2]
      exact sound.vouches peer
  · intro other
    by_cases same : other = peer
    · subst same
      simpa [filter] using (sound.represents other).congr received last mask
    · simpa [same, filter] using sound.represents other

theorem Sound.send (sound : lane.Sound) (peer : Peer) (endpoint : Endpoint) (packet : Packet)
    (bound : lane.sends peer + 1 < 2 ^ 31) : (lane.send peer endpoint packet).Sound := by
  have next : ((lane.window peer).nextOutgoingSequence + 1).toNat = lane.sends peer + 1 := by
    rw [BitVec.toNat_add, sound.counted peer]
    exact Nat.mod_eq_of_lt (bound.trans (by decide))
  refine sound.transmit peer _ [lane.outgoing peer packet] _ rfl rfl rfl (Nat.le_succ _) bound next ?_ ?_ ?_
  · intro sequence entry found
    simp only [ReliableChannelState.pending_setPending] at found
    split at found
    · next same =>
        cases found
        subst same
        exact ⟨rfl, by omega, by omega⟩
    · obtain ⟨same, positive, le⟩ := sound.waiting peer sequence entry found
      exact ⟨same, positive, by omega⟩
  · intro sent member _
    obtain rfl := List.mem_singleton.mp member
    change 0 < ((lane.window peer).nextOutgoingSequence + 1).toNat ∧
      ((lane.window peer).nextOutgoingSequence + 1).toNat ≤ lane.sends peer + 1
    omega
  · intro sent member
    obtain rfl := List.mem_singleton.mp member
    exact ⟨rfl, rfl⟩

theorem Sound.repend (sound : lane.Sound) (peer : Peer) (state : ReliableChannelState)
    (added : List Packet)
    (pending : state = { lane.window peer with pending := state.pending })
    (waiting : ∀ sequence entry, state.pending sequence = some entry →
      entry.packet.header.sequence = sequence ∧ 0 < sequence.toNat ∧ sequence.toNat ≤ lane.sends peer)
    (numbered : ∀ packet ∈ added, packet.ackOnly = false →
      0 < packet.header.sequence.toNat ∧ packet.header.sequence.toNat ≤ lane.sends peer)
    (stamped : ∀ packet ∈ added, packet.header.acknowledgment = (lane.window peer).lastReceivedSequence ∧
      packet.header.acknowledgmentMask = (lane.window peer).receivedMask) :
    Sound { lane with
      window := Function.update lane.window peer state
      wire := lane.wire ++ added.map fun packet => (peer, packet) } := by
  have transmitted := sound.transmit peer state added _ (by rw [pending]) (by rw [pending]) (by rw [pending])
    (Nat.le_refl _) (sound.bound peer) (by rw [pending]; exact sound.counted peer) waiting numbered stamped
  rw [Function.update_eq_self] at transmitted
  exact transmitted

theorem Sound.recordAck (sound : lane.Sound) (peer : Peer) (header : PacketHeader) :
    (lane.recordAck peer header).Sound := by
  have erased := sound.repend peer
    ((lane.window peer).eraseAcked header.acknowledgment header.acknowledgmentMask) [] rfl ?_ (by simp) (by simp)
  · simpa [Lane.recordAck] using erased
  · intro sequence entry found
    simp only [ReliableChannelState.eraseAcked] at found
    split at found
    · cases found
    · exact sound.waiting peer sequence entry found

theorem Sound.resend (sound : lane.Sound) (peer : Peer) (sequence : BitVec 32) (entry : PendingPacket)
    (found : (lane.window peer).pending sequence = some entry) : (lane.resend peer sequence entry).Sound := by
  obtain ⟨same, positive, le⟩ := sound.waiting peer sequence entry found
  refine sound.repend peer _ [((lane.window peer).refresh entry).packet] rfl ?_ ?_ ?_
  · intro other otherEntry otherFound
    simp only [ReliableChannelState.pending_setPending] at otherFound
    split at otherFound
    · next here =>
        cases otherFound
        subst here
        exact ⟨same, positive, le⟩
    · exact sound.waiting peer other otherEntry otherFound
  · intro packet member _
    obtain rfl := List.mem_singleton.mp member
    change 0 < entry.packet.header.sequence.toNat ∧ entry.packet.header.sequence.toNat ≤ lane.sends peer
    rw [same]
    exact ⟨positive, le⟩
  · intro packet member
    obtain rfl := List.mem_singleton.mp member
    exact ⟨rfl, rfl⟩

theorem Sound.drop (sound : lane.Sound) (peer : Peer) (sequence : BitVec 32) :
    (lane.drop peer sequence).Sound := by
  have dropped := sound.repend peer ((lane.window peer).setPending sequence none) [] rfl ?_ (by simp) (by simp)
  · simpa [Lane.drop] using dropped
  · intro other entry found
    simp only [ReliableChannelState.pending_setPending] at found
    split at found
    · cases found
    · exact sound.waiting peer other entry found

theorem filter_arrive (lane : Lane) (peer : Peer) (packet : Packet) :
    (lane.arrive channel peer packet).filter peer =
      (lane.filter peer).receive 32 packet.header.sequence.toNat := by
  simp [filter, arrive, Filter.receiveAll_concat]

theorem filter_arrive_of_ne (lane : Lane) {peer other : Peer} (packet : Packet) (ne : other ≠ peer) :
    (lane.arrive channel peer packet).filter other = lane.filter other := by
  simp [filter, arrive, ne]

theorem accepted_arrive (lane : Lane) (peer other : Peer) (packet : Packet) {sequence : Nat}
    (member : sequence ∈ (lane.filter other).accepted) :
    sequence ∈ ((lane.arrive channel peer packet).filter other).accepted := by
  by_cases same : other = peer
  · subst same
    rw [filter_arrive, Filter.accepted_receive]
    split
    · exact member
    · exact List.mem_append_left _ member
  · rw [filter_arrive_of_ne lane packet same]
    exact member

theorem wire_arrive {peer other : Peer} {packet sent : Packet}
    (member : (other, sent) ∈ (lane.arrive channel peer packet).wire) :
    (other, sent) ∈ lane.wire ∨ other = peer ∧ sent = NetworkManager.ackPacket
      ((lane.window peer).handleIncomingSequence packet.header.sequence).1 channel := by
  simp only [Lane.arrive, List.mem_append] at member
  rcases member with old | new
  · exact .inl old
  · split at new
    · exact .inr (by simpa using new)
    · cases new

theorem Sound.arrive (sound : lane.Sound) (peer : Peer) (packet : Packet)
    (bound : packet.header.sequence.toNat < 2 ^ 31) : (lane.arrive channel peer packet).Sound := by
  have arrivals : ∀ other, ∀ sequence ∈ (lane.arrive channel peer packet).arrivals other, sequence < 2 ^ 31 := by
    intro other sequence member
    by_cases same : other = peer
    · subst same
      simp only [Lane.arrive, Function.update_self, List.mem_append, List.mem_singleton] at member
      rcases member with old | rfl
      · exact sound.arrived other sequence old
      · exact bound
    · simp only [Lane.arrive, Function.update_of_ne same] at member
      exact sound.arrived other sequence member
  -- The machine window answers as the abstract filter does, and still represents it afterwards.
  obtain ⟨answer, after⟩ := (sound.represents peer).handleIncomingSequence (lane.tracks peer)
    (sound.newest_lt peer) bound
  have represents : ∀ other, Represents ((lane.arrive channel peer packet).window other)
      ((lane.arrive channel peer packet).filter other) := by
    intro other
    by_cases same : other = peer
    · subst same
      rw [filter_arrive]
      simp only [Lane.arrive, Function.update_self]
      exact after.congr rfl rfl rfl
    · rw [filter_arrive_of_ne lane packet same]
      simpa [Lane.arrive, same] using sound.represents other
  have kept := (lane.window peer).outgoing_handleIncomingSequence packet.header.sequence
  refine ⟨sound.bound, ?_, ?_, ?_, ?_, arrivals, represents, ?_⟩
  · intro other
    by_cases same : other = peer
    · subst same
      simp only [Lane.arrive, Function.update_self, kept.2]
      exact sound.counted other
    · simpa [Lane.arrive, same] using sound.counted other
  · intro other sequence entry found
    by_cases same : other = peer
    · subst same
      simp only [Lane.arrive, Function.update_self, kept.1] at found
      exact sound.waiting other sequence entry found
    · simp only [Lane.arrive, Function.update_of_ne same] at found
      exact sound.waiting other sequence entry found
  · intro other sent member data
    rcases wire_arrive member with old | ⟨-, rfl⟩
    · exact sound.numbered other sent old data
    · simp [NetworkManager.ackPacket, Packet.ackOnly, PacketFlags.hasFlag, PacketFlags.and,
        PacketFlags.ack, PacketFlags.none] at data
  -- The acknowledgement just sent carries the new window, so it vouches for what that has accepted.
  · intro other sent member sequence positive small acked
    rcases wire_arrive member with old | ⟨rfl, rfl⟩
    · exact accepted_arrive lane peer other packet (sound.vouched other sent old sequence positive small acked)
    · rw [← filter_arrive] at after
      have tracks := (lane.arrive channel other packet).tracks other
      refine after.acked_accepted tracks ?_ positive small acked
      intro newest found
      exact arrivals other newest (tracks.newest_mem newest found)
  · intro other
    by_cases same : other = peer
    · subst same
      rw [filter_arrive, Filter.accepted_receive, ← sound.delivered other, ← answer]
      simp only [Lane.arrive, Function.update_self, List.map_append]
      split <;> simp
    · rw [filter_arrive_of_ne lane packet same, ← sound.delivered other]
      simp [Lane.arrive, same]

theorem Sound.receipt (sound : lane.Sound) {peer : Peer} {lane' : Lane}
    (receipt : Receipt channel lane peer lane') : lane'.Sound := by
  cases receipt with
  | quiet => exact sound
  | acknowledge packet offered bare => exact sound.recordAck peer packet.header
  | arrive packet offered data =>
      refine (sound.recordAck peer packet.header).arrive peer packet ?_
      exact Nat.lt_of_le_of_lt (sound.numbered peer.other packet offered data).2 (sound.bound peer.other)

theorem Sound.step {lane' : Lane} (stepped : Step channel lane lane') (sound : lane.Sound) : lane'.Sound := by
  cases stepped with
  | quiet => exact sound
  | send peer endpoint packet bound => exact sound.send peer endpoint packet bound
  | receive peer receipt => exact sound.receipt receipt
  | resend peer sequence entry waiting => exact sound.resend peer sequence entry waiting
  | drop peer sequence => exact sound.drop peer sequence

end Lane

/-- Sending endpoint and sequence number of what `receive` returned on the channel. -/
def World.returned (channel : BitVec 16) (world : World) (peer : Peer) : List (Endpoint × BitVec 32) :=
  (world.deliveries channel peer).map fun delivery => (delivery.1, delivery.2.header.sequence)

/-- A reliable packet as an application hands it to `send`. -/
def dataPacket : Packet where
  header := { guarantee := .reliable }
  payload := [0x2a]

section Reached

variable {link : Link} {channel : BitVec 16} {world : World}

theorem sound_reached (reach : (network link).Reaches (World.Traffic channel) (.initial channel) world) :
    ∃ lane, Shows link channel world lane ∧ lane.Sound :=
  shows_reached Lane.sound_initial (fun _ _ => Lane.Sound.step) reach

variable {lane : Lane}

/-- What was returned, read as natural numbers, is what the filter accepted. -/
theorem Shows.returned (shows : Shows link channel world lane) (sound : lane.Sound) (peer : Peer) :
    (world.returned channel peer).map (·.2.toNat) = (lane.filter peer).accepted ∧
      ∀ entry ∈ world.returned channel peer, entry.1 = link.endpoint peer.other := by
  unfold World.returned
  rw [shows.deliveries]
  constructor
  · rw [List.map_map, List.map_map]
    exact sound.delivered peer
  · intro entry member
    rw [List.map_map] at member
    obtain ⟨packet, -, rfl⟩ := List.mem_map.mp member
    rfl

theorem Shows.returned_of_accepted (shows : Shows link channel world lane) (sound : lane.Sound) {peer : Peer}
    {number : Nat} (accepted : number ∈ (lane.filter peer).accepted) :
    ∃ sequence, (link.endpoint peer.other, sequence) ∈ world.returned channel peer ∧
      sequence.toNat = number := by
  obtain ⟨same, source⟩ := shows.returned sound peer
  rw [← same] at accepted
  obtain ⟨⟨endpoint, sequence⟩, member, equal⟩ := List.mem_map.mp accepted
  obtain rfl : endpoint = link.endpoint peer.other := source _ member
  exact ⟨sequence, member, equal⟩

/-- `receive` returns each packet of the channel at most once exactly when no
packet arrives again after it was the newest one, has been overtaken, and is at
most 32 behind the newest. -/
theorem returned_once_iff (reach : (network link).Reaches (World.Traffic channel) (.initial channel) world) :
    (∀ peer, (world.returned channel peer).Nodup) ↔
      ∀ peer, Filter.Unforgetting 32 (world.arrivals channel peer) := by
  obtain ⟨lane, shows, sound⟩ := sound_reached reach
  apply forall_congr'
  intro peer
  obtain ⟨accepted, source⟩ := shows.returned sound peer
  rw [← Filter.accepted_nodup_iff, shows.arrivals, ← Lane.filter, ← accepted]
  constructor
  · apply List.Nodup.map_on
    intro first firstMember second secondMember same
    have endpoint := (source first firstMember).trans (source second secondMember).symm
    exact Prod.ext endpoint (BitVec.eq_of_toNat_eq same)
  · exact List.Nodup.of_map _

/-- Two packets arrive in the order in which they were sent. -/
def inOrder : World :=
  (network localLink).after (World.Traffic 0) (.initial 0)
    [.send .a dataPacket, .send .a dataPacket, .receive .b none (some 0), .receive .b none (some 1)] (by decide)

theorem returned_once_in_order :
    inOrder.returned 0 .b = [(localLink.endpoint .a, 1), (localLink.endpoint .a, 2)] ∧
      ((∀ peer, (inOrder.returned 0 peer).Nodup) ↔
        ∀ peer, Filter.Unforgetting 32 (inOrder.arrivals 0 peer)) :=
  ⟨by decide, returned_once_iff (System.reaches_after _)⟩

/-- The first of two packets arrives, is overtaken by the second, and is returned
again when the network duplicates it. -/
theorem returned_twice_overtaken :
    ((network localLink).run (World.Traffic 0) (.initial 0)
        [.send .a dataPacket, .send .a dataPacket, .receive .b none (some 0), .receive .b none (some 1),
          .receive .b none (some 0)]).map (World.returned 0 · .b) =
        some [(localLink.endpoint .a, 1), (localLink.endpoint .a, 2), (localLink.endpoint .a, 1)] ∧
      ¬ [(localLink.endpoint .a, 1#32), (localLink.endpoint .a, 2), (localLink.endpoint .a, 1)].Nodup := by
  decide

/-- What the window answers to an offered data packet. -/
theorem Shows.duplicate (shows : Shows link channel world lane) (sound : lane.Sound) {peer : Peer}
    {packet : Packet} (onChannel : packet.header.channel = channel)
    (bound : packet.header.sequence.toNat < 2 ^ 31) :
    (((world.manager peer).recordAck (link.endpoint peer.other) packet.header).handleIncomingSequence
      (link.endpoint peer.other) packet.header).2 =
        (lane.filter peer).duplicate 32 packet.header.sequence.toNat := by
  have state := shows.window peer
  unfold World.window at state
  have erased := (sound.recordAck peer packet.header).represents peer
  simp only [Lane.recordAck, Function.update_self] at erased
  simp only [NetworkManager.handleIncomingSequence, NetworkManager.channelState_recordAck, onChannel,
    and_self, if_true, state]
  exact (erased.handleIncomingSequence (lane.tracks peer) (sound.newest_lt peer) bound).1

/-- A data packet that `handle_incoming_sequence` answers as a duplicate was
accepted before, or is more than 32 behind a packet accepted before; every other
data packet is returned when it arrives. -/
theorem duplicate_repeated_or_overtaken
    (reach : (network link).Reaches (World.Traffic channel) (.initial channel) world) {peer : Peer}
    {source : Endpoint} {packet : Packet} {k : Nat}
    (found : world.udp[k]? = some ⟨link.endpoint peer, source, packet⟩)
    (onChannel : packet.header.channel = channel) (data : packet.ackOnly = false) :
    ((((world.manager peer).recordAck source packet.header).handleIncomingSequence
        source packet.header).2 = true →
      (source, packet.header.sequence) ∈ world.returned channel peer ∨
        ∃ newest, (source, newest) ∈ world.returned channel peer ∧
          packet.header.sequence.toNat + 32 < newest.toNat) ∧
    ((source, packet.header.sequence) ∉ world.returned channel peer →
      (∀ newest, (source, newest) ∈ world.returned channel peer →
        newest.toNat ≤ packet.header.sequence.toNat + 32) →
      ∃ world', (network link).step world (.receive peer none (some k)) = some world' ∧
        world'.deliveries channel peer = world.deliveries channel peer ++ [(source, packet)]) := by
  obtain ⟨lane, shows, sound⟩ := sound_reached reach
  obtain ⟨rfl, offered⟩ := shows.offered onChannel (List.mem_of_getElem? found)
  have bound : packet.header.sequence.toNat < 2 ^ 31 :=
    Nat.lt_of_le_of_lt (sound.numbered _ packet offered data).2 (sound.bound _)
  have repeated : ((((world.manager peer).recordAck (link.endpoint peer.other)
      packet.header).handleIncomingSequence (link.endpoint peer.other) packet.header).2 = true →
      (link.endpoint peer.other, packet.header.sequence) ∈ world.returned channel peer ∨
        ∃ newest, (link.endpoint peer.other, newest) ∈ world.returned channel peer ∧
          packet.header.sequence.toNat + 32 < newest.toNat) := by
    intro answered
    rw [shows.duplicate sound onChannel bound] at answered
    -- A refusal has two reasons: the number is remembered, or it fell out of the window.
    rcases (lane.tracks peer).duplicate_cases 32 answered with same | ⟨newest, accepted, far⟩
    · obtain ⟨sequence, member, equal⟩ := shows.returned_of_accepted sound same
      rw [BitVec.eq_of_toNat_eq equal] at member
      exact .inl member
    · obtain ⟨sequence, member, equal⟩ := shows.returned_of_accepted sound accepted
      exact .inr ⟨sequence, member, by omega⟩
  refine ⟨repeated, ?_⟩
  intro unseen near
  have fresh : (((world.manager peer).recordAck (link.endpoint peer.other) packet.header).handleIncomingSequence
      (link.endpoint peer.other) packet.header).2 = false := by
    rw [← Bool.not_eq_true]
    intro answered
    rcases repeated answered with seen | ⟨newest, member, far⟩
    · exact unseen seen
    · exact absurd (near newest member) (by omega)
  have polled : World.poll world.udp (link.endpoint peer) (some k) =
      some (some (link.endpoint peer.other, packet)) := by
    simp [World.poll, found]
  have reliable := shows.reliable peer
  have nothing : World.poll world.tcp (link.endpoint peer) none = some none := rfl
  refine ⟨_, by simp only [network, World.step, nothing, polled]; rfl, ?_⟩
  simp only [NetworkManager.receive, onChannel, reliable, data, fresh, World.deliveries]
  simp [onChannel]

/-- The second of two packets has overtaken the first. -/
def overtaking : World :=
  (network localLink).after (World.Traffic 0) (.initial 0)
    [.send .a dataPacket, .send .a dataPacket, .receive .b none (some 1)] (by decide)

theorem overtaken_returned :
    overtaking.returned 0 .b = [(localLink.endpoint .a, 2)] ∧
      ∃ world, (network localLink).step overtaking (.receive .b none (some 0)) = some world ∧
        world.returned 0 .b = [(localLink.endpoint .a, 2), (localLink.endpoint .a, 1)] := by
  have returned : overtaking.returned 0 .b = [(localLink.endpoint .a, 2)] := by decide
  have found : overtaking.udp[0]? = some ⟨localLink.endpoint .b, localLink.endpoint .a,
    { dataPacket with header := { dataPacket.header with sequence := 1 } }⟩ := by decide
  have near : ∀ newest, (localLink.endpoint .a, newest) ∈ overtaking.returned 0 .b →
      newest.toNat ≤ 1 + 32 := by
    intro newest member
    rw [returned] at member
    cases List.mem_singleton.mp member
    decide
  obtain ⟨world, taken, delivered⟩ := (duplicate_repeated_or_overtaken (System.reaches_after _) found rfl
    (by decide)).2 (by decide) near
  exact ⟨returned, world, taken, by rw [World.returned, delivered]; decide⟩

/-- Thirty-three packets overtake the first, which is then swallowed. -/
theorem overtaken_swallowed :
    ((network localLink).run (World.Traffic 0) (.initial 0) (List.replicate 34 (.send .a dataPacket) ++
      [.receive .b none (some 33), .receive .b none (some 0)])).map
        (fun world => (world.arrivals 0 .b, world.returned 0 .b)) =
      some ([34, 1], [(localLink.endpoint .a, 34)]) := by
  decide +kernel

end Reached

end SoulLib.Networking
