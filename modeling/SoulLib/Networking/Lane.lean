import SoulLib.Networking.Peers

/-! One reliable channel between two peers, apart from everything else.

A `Lane` keeps what the two managers and the network hold about the channel.
Every admitted step of the two managers is a step of the lane, so what holds
along all runs of the lane holds along all runs of the managers.
-/

set_option autoImplicit false

namespace SoulLib.Networking

structure Lane where
  window : Peer → ReliableChannelState := fun _ => {}
  wire : List (Peer × Packet) := []
  sends : Peer → Nat := fun _ => 0
  arrivals : Peer → List Nat := fun _ => []
  deliveries : Peer → List Packet := fun _ => []

namespace Lane

/-- The packet `peer` puts on the wire for the next application packet. -/
def outgoing (lane : Lane) (peer : Peer) (packet : Packet) : Packet :=
  { packet with
    header := (lane.window peer).stamp
      { packet.header with sequence := (lane.window peer).nextOutgoingSequence + 1 } }

def send (lane : Lane) (peer : Peer) (endpoint : Endpoint) (packet : Packet) : Lane :=
  let state := lane.window peer
  let sequence := state.nextOutgoingSequence + 1
  { lane with
    window := Function.update lane.window peer
      ({ state with nextOutgoingSequence := sequence }.setPending sequence
        (some { endpoint, packet := lane.outgoing peer packet, attempts := 0 }))
    wire := lane.wire ++ [(peer, lane.outgoing peer packet)]
    sends := Function.update lane.sends peer (lane.sends peer + 1) }

/-- The effect of `record_ack`. -/
def recordAck (lane : Lane) (peer : Peer) (header : PacketHeader) : Lane :=
  { lane with
    window := Function.update lane.window peer
      ((lane.window peer).eraseAcked header.acknowledgment header.acknowledgmentMask) }

/-- The effect of `handle_incoming_sequence` and `maybe_send_ack`, and what
`receive` then returns. -/
def arrive (lane : Lane) (channel : BitVec 16) (peer : Peer) (packet : Packet) : Lane :=
  let (state, duplicate) := (lane.window peer).handleIncomingSequence packet.header.sequence
  { lane with
    window := Function.update lane.window peer { state with pendingAck := false }
    wire := lane.wire ++
      if state.pendingAck then [(peer, NetworkManager.ackPacket state channel)] else []
    arrivals := Function.update lane.arrivals peer
      (lane.arrivals peer ++ [packet.header.sequence.toNat])
    deliveries := Function.update lane.deliveries peer
      (lane.deliveries peer ++ if duplicate then [] else [packet]) }

def resend (lane : Lane) (peer : Peer) (sequence : BitVec 32) (entry : PendingPacket) : Lane :=
  let state := lane.window peer
  { lane with
    window := Function.update lane.window peer (state.setPending sequence (some (state.refresh entry)))
    wire := lane.wire ++ [(peer, (state.refresh entry).packet)] }

def drop (lane : Lane) (peer : Peer) (sequence : BitVec 32) : Lane :=
  { lane with window := Function.update lane.window peer ((lane.window peer).setPending sequence none) }

/-- What one call of `receive` does to the channel; `quiet` concerns another
channel or none. -/
inductive Receipt (channel : BitVec 16) (lane : Lane) (peer : Peer) : Lane → Prop where
  | quiet : Receipt channel lane peer lane
  | acknowledge (packet : Packet) (offered : (peer.other, packet) ∈ lane.wire)
      (bare : packet.ackOnly = true) : Receipt channel lane peer (lane.recordAck peer packet.header)
  | arrive (packet : Packet) (offered : (peer.other, packet) ∈ lane.wire)
      (data : packet.ackOnly = false) :
      Receipt channel lane peer ((lane.recordAck peer packet.header).arrive channel peer packet)

inductive Step (channel : BitVec 16) (lane : Lane) : Lane → Prop where
  | quiet : Step channel lane lane
  | send (peer : Peer) (endpoint : Endpoint) (packet : Packet) (bound : lane.sends peer + 1 < 2 ^ 31) :
      Step channel lane (lane.send peer endpoint packet)
  | receive (peer : Peer) {lane' : Lane} (receipt : Receipt channel lane peer lane') :
      Step channel lane lane'
  | resend (peer : Peer) (sequence : BitVec 32) (entry : PendingPacket)
      (waiting : (lane.window peer).pending sequence = some entry) :
      Step channel lane (lane.resend peer sequence entry)
  | drop (peer : Peer) (sequence : BitVec 32) : Step channel lane (lane.drop peer sequence)

end Lane

/-- The two managers and the network show the lane on the channel. -/
structure Shows (link : Link) (channel : BitVec 16) (world : World) (lane : Lane) : Prop where
  reliable : ∀ peer, (world.manager peer).isUdpReliable channel = true
  filed : ∀ peer, (world.manager peer).Filed
  timers : ∀ timer ∈ world.timers, timer.endpoint = link.endpoint timer.owner.other
  tcp : ∀ datagram ∈ world.tcp, datagram.packet.header.channel ≠ channel
  window : ∀ peer, world.window link channel peer = lane.window peer
  wire : world.wire channel = lane.wire.map fun sending =>
    ⟨link.endpoint sending.1.other, link.endpoint sending.1, sending.2⟩
  sends : ∀ peer, (world.sends channel peer).length = lane.sends peer
  arrivals : ∀ peer, world.arrivals channel peer = lane.arrivals peer
  deliveries : ∀ peer, world.deliveries channel peer =
    (lane.deliveries peer).map fun packet => (link.endpoint peer.other, packet)

theorem shows_initial (link : Link) (channel : BitVec 16) : Shows link channel (.initial channel) {} := by
  refine ⟨?_, ?_, ?_, ?_, ?_, ?_, ?_, ?_, ?_⟩
  · intro peer
    simp [World.initial, NetworkManager.isUdpReliable, NetworkManager.enableUdpReliability]
  · intro peer key lane sequence entry waiting
    cases waiting
  · simp [World.initial]
  · simp [World.initial]
  · intro peer
    rfl
  · simp [World.initial, World.wire]
  · intro peer
    simp [World.initial, World.sends]
  · intro peer
    simp [World.initial, World.arrivals]
  · intro peer
    simp [World.initial, World.deliveries]

section Simulation

variable {link : Link} {channel : BitVec 16} {world world' : World} {lane lane' : Lane}

/-- After one peer replaced its manager and performed effects, the world shows
the lane in which that peer's window and the wire changed accordingly. -/
theorem Shows.after (shows : Shows link channel world lane) (peer : Peer) (manager : NetworkManager)
    (effects : List Effect) (added : List Packet)
    (managers : world'.manager = Function.update world.manager peer manager)
    (udp : world'.udp = world.udp ++ effects.filterMap (Effect.datagram (link.endpoint peer)))
    (tcp : world'.tcp = world.tcp ++ effects.filterMap (Effect.segment (link.endpoint peer)))
    (timers : world'.timers ⊆ world.timers ++ effects.filterMap (Effect.timer peer))
    (reliable : manager.isUdpReliable channel = true) (filed : manager.Filed)
    (segments : ∀ destination packet, .tcpSend destination packet ∈ effects →
      packet.header.channel ≠ channel)
    (rearmed : ∀ destination lane sequence, .retransmitAfter destination lane sequence ∈ effects →
      destination = link.endpoint peer.other)
    (window : lane'.window = Function.update lane.window peer
      (manager.channelState (makeConnectionKey (link.endpoint peer.other)) channel))
    (onWire : (effects.filterMap (Effect.datagram (link.endpoint peer))).filter
        (·.packet.header.channel = channel) =
      added.map fun packet => ⟨link.endpoint peer.other, link.endpoint peer, packet⟩)
    (wire : lane'.wire = lane.wire ++ added.map fun packet => (peer, packet))
    (sends : ∀ other, (world'.sends channel other).length = lane'.sends other)
    (arrivals : ∀ other, world'.arrivals channel other = lane'.arrivals other)
    (deliveries : ∀ other, world'.deliveries channel other =
      (lane'.deliveries other).map fun packet => (link.endpoint other.other, packet)) :
    Shows link channel world' lane' := by
  refine ⟨?_, ?_, ?_, ?_, ?_, ?_, sends, arrivals, deliveries⟩
  · intro other
    rw [managers]
    by_cases same : other = peer
    · subst same
      simpa using reliable
    · simpa [same] using shows.reliable other
  · intro other
    rw [managers]
    by_cases same : other = peer
    · subst same
      simpa using filed
    · simpa [same] using shows.filed other
  · intro timer member
    -- only a retransmission arms a timer, and it goes to the other peer
    rcases List.mem_append.mp (timers member) with old | new
    · exact shows.timers timer old
    · obtain ⟨effect, performed, armed⟩ := List.mem_filterMap.mp new
      cases effect with
      | retransmitAfter destination lane sequence =>
          cases armed
          exact rearmed destination lane sequence performed
      | udpSend => cases armed
      | tcpSend => cases armed
  · intro datagram member
    rw [tcp, List.mem_append] at member
    rcases member with old | new
    · exact shows.tcp datagram old
    · obtain ⟨effect, performed, emitted⟩ := List.mem_filterMap.mp new
      -- of the effects only a TCP send puts a segment on the wire
      cases effect with
      | tcpSend destination packet =>
          cases emitted
          exact segments destination packet performed
      | udpSend => cases emitted
      | retransmitAfter => cases emitted
  · intro other
    have old := shows.window other
    unfold World.window at old ⊢
    rw [managers, window]
    by_cases same : other = peer
    · subst same
      simp
    · simpa [same] using old
  -- the lane sees of the wire only what is on its channel
  · have old := shows.wire
    unfold World.wire at old ⊢
    rw [udp, List.filter_append, old, onWire, wire, List.map_append, List.map_map]
    rfl

theorem filter_datagrams_of_ne {effects : List Effect} (source : Endpoint)
    (off : ∀ effect ∈ effects, effect.channel ≠ channel) :
    (effects.filterMap (Effect.datagram source)).filter (·.packet.header.channel = channel) = [] := by
  rw [List.filter_eq_nil_iff]
  intro datagram member
  obtain ⟨effect, performed, emitted⟩ := List.mem_filterMap.mp member
  cases effect with
  | udpSend destination packet =>
      cases emitted
      simpa [Effect.channel] using off _ performed
  | tcpSend => cases emitted
  | retransmitAfter => cases emitted

theorem Shows.quiet (shows : Shows link channel world lane) (peer : Peer) (manager : NetworkManager)
    (effects : List Effect)
    (managers : world'.manager = Function.update world.manager peer manager)
    (udp : world'.udp = world.udp ++ effects.filterMap (Effect.datagram (link.endpoint peer)))
    (tcp : world'.tcp = world.tcp ++ effects.filterMap (Effect.segment (link.endpoint peer)))
    (timers : world'.timers ⊆ world.timers ++ effects.filterMap (Effect.timer peer))
    (reliable : manager.isUdpReliable channel = true) (filed : manager.Filed)
    (off : ∀ effect ∈ effects, effect.channel ≠ channel)
    (rearmed : ∀ destination lane sequence, .retransmitAfter destination lane sequence ∈ effects →
      destination = link.endpoint peer.other)
    (same : manager.channelState (makeConnectionKey (link.endpoint peer.other)) channel =
      world.window link channel peer)
    (sends : ∀ other, world'.sends channel other = world.sends channel other)
    (arrivals : ∀ other, world'.arrivals channel other = world.arrivals channel other)
    (deliveries : ∀ other, world'.deliveries channel other = world.deliveries channel other) :
    Shows link channel world' lane := by
  refine shows.after peer manager effects [] managers udp tcp timers reliable filed ?_ rearmed ?_ ?_ (by simp)
    ?_ ?_ ?_
  · intro destination packet performed
    exact off _ performed
  · rw [same, shows.window, Function.update_eq_self]
  · simpa using filter_datagrams_of_ne _ off
  · intro other
    rw [sends, shows.sends]
  · intro other
    rw [arrivals, shows.arrivals]
  · intro other
    rw [deliveries, shows.deliveries]

theorem Shows.send (shows : Shows link channel world lane) {peer : Peer} {packet : Packet}
    (allowed : World.Traffic channel world (.send peer packet))
    (taken : World.step link world (.send peer packet) = some world') :
    ∃ lane', Lane.Step channel lane lane' ∧ Shows link channel world' lane' := by
  simp only [World.step, Option.some.injEq] at taken
  subst taken
  -- A send on another channel is invisible to this lane.
  by_cases onChannel : packet.header.channel = channel
  · obtain ⟨guarantee, bound⟩ := allowed onChannel
    have state : (world.manager peer).channelState (makeConnectionKey (link.endpoint peer.other))
        packet.header.channel = lane.window peer := by
      rw [onChannel]
      exact shows.window peer
    have outgoing : ((world.manager peer).sendReliableUdp (link.endpoint peer.other) packet).2 =
        lane.outgoing peer packet := by
      simp only [NetworkManager.sendReliableUdp, Lane.outgoing, state]
    have sent : (world.manager peer).send (link.endpoint peer.other) packet =
        (((world.manager peer).sendReliableUdp (link.endpoint peer.other) packet).1,
          [.udpSend (link.endpoint peer.other) (lane.outgoing peer packet),
            .retransmitAfter (link.endpoint peer.other) packet.header.channel
              (lane.outgoing peer packet).header.sequence]) := by
      have reliable := shows.reliable peer
      rw [← onChannel] at reliable
      simp only [NetworkManager.send, guarantee, reliable, outgoing, and_self, if_true]
      rfl
    have lanePacket : (lane.outgoing peer packet).header.channel = channel := onChannel
    rw [shows.sends] at bound
    rw [sent]
    refine ⟨lane.send peer (link.endpoint peer.other) packet, .send peer _ packet bound,
      shows.after peer _ _ [lane.outgoing peer packet] rfl rfl rfl (List.Subset.refl _) ?_ ?_ ?_ ?_ ?_ ?_ rfl
        ?_ ?_ ?_⟩
    · rw [NetworkManager.isUdpReliable_sendReliableUdp]
      exact shows.reliable peer
    · exact (shows.filed peer).sendReliableUdp packet
    · simp
    · intro destination other sequence armed
      simp only [List.mem_cons, reduceCtorEq, Effect.retransmitAfter.injEq, List.not_mem_nil, or_false,
        false_or] at armed
      exact armed.1
    · simp only [Lane.send, NetworkManager.channelState_sendReliableUdp, onChannel, and_self, if_true,
        outgoing]
      rw [onChannel] at state
      rw [state]
    · simp [Effect.datagram, lanePacket]
    · intro other
      have old := shows.sends other
      unfold World.sends at old ⊢
      by_cases same : other = peer
      · subst same
        simp [Lane.send, onChannel, List.filter_append, old]
      · simpa [Lane.send, same] using old
    · exact shows.arrivals
    · exact shows.deliveries
  · refine ⟨lane, .quiet, shows.quiet peer _ _ rfl rfl rfl (List.Subset.refl _) ?_ ?_ ?_ ?_ ?_ ?_ ?_ ?_⟩
    · rw [NetworkManager.isUdpReliable_send]
      exact shows.reliable peer
    · exact (shows.filed peer).send packet
    · intro effect member
      rw [NetworkManager.effects_send _ _ _ effect member]
      exact onChannel
    · intro destination other sequence member
      exact NetworkManager.rearmed_send _ _ _ destination other sequence member
    · exact NetworkManager.channelState_send_of_ne _ _ _ onChannel
    · intro other
      unfold World.sends
      by_cases same : other = peer
      · subst same
        simp [onChannel, List.filter_append]
      · simp [same]
    · intro other
      rfl
    · intro other
      rfl

theorem poll_some {datagrams : List Datagram} {endpoint source : Endpoint} {packet : Packet}
    {choice : Option Nat} (polled : World.poll datagrams endpoint choice = some (some (source, packet))) :
    ⟨endpoint, source, packet⟩ ∈ datagrams := by
  cases choice with
  | none => cases polled
  | some k =>
      simp only [World.poll] at polled
      split at polled
      · next datagram found =>
          split at polled
          · next here =>
              cases polled
              rw [← here]
              exact List.mem_of_getElem? found
          · cases polled
      · cases polled

theorem Shows.offered (shows : Shows link channel world lane) {peer : Peer} {source : Endpoint}
    {packet : Packet} (onChannel : packet.header.channel = channel)
    (member : ⟨link.endpoint peer, source, packet⟩ ∈ world.udp) :
    source = link.endpoint peer.other ∧ (peer.other, packet) ∈ lane.wire := by
  have onWire : ⟨link.endpoint peer, source, packet⟩ ∈ world.wire channel := by
    simpa [World.wire, onChannel] using member
  rw [shows.wire] at onWire
  obtain ⟨⟨sender, sent⟩, found, same⟩ := List.mem_map.mp onWire
  simp only [Datagram.mk.injEq] at same
  obtain ⟨destination, rfl, rfl⟩ := same
  have receiver : sender.other = peer := link.endpoint_inj destination
  subst receiver
  simpa using found

theorem Shows.receive_off (shows : Shows link channel world lane) (peer : Peer)
    (tcp udp : Option (Endpoint × Packet)) (polled : List Packet)
    (offPolled : ∀ packet ∈ polled, packet.header.channel ≠ channel)
    (offResult : ∀ delivery ∈ ((world.manager peer).receive tcp udp).2.2, delivery.2.header.channel ≠ channel)
    (offEffects : ∀ effect ∈ ((world.manager peer).receive tcp udp).2.1, effect.channel ≠ channel)
    (same : ((world.manager peer).receive tcp udp).1.channelState
      (makeConnectionKey (link.endpoint peer.other)) channel = world.window link channel peer) :
    Shows link channel
      { world.act link peer ((world.manager peer).receive tcp udp).1
          ((world.manager peer).receive tcp udp).2.1 with
        arrived := Function.update world.arrived peer (world.arrived peer ++ polled)
        delivered := Function.update world.delivered peer
          (world.delivered peer ++ ((world.manager peer).receive tcp udp).2.2.toList) } lane := by
  refine shows.quiet peer _ _ rfl rfl rfl (List.Subset.refl _) ?_ ((shows.filed peer).receive tcp udp)
    offEffects ?_ same ?_ ?_ ?_
  · rw [NetworkManager.isUdpReliable_receive]
    exact shows.reliable peer
  · intro destination other sequence member
    exact absurd member (NetworkManager.not_rearmed_receive _ _ _ destination other sequence)
  · intro other
    rfl
  · intro other
    unfold World.arrivals
    by_cases here : other = peer
    · subst here
      -- what was polled lies on another channel, so the filter drops it
      have none : polled.filter (fun packet => decide (packet.header.channel = channel) && !packet.ackOnly) = [] := by
        rw [List.filter_eq_nil_iff]
        intro packet member
        simp [offPolled packet member]
      simp only [Function.update_self, List.filter_append, none, List.append_nil]
    · simp [here]
  · intro other
    unfold World.deliveries
    by_cases here : other = peer
    · subst here
      have none : (((world.manager other).receive tcp udp).2.2.toList).filter
          (·.2.header.channel = channel) = [] := by
        rw [List.filter_eq_nil_iff]
        intro delivery member
        simpa using offResult delivery (Option.mem_toList.mp member)
      simp only [Function.update_self, List.filter_append, none, List.append_nil]
    · simp [here]

theorem Shows.receive_ack (shows : Shows link channel world lane) {peer : Peer} {packet : Packet}
    (onChannel : packet.header.channel = channel) (bare : packet.ackOnly = true) :
    Shows link channel
      { world.act link peer
          ((world.manager peer).receive none (some (link.endpoint peer.other, packet))).1
          ((world.manager peer).receive none (some (link.endpoint peer.other, packet))).2.1 with
        arrived := Function.update world.arrived peer (world.arrived peer ++ [packet])
        delivered := Function.update world.delivered peer (world.delivered peer ++
          ((world.manager peer).receive none (some (link.endpoint peer.other, packet))).2.2.toList) }
      (lane.recordAck peer packet.header) := by
  have reliable := shows.reliable peer
  have state := shows.window peer
  unfold World.window at state
  -- receive() records the ACK and returns before it looks at the sequence
  have result : (world.manager peer).receive none (some (link.endpoint peer.other, packet)) =
      ((world.manager peer).recordAck (link.endpoint peer.other) packet.header, [], none) := by
    simp only [NetworkManager.receive, onChannel, reliable, bare, if_true]
  rw [result]
  refine shows.after peer _ _ [] rfl rfl rfl (List.Subset.refl _) ?_ ?_ ?_ ?_ ?_ rfl ?_ ?_ ?_ ?_
  · rw [NetworkManager.isUdpReliable_recordAck]
    exact reliable
  · exact (shows.filed peer).recordAck packet.header
  · simp
  · simp
  · simp only [Lane.recordAck, NetworkManager.channelState_recordAck, onChannel, and_self, if_true, state]
  · simp [Lane.recordAck]
  · exact shows.sends
  · intro other
    have old := shows.arrivals other
    unfold World.arrivals at old ⊢
    by_cases here : other = peer
    · subst here
      simpa [Lane.recordAck, List.filter_append, bare] using old
    · simpa [Lane.recordAck, here] using old
  · intro other
    have old := shows.deliveries other
    unfold World.deliveries at old ⊢
    by_cases here : other = peer
    · subst here
      simpa [Lane.recordAck] using old
    · simpa [Lane.recordAck, here] using old

/-- A data packet goes through the window, may be acknowledged, and is returned
unless it is answered as a duplicate. -/
theorem Shows.receive_data (shows : Shows link channel world lane) {peer : Peer} {packet : Packet}
    (onChannel : packet.header.channel = channel) (data : packet.ackOnly = false) :
    Shows link channel
      { world.act link peer
          ((world.manager peer).receive none (some (link.endpoint peer.other, packet))).1
          ((world.manager peer).receive none (some (link.endpoint peer.other, packet))).2.1 with
        arrived := Function.update world.arrived peer (world.arrived peer ++ [packet])
        delivered := Function.update world.delivered peer (world.delivered peer ++
          ((world.manager peer).receive none (some (link.endpoint peer.other, packet))).2.2.toList) }
      ((lane.recordAck peer packet.header).arrive channel peer packet) := by
  have reliable := shows.reliable peer
  have state := shows.window peer
  unfold World.window at state
  -- the three calls of receive(): record_ack, handle_incoming_sequence, maybe_send_ack
  let acked := (world.manager peer).recordAck (link.endpoint peer.other) packet.header
  have ackedState : acked.channelState (makeConnectionKey (link.endpoint peer.other)) channel =
      (lane.window peer).eraseAcked packet.header.acknowledgment packet.header.acknowledgmentMask := by
    simp only [acked, NetworkManager.channelState_recordAck, onChannel, and_self, if_true, state]
  let answer := ((lane.window peer).eraseAcked packet.header.acknowledgment
    packet.header.acknowledgmentMask).handleIncomingSequence packet.header.sequence
  let handled := (acked.handleIncomingSequence (link.endpoint peer.other) packet.header).1
  have duplicate : (acked.handleIncomingSequence (link.endpoint peer.other) packet.header).2 = answer.2 := by
    simp only [NetworkManager.handleIncomingSequence, onChannel, ackedState, answer]
  have handledState : handled.channelState (makeConnectionKey (link.endpoint peer.other)) channel = answer.1 := by
    simp only [handled, NetworkManager.channelState_handleIncomingSequence, onChannel, and_self, if_true,
      ackedState, answer]
  have result : (world.manager peer).receive none (some (link.endpoint peer.other, packet)) =
      ((handled.maybeSendAck (link.endpoint peer.other) channel).1,
        (handled.maybeSendAck (link.endpoint peer.other) channel).2,
        if answer.2 then none else some (link.endpoint peer.other, packet)) := by
    simp only [NetworkManager.receive, onChannel, reliable, data, if_true, Bool.false_eq_true, if_false]
    rw [← duplicate]
  rw [result]
  refine shows.after peer _ _
    (if answer.1.pendingAck then [NetworkManager.ackPacket answer.1 channel] else [])
    rfl rfl rfl (List.Subset.refl _) ?_ ?_ ?_ ?_ ?_ ?_ ?_ ?_ ?_ ?_
  · rw [NetworkManager.isUdpReliable_maybeSendAck]
    exact (NetworkManager.isUdpReliable_recordAck ..).trans reliable
  · exact (((shows.filed peer).recordAck packet.header).handleIncomingSequence packet.header).maybeSendAck _
  · intro destination sent performed
    rw [NetworkManager.effects_maybeSendAck] at performed
    split at performed
    · simp at performed
    · cases performed
  · intro destination other sequence performed
    rw [NetworkManager.effects_maybeSendAck] at performed
    split at performed
    · simp at performed
    · cases performed
  · simp only [Lane.arrive, Lane.recordAck, NetworkManager.channelState_maybeSendAck, and_self, if_true,
      handledState, Function.update_self, Function.update_idem, answer]
  · rw [NetworkManager.effects_maybeSendAck, handledState]
    split <;> simp [Effect.datagram, NetworkManager.ackPacket]
  · simp only [Lane.arrive, Lane.recordAck, Function.update_self]
    congr 1
    split <;> rfl
  · exact shows.sends
  · intro other
    have old := shows.arrivals other
    unfold World.arrivals at old ⊢
    by_cases here : other = peer
    · subst here
      simp [Lane.arrive, Lane.recordAck, List.filter_append, onChannel, data, old]
    · simpa [Lane.arrive, Lane.recordAck, here] using old
  · intro other
    have old := shows.deliveries other
    unfold World.deliveries at old ⊢
    by_cases here : other = peer
    · subst here
      simp only [Function.update_self, List.filter_append, old, Lane.arrive, Lane.recordAck,
        List.map_append]
      congr 1
      -- a duplicate is answered but not returned
      cases repeated : answer.2 <;> simp [answer] at repeated <;> simp [onChannel]
    · simpa [Lane.arrive, Lane.recordAck, here] using old

theorem Shows.receive (shows : Shows link channel world lane) {peer : Peer} {tcpChoice udpChoice : Option Nat}
    (taken : World.step link world (.receive peer tcpChoice udpChoice) = some world') :
    ∃ lane', Lane.Receipt channel lane peer lane' ∧ Shows link channel world' lane' := by
  simp only [World.step, Option.bind_eq_bind, Option.bind_eq_some_iff, Option.some.injEq] at taken
  obtain ⟨tcp, tcpPolled, udp, udpPolled, rfl⟩ := taken
  -- what TCP offers comes first, and the lane never uses TCP
  cases tcp with
  | some reliable =>
      obtain ⟨source, packet⟩ := reliable
      have off := shows.tcp _ (poll_some tcpPolled)
      refine ⟨lane, .quiet, shows.receive_off peer (some (source, packet)) udp [] ?_ ?_ ?_ rfl⟩
      · simp
      · simpa [NetworkManager.receive] using off
      · simp [NetworkManager.receive]
  | none =>
      cases udp with
      | none =>
          refine ⟨lane, .quiet, shows.receive_off peer none none [] ?_ ?_ ?_ rfl⟩
          · simp
          · simp [NetworkManager.receive]
          · simp [NetworkManager.receive]
      | some offer =>
          obtain ⟨source, packet⟩ := offer
          by_cases onChannel : packet.header.channel = channel
          · obtain ⟨rfl, offered⟩ := shows.offered onChannel (poll_some udpPolled)
            cases bare : packet.ackOnly with
            | true => exact ⟨_, .acknowledge packet offered bare, shows.receive_ack onChannel bare⟩
            | false => exact ⟨_, .arrive packet offered bare, shows.receive_data onChannel bare⟩
          -- a datagram of another channel leaves the lane as it is
          · refine ⟨lane, .quiet, shows.receive_off peer none (some (source, packet)) [packet] ?_ ?_ ?_ ?_⟩
            · simpa using onChannel
            · intro delivery member
              simp only [NetworkManager.receive] at member
              split at member
              · split at member
                · cases member
                · simp only [Option.mem_def] at member
                  split at member
                  · cases member
                  · cases member
                    exact onChannel
              · cases member
                exact onChannel
            · intro effect member
              rw [NetworkManager.effects_receive _ _ _ effect member]
              exact onChannel
            · exact NetworkManager.channelState_receive_of_ne _ _ _ onChannel

theorem Shows.fire (shows : Shows link channel world lane) {k : Nat}
    (taken : World.step link world (.fire k) = some world') :
    ∃ lane', Lane.Step channel lane lane' ∧ Shows link channel world' lane' := by
  simp only [World.step, Option.bind_eq_bind, Option.bind_eq_some_iff, Option.some.injEq] at taken
  obtain ⟨timer, found, maxAttempts, -, rfl⟩ := taken
  obtain ⟨peer, endpoint, timerChannel, sequence, budget⟩ := timer
  have kept : world.timers.eraseIdx k ⊆ world.timers := (List.eraseIdx_sublist ..).subset
  have toOther : endpoint = link.endpoint peer.other := shows.timers _ (List.mem_of_getElem? found)
  subst toOther
  have state := shows.window peer
  unfold World.window at state
  have reliable := shows.reliable peer
  have filed := (shows.filed peer).retransmitAfter (link.endpoint peer.other) timerChannel sequence maxAttempts
  have result := NetworkManager.retransmitAfter_cases (world.manager peer) (link.endpoint peer.other)
    timerChannel sequence maxAttempts
  have sameEndpoint : ∀ entry, ((world.manager peer).channelState
      (makeConnectionKey (link.endpoint peer.other)) timerChannel).pending sequence = some entry →
      entry.endpoint = link.endpoint peer.other ∧ entry.packet.header.channel = timerChannel := by
    intro entry waiting
    obtain ⟨sameKey, sameChannel⟩ := shows.filed peer _ _ _ _ waiting
    exact ⟨makeConnectionKey_injective sameKey, sameChannel⟩
  have rearmed : ∀ (sender : Endpoint) (again : Packet) destination lane number,
      .retransmitAfter destination lane number ∈
        [Effect.udpSend sender again, .retransmitAfter (link.endpoint peer.other) timerChannel sequence] →
      destination = link.endpoint peer.other := by
    intro sender again destination lane number armed
    simp only [List.mem_cons, reduceCtorEq, Effect.retransmitAfter.injEq, List.not_mem_nil, or_false,
      false_or] at armed
    exact armed.1
  by_cases onChannel : timerChannel = channel
  · subst onChannel
    rw [state] at result sameEndpoint
    rcases result with ⟨-, same⟩ | ⟨entry, waiting, ⟨-, same⟩ | ⟨-, same⟩⟩
    · -- The entry is gone: nothing happens.
      simp only [same]
      refine ⟨lane, .quiet, shows.quiet peer _ [] rfl rfl rfl ?_ reliable (shows.filed peer)
        (by simp) (by simp) rfl (fun _ => rfl) (fun _ => rfl) (fun _ => rfl)⟩
      simpa [World.act] using kept
    · -- The budget is used up: the entry is dropped.
      rw [same] at filed
      simp only [same]
      refine ⟨lane.drop peer sequence, .drop peer sequence, shows.after peer _ [] [] rfl rfl rfl ?_
        reliable filed (by simp) (by simp) ?_ rfl (by simp [Lane.drop]) shows.sends shows.arrivals
        shows.deliveries⟩
      · simpa [World.act] using kept
      · simp [Lane.drop, NetworkManager.channelState_setChannel]
    · obtain ⟨sameEndpoint, sameChannel⟩ := sameEndpoint entry waiting
      rw [same] at filed
      simp only [same]
      refine ⟨lane.resend peer sequence entry, .resend peer sequence entry waiting, shows.after peer _ _
        [((lane.window peer).refresh entry).packet] rfl rfl rfl ?_ reliable filed (by simp) (rearmed _ _) ?_ ?_
        (by simp [Lane.resend]) shows.sends shows.arrivals shows.deliveries⟩
      · exact List.append_subset_of_subset_of_subset (List.Subset.trans kept (List.subset_append_left _ _))
          (List.subset_append_right _ _)
      · simp [Lane.resend, NetworkManager.channelState_setChannel]
      · simp [Effect.datagram, ReliableChannelState.refresh, ReliableChannelState.stamp, sameEndpoint,
          sameChannel]
  · -- A timer of another channel leaves the lane alone.
    rcases result with ⟨-, same⟩ | ⟨entry, waiting, ⟨-, same⟩ | ⟨-, same⟩⟩
    · simp only [same]
      refine ⟨lane, .quiet, shows.quiet peer _ [] rfl rfl rfl ?_ reliable (shows.filed peer)
        (by simp) (by simp) rfl (fun _ => rfl) (fun _ => rfl) (fun _ => rfl)⟩
      simpa [World.act] using kept
    · rw [same] at filed
      simp only [same]
      refine ⟨lane, .quiet, shows.quiet peer _ [] rfl rfl rfl ?_ reliable filed
        (by simp) (by simp) ?_ (fun _ => rfl) (fun _ => rfl) (fun _ => rfl)⟩
      · simpa [World.act] using kept
      · simp [NetworkManager.channelState_setChannel, World.window, Ne.symm onChannel]
    · obtain ⟨-, sameChannel⟩ := sameEndpoint entry waiting
      rw [same] at filed
      simp only [same]
      refine ⟨lane, .quiet, shows.quiet peer _ _ rfl rfl rfl ?_ reliable filed ?_ (rearmed _ _) ?_
        (fun _ => rfl) (fun _ => rfl) (fun _ => rfl)⟩
      · exact List.append_subset_of_subset_of_subset (List.Subset.trans kept (List.subset_append_left _ _))
          (List.subset_append_right _ _)
      · intro effect member
        simp only [List.mem_cons, List.not_mem_nil, or_false] at member
        rcases member with rfl | rfl
        · simpa [Effect.channel, ReliableChannelState.refresh, ReliableChannelState.stamp, sameChannel]
            using onChannel
        · exact onChannel
      · simp [NetworkManager.channelState_setChannel, World.window, Ne.symm onChannel]

theorem Shows.readBudget (shows : Shows link channel world lane) {k : Nat}
    (taken : World.step link world (.readBudget k) = some world') : Shows link channel world' lane := by
  simp only [World.step, Option.bind_eq_bind, Option.bind_eq_some_iff] at taken
  obtain ⟨timer, found, rest⟩ := taken
  split at rest
  · cases rest
  · cases rest
    refine ⟨shows.reliable, shows.filed, ?_, shows.tcp, shows.window, shows.wire, shows.sends, shows.arrivals,
      shows.deliveries⟩
    intro other member
    rcases List.mem_or_eq_of_mem_set member with old | rfl
    · exact shows.timers other old
    · exact shows.timers timer (List.mem_of_getElem? found)

theorem Shows.enableUdpReliability (shows : Shows link channel world lane) {peer : Peer}
    {other : BitVec 16} {enabled : Bool}
    (allowed : World.Traffic channel world (.enableUdpReliability peer other enabled)) :
    Shows link channel
      (world.act link peer ((world.manager peer).enableUdpReliability other enabled) []) lane := by
  refine shows.quiet peer _ [] rfl rfl rfl (List.Subset.refl _) ?_ (shows.filed peer) (by simp) (by simp) rfl
    (fun _ => rfl) (fun _ => rfl) (fun _ => rfl)
  have before := shows.reliable peer
  by_cases same : other = channel
  · have stays : enabled = true := allowed same
    simp [NetworkManager.isUdpReliable, NetworkManager.enableUdpReliability, same, stays]
  · simpa [NetworkManager.isUdpReliable, NetworkManager.enableUdpReliability, Ne.symm same] using before

/-- Every admitted step of the two managers is a step of the lane. -/
theorem Shows.step (shows : Shows link channel world lane) {action : Action}
    (allowed : World.Traffic channel world action)
    (taken : (network link).step world action = some world') :
    ∃ lane', Lane.Step channel lane lane' ∧ Shows link channel world' lane' := by
  cases action with
  | send peer packet => exact shows.send allowed taken
  | receive peer tcpChoice udpChoice =>
      obtain ⟨lane', receipt, shows'⟩ := shows.receive taken
      exact ⟨lane', .receive peer receipt, shows'⟩
  | readBudget k => exact ⟨lane, .quiet, shows.readBudget taken⟩
  | fire k => exact shows.fire taken
  | enableUdpReliability peer other enabled =>
      cases taken
      exact ⟨lane, .quiet, shows.enableUdpReliability allowed⟩
  | configureUdpRetransmission peer interval maxAttempts =>
      cases taken
      refine ⟨lane, .quiet, shows.quiet peer _ [] rfl rfl rfl (List.Subset.refl _) (shows.reliable peer)
        (shows.filed peer) (by simp) (by simp) rfl (fun _ => rfl) (fun _ => rfl) (fun _ => rfl)⟩

/-- What the lane keeps along its runs holds of the lane that a reached world
shows. -/
theorem shows_reached {holds : Lane → Prop} (initial : holds {})
    (kept : ∀ before after, Lane.Step channel before after → holds before → holds after)
    (reach : (network link).Reaches (World.Traffic channel) (.initial channel) world) :
    ∃ lane, Shows link channel world lane ∧ holds lane := by
  induction reach with
  | start => exact ⟨{}, shows_initial link channel, initial⟩
  | next _ allowed taken ih =>
      obtain ⟨lane, shows, held⟩ := ih
      obtain ⟨lane', stepped, shows'⟩ := shows.step allowed taken
      exact ⟨lane', shows', kept lane lane' stepped held⟩

end Simulation

end SoulLib.Networking
