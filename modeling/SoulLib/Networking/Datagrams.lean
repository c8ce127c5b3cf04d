import SoulLib.Networking.Contents
import SoulLib.Networking.Transport

/-! Two managers over sockets that carry bytes.

The transports write packets to bytes and read them back, where a datagram is cut to
the buffer of the receiver and a connection may break off. As long as every packet
fits the buffer, the two managers do what they do when the network carries packets.
-/

set_option autoImplicit false

namespace SoulLib.Networking

open SoulLib.Semantics (System)

/-- What was handed to a socket, a datagram or all that was written to a connection. -/
structure RawDatagram where
  destination : Endpoint
  source : Endpoint
  bytes : List Byte

structure Wires where
  manager : Peer → NetworkManager
  udp : List RawDatagram := []
  tcp : List RawDatagram := []
  timers : List Timer := []
  sent : Peer → List Packet := fun _ => []
  arrived : Peer → List Packet := fun _ => []
  delivered : Peer → List (Endpoint × Packet) := fun _ => []

/-- Of a connection as many bytes arrive as the network transmits before it ends. -/
inductive RawAction where
  | send (peer : Peer) (packet : Packet)
  | receive (peer : Peer) (tcp : Option (Nat × Nat)) (udp : Option Nat)
  | readBudget (timer : Nat)
  | fire (timer : Nat)
  | enableUdpReliability (peer : Peer) (channel : BitVec 16) (enabled : Bool)
  | configureUdpRetransmission (peer : Peer) (interval : Int) (maxAttempts : BitVec 8)

namespace Effect

def rawDatagram (order : ByteOrder) (source : Endpoint) : Effect → Option RawDatagram
  | .udpSend destination packet => (UdpTransport.send order packet).map fun bytes => ⟨destination, source, bytes⟩
  | .tcpSend .. | .retransmitAfter .. => none

def rawSegment (order : ByteOrder) (source : Endpoint) : Effect → Option RawDatagram
  | .tcpSend destination packet => some ⟨destination, source, TcpTransport.send order packet⟩
  | .udpSend .. | .retransmitAfter .. => none

end Effect

/-- The payload fits the buffer of `recvfrom`, or the size field of a connection. -/
def NetworkManager.Room (manager : NetworkManager) (packet : Packet) : Prop :=
  packet.payload.length ≤
    if packet.header.guarantee = .reliable ∧ manager.isUdpReliable packet.header.channel = false then 2 ^ 31 - 1 else 1484

def World.Room (world : World) : Action → Prop
  | .send peer packet => (world.manager peer).Room packet
  | _ => True

namespace Wires

def Room (wires : Wires) : RawAction → Prop
  | .send peer packet => (wires.manager peer).Room packet
  | _ => True

def act (order : ByteOrder) (link : Link) (wires : Wires) (peer : Peer) (manager : NetworkManager)
    (effects : List Effect) : Wires :=
  { wires with
    manager := Function.update wires.manager peer manager
    udp := wires.udp ++ effects.filterMap (Effect.rawDatagram order (link.endpoint peer))
    tcp := wires.tcp ++ effects.filterMap (Effect.rawSegment order (link.endpoint peer))
    timers := wires.timers ++ effects.filterMap (Effect.timer peer) }

/-- What the UDP transport answers when the chosen datagram is waiting. -/
def pollUdp (order : ByteOrder) (datagrams : List RawDatagram) (endpoint : Endpoint) :
    Option Nat → Option (Option (Endpoint × Packet))
  | none => some none
  | some k =>
      match datagrams[k]? with
      | some raw => if raw.destination = endpoint then some (UdpTransport.receive order raw.source raw.bytes) else none
      | none => none

/-- What the TCP transport answers when it accepts the chosen connection. -/
def pollTcp (order : ByteOrder) (segments : List RawDatagram) (endpoint : Endpoint) :
    Option (Nat × Nat) → Option (Option (Endpoint × Packet))
  | none => some none
  | some (k, count) =>
      match segments[k]? with
      | some raw =>
          if raw.destination = endpoint then some (TcpTransport.receive order raw.source (raw.bytes.take count)) else none
      | none => none

def step (order : ByteOrder) (link : Link) (wires : Wires) : RawAction → Option Wires
  | .send peer packet =>
      let (manager, effects) := (wires.manager peer).send (link.endpoint peer.other) packet
      some { wires.act order link peer manager effects with
        sent := Function.update wires.sent peer (wires.sent peer ++ [packet]) }
  | .receive peer tcpChoice udpChoice => do
      let tcp ← pollTcp order wires.tcp (link.endpoint peer) tcpChoice
      let udp ← pollUdp order wires.udp (link.endpoint peer) udpChoice
      let (manager, effects, result) := (wires.manager peer).receive tcp udp
      let polled := if tcp.isNone then udp.toList.map Prod.snd else []
      some { wires.act order link peer manager effects with
        arrived := Function.update wires.arrived peer (wires.arrived peer ++ polled)
        delivered := Function.update wires.delivered peer (wires.delivered peer ++ result.toList) }
  | .readBudget k => do
      let timer ← wires.timers[k]?
      let (_, maxAttempts) := (wires.manager timer.owner).retransmitBudget
      if timer.budget.isSome then none
      else some { wires with timers := wires.timers.set k { timer with budget := some maxAttempts } }
  | .fire k => do
      let timer ← wires.timers[k]?
      let maxAttempts ← timer.budget
      let (manager, effects) := (wires.manager timer.owner).retransmitAfter timer.endpoint timer.channel
        timer.sequence maxAttempts
      some ({ wires with timers := wires.timers.eraseIdx k }.act order link timer.owner manager effects)
  | .enableUdpReliability peer channel enabled =>
      some (wires.act order link peer ((wires.manager peer).enableUdpReliability channel enabled) [])
  | .configureUdpRetransmission peer interval maxAttempts =>
      some (wires.act order link peer ((wires.manager peer).configureUdpRetransmission interval maxAttempts) [])

def system (order : ByteOrder) (link : Link) : System Wires RawAction where
  step := step order link

def initial (channel : BitVec 16) : Wires where
  manager _ := NetworkManager.enableUdpReliability {} channel true

section Abstraction

variable (order : ByteOrder)

/-- The packet that a receiver reads in it, if the sender wrote one. -/
def readUdp (raw : RawDatagram) : Datagram :=
  ⟨raw.destination, raw.source, ((UdpTransport.receive order raw.source raw.bytes).map Prod.snd).getD {}⟩

def readTcp (raw : RawDatagram) : Datagram :=
  ⟨raw.destination, raw.source, ((TcpTransport.receive order raw.source raw.bytes).map Prod.snd).getD {}⟩

/-- The packets that the bytes stand for. -/
def packets (wires : Wires) : World where
  manager := wires.manager
  udp := wires.udp.map (readUdp order)
  tcp := wires.tcp.map (readTcp order)
  timers := wires.timers
  sent := wires.sent
  arrived := wires.arrived
  delivered := wires.delivered

/-- The connection that is read to its end, if the bytes that arrive are all that were written. -/
def whole (wires : Wires) (choice : Nat × Nat) : Option Nat :=
  match wires.tcp[choice.1]? with
  | some raw => if raw.bytes.length ≤ choice.2 then some choice.1 else none
  | none => some choice.1

/-- All bytes of a connection arrive. -/
def complete (wires : Wires) (k : Nat) : Nat × Nat := (k, wires.tcp[k]?.elim 0 fun raw => raw.bytes.length)

/-- A connection that breaks off gives the receiver nothing. -/
def action (wires : Wires) : RawAction → Action
  | .send peer packet => .send peer packet
  | .receive peer tcp udp => .receive peer (tcp.bind wires.whole) udp
  | .readBudget k => .readBudget k
  | .fire k => .fire k
  | .enableUdpReliability peer channel enabled => .enableUdpReliability peer channel enabled
  | .configureUdpRetransmission peer interval maxAttempts => .configureUdpRetransmission peer interval maxAttempts

def rawAction (wires : Wires) : Action → RawAction
  | .send peer packet => .send peer packet
  | .receive peer tcp udp => .receive peer (tcp.map wires.complete) udp
  | .readBudget k => .readBudget k
  | .fire k => .fire k
  | .enableUdpReliability peer channel enabled => .enableUdpReliability peer channel enabled
  | .configureUdpRetransmission peer interval maxAttempts => .configureUdpRetransmission peer interval maxAttempts

end Abstraction

/-- What fits the buffer of `recvfrom` behind a header. -/
def Fits (packet : Packet) : Prop := packet.payload.length ≤ 1484

/-- What a manager keeps and hands over fits. -/
structure Sized (manager : NetworkManager) (effects : List Effect) : Prop where
  keeps : manager.Keeps Fits
  datagrams : NetworkManager.Hands Fits effects
  segments : ∀ destination packet, .tcpSend destination packet ∈ effects → packet.payload.length < 2 ^ 31

structure Sound (order : ByteOrder) (wires : Wires) : Prop where
  udp : ∀ raw ∈ wires.udp, ∃ packet, Fits packet ∧ raw.bytes = packet.header.encode order ++ packet.payload
  tcp : ∀ raw ∈ wires.tcp, ∃ packet : Packet, packet.payload.length < 2 ^ 31 ∧ raw.bytes = TcpTransport.send order packet
  keeps : ∀ peer, (wires.manager peer).Keeps Fits

variable {order : ByteOrder} {link : Link} {wires wires' : Wires} {peer : Peer} {manager : NetworkManager}
  {effects : List Effect} {packet : Packet}

section Effects

theorem restampable_fits : Restampable Fits := fun _ _ fits => fits

theorem sized_send (keeps : manager.Keeps Fits) (endpoint : Endpoint)
    (room : manager.Room packet) :
    Sized (manager.send endpoint packet).1 (manager.send endpoint packet).2 := by
  rw [NetworkManager.Room] at room
  have small : ¬(packet.header.guarantee = .reliable ∧ manager.isUdpReliable packet.header.channel = false) →
      Fits packet := by
    intro through
    rwa [if_neg through] at room
  obtain ⟨kept, handed⟩ := NetworkManager.keeps_send keeps endpoint
    (fun _ enabled => small fun both => by rw [both.2] at enabled; cases enabled)
    (fun unreliable => small fun both => by rw [both.1] at unreliable; cases unreliable)
  refine ⟨kept, handed, fun destination segment member => ?_⟩
  unfold NetworkManager.send at member
  split at member
  · simp only [List.mem_cons, reduceCtorEq, List.not_mem_nil, or_self] at member
  · split at member
    · rw [List.mem_singleton, Effect.tcpSend.injEq] at member
      rw [member.2]
      split at room
      · omega
      · omega
    · simp only [List.mem_singleton, reduceCtorEq] at member

theorem sized_receive (keeps : manager.Keeps Fits) (tcp udp : Option (Endpoint × Packet)) :
    Sized (manager.receive tcp udp).1 (manager.receive tcp udp).2.1 := by
  have acknowledgement (state : ReliableChannelState) (lane : BitVec 16) : Fits (NetworkManager.ackPacket state lane) :=
    Nat.zero_le 1484
  obtain ⟨kept, handed⟩ := NetworkManager.keeps_receive keeps acknowledgement tcp udp
  refine ⟨kept, handed, fun destination segment member => ?_⟩
  unfold NetworkManager.receive at member
  split at member
  · cases member
  · cases member
  · split at member
    · split at member
      · cases member
      · simp only [NetworkManager.effects_maybeSendAck] at member
        split at member
        · simp only [List.mem_singleton, reduceCtorEq] at member
        · cases member
    · cases member

theorem sized_retransmitAfter (keeps : manager.Keeps Fits) (endpoint : Endpoint) (channel : BitVec 16)
    (sequence : BitVec 32) (maxAttempts : BitVec 8) :
    Sized (manager.retransmitAfter endpoint channel sequence maxAttempts).1
      (manager.retransmitAfter endpoint channel sequence maxAttempts).2 := by
  obtain ⟨kept, handed⟩ := NetworkManager.keeps_retransmitAfter keeps restampable_fits endpoint channel sequence
    maxAttempts
  refine ⟨kept, handed, fun destination segment member => ?_⟩
  rcases NetworkManager.retransmitAfter_cases manager endpoint channel sequence maxAttempts with
    ⟨-, same⟩ | ⟨entry, waiting, ⟨-, same⟩ | ⟨-, same⟩⟩ <;> rw [same] at member
  · cases member
  · cases member
  · simp only [List.mem_cons, reduceCtorEq, List.not_mem_nil, or_self] at member

end Effects

section Reading

theorem receive_whole (fits : Fits packet) (order : ByteOrder) (source : Endpoint) :
    UdpTransport.receive order source (packet.header.encode order ++ packet.payload) = some (source, packet) := by
  have room : UdpTransport.bufferSize - PacketHeader.size = 1484 := rfl
  rw [UdpTransport.receive_framed, room, List.take_of_length_le fits]

theorem send_whole (fits : Fits packet) (order : ByteOrder) :
    UdpTransport.send order packet = some (packet.header.encode order ++ packet.payload) := by
  have short : packet.payload.length ≤ 1484 := fits
  simp only [UdpTransport.send]
  rw [if_pos]
  rw [List.length_append, PacketHeader.length_encode]
  unfold PacketHeader.size maxDatagram
  omega

theorem filterMap_rawDatagram (sized : NetworkManager.Hands Fits effects) (source : Endpoint) :
    (effects.filterMap (Effect.rawDatagram order source)).map (readUdp order) =
      effects.filterMap (Effect.datagram source) := by
  rw [List.map_filterMap]
  refine List.filterMap_congr fun effect member => ?_
  cases effect with
  | tcpSend destination packet => rfl
  | retransmitAfter endpoint channel sequence => rfl
  | udpSend destination packet =>
      have fits := sized destination packet member
      simp only [Effect.rawDatagram, Effect.datagram, send_whole fits, Option.map_some, readUdp, receive_whole fits]
      rfl

theorem filterMap_rawSegment (sized : Sized manager effects) (source : Endpoint) :
    (effects.filterMap (Effect.rawSegment order source)).map (readTcp order) =
      effects.filterMap (Effect.segment source) := by
  rw [List.map_filterMap]
  refine List.filterMap_congr fun effect member => ?_
  cases effect with
  | udpSend destination packet => rfl
  | retransmitAfter endpoint channel sequence => rfl
  | tcpSend destination packet =>
      have whole := TcpTransport.receive_take (sized.segments destination packet member) order source
        (TcpTransport.send order packet).length
      rw [List.take_length, if_pos (Nat.le_refl _)] at whole
      simp only [Effect.rawSegment, Effect.segment, Option.map_some, readTcp, whole]
      rfl

theorem packets_act (sized : Sized manager effects) :
    (wires.act order link peer manager effects).packets order = (wires.packets order).act link peer manager effects := by
  simp only [packets, act, World.act, List.map_append, filterMap_rawDatagram sized.datagrams, filterMap_rawSegment sized]

theorem Sound.act (sound : wires.Sound order) (link : Link) (peer : Peer) (sized : Sized manager effects) :
    (wires.act order link peer manager effects).Sound order where
  udp := by
    intro raw member
    rcases List.mem_append.mp member with before | added
    · exact sound.udp raw before
    · obtain ⟨effect, among, shown⟩ := List.mem_filterMap.mp added
      cases effect with
      | tcpSend destination packet => cases shown
      | retransmitAfter endpoint channel sequence => cases shown
      | udpSend destination packet =>
          have fits := sized.datagrams destination packet among
          rw [Effect.rawDatagram, send_whole fits] at shown
          cases shown
          exact ⟨packet, fits, rfl⟩
  tcp := by
    intro raw member
    rcases List.mem_append.mp member with before | added
    · exact sound.tcp raw before
    · obtain ⟨effect, among, shown⟩ := List.mem_filterMap.mp added
      cases effect with
      | udpSend destination packet => cases shown
      | retransmitAfter endpoint channel sequence => cases shown
      | tcpSend destination packet =>
          cases shown
          exact ⟨packet, sized.segments destination packet among, rfl⟩
  keeps := by
    intro other
    show (Function.update wires.manager peer manager other).Keeps Fits
    by_cases same : other = peer
    · subst same
      rw [Function.update_self]
      exact sized.keeps
    · rw [Function.update_of_ne same]
      exact sound.keeps other

theorem poll_udp (sound : wires.Sound order) (endpoint : Endpoint) (choice : Option Nat) :
    World.poll (wires.packets order).udp endpoint choice = pollUdp order wires.udp endpoint choice := by
  cases choice with
  | none => rfl
  | some k =>
      simp only [World.poll, pollUdp, packets, List.getElem?_map]
      cases found : wires.udp[k]? with
      | none => rfl
      | some raw =>
          obtain ⟨packet, fits, bytes⟩ := sound.udp raw (List.mem_of_getElem? found)
          simp only [Option.map_some, readUdp, bytes, receive_whole fits]
          rfl

theorem receive_segment {raw : RawDatagram} (sound : wires.Sound order) (member : raw ∈ wires.tcp) (count : Nat) :
    TcpTransport.receive order raw.source (raw.bytes.take count) =
      if raw.bytes.length ≤ count then some (raw.source, (readTcp order raw).packet) else none := by
  obtain ⟨packet, short, bytes⟩ := sound.tcp raw member
  have whole := TcpTransport.receive_take short order raw.source (TcpTransport.send order packet).length
  rw [List.take_length, if_pos (Nat.le_refl _)] at whole
  rw [readTcp, bytes, TcpTransport.receive_take short, whole]
  rfl

/-- A connection that breaks off is like none. -/
theorem poll_tcp (sound : wires.Sound order) (endpoint : Endpoint) (choice : Option (Nat × Nat))
    {answer : Option (Endpoint × Packet)} (polled : pollTcp order wires.tcp endpoint choice = some answer) :
    World.poll (wires.packets order).tcp endpoint (choice.bind wires.whole) = some answer := by
  cases choice with
  | none => exact polled
  | some choice =>
      obtain ⟨k, count⟩ := choice
      simp only [pollTcp] at polled
      cases found : wires.tcp[k]? with
      | none =>
          rw [found] at polled
          cases polled
      | some raw =>
          rw [found] at polled
          simp only at polled
          split at polled
          · next here =>
              rw [receive_segment sound (List.mem_of_getElem? found)] at polled
              cases polled
              simp only [Option.bind_some, whole, found]
              by_cases complete : raw.bytes.length ≤ count
              · simp only [if_pos complete, World.poll, packets, List.getElem?_map, found, Option.map_some]
                exact if_pos here
              · rw [if_neg complete, if_neg complete]
                rfl
          · cases polled

theorem poll_tcp_complete (sound : wires.Sound order) (endpoint : Endpoint) (choice : Option Nat)
    {answer : Option (Endpoint × Packet)} (polled : World.poll (wires.packets order).tcp endpoint choice = some answer) :
    pollTcp order wires.tcp endpoint (choice.map wires.complete) = some answer := by
  cases choice with
  | none => exact polled
  | some k =>
      simp only [World.poll, packets, List.getElem?_map] at polled
      cases found : wires.tcp[k]? with
      | none =>
          rw [found] at polled
          cases polled
      | some raw =>
          rw [found] at polled
          simp only [Option.map_some] at polled
          split at polled
          · next here =>
              cases polled
              simp only [Option.map_some, complete, found, Option.elim_some, pollTcp]
              have at_ : raw.destination = endpoint := here
              rw [if_pos at_, receive_segment sound (List.mem_of_getElem? found), if_pos (Nat.le_refl _)]
              rfl
          · cases polled

end Reading

section Steps

theorem sound_initial (channel : BitVec 16) : (initial channel).Sound order where
  udp := by
    intro raw member
    cases member
  tcp := by
    intro raw member
    cases member
  keeps := by
    intro peer slot entry waiting
    cases waiting

theorem Sound.sized (sound : wires.Sound order) (peer : Peer) (manager : NetworkManager)
    (same : ∀ slot, manager.pendingAt slot = (wires.manager peer).pendingAt slot) : Sized manager [] where
  keeps slot entry waiting := sound.keeps peer slot entry (by rwa [same] at waiting)
  datagrams _ _ member := by cases member
  segments _ _ member := by cases member

theorem whole_complete (k : Nat) : wires.whole (wires.complete k) = some k := by
  rw [whole, complete]
  cases found : wires.tcp[k]? with
  | none => rfl
  | some raw => exact if_pos (Nat.le_refl _)

theorem action_rawAction (act : Action) : wires.action (wires.rawAction act) = act := by
  cases act with
  | receive peer tcp udp =>
      cases tcp with
      | none => rfl
      | some k =>
          rw [rawAction, action, Option.map_some, Option.bind_some, whole_complete]
  | send | readBudget | fire | enableUdpReliability | configureUdpRetransmission => rfl

theorem packets_sent (sized : Sized manager effects) (sent : Peer → List Packet) :
    ({ wires.act order link peer manager effects with sent } : Wires).packets order =
      { (wires.packets order).act link peer manager effects with sent } := by
  rw [← packets_act sized]
  rfl

theorem packets_received (sound : wires.Sound order) (peer : Peer) (tcp udp : Option (Endpoint × Packet))
    (polled : List Packet) (result : Option (Endpoint × Packet)) :
    ({ wires.act order link peer ((wires.manager peer).receive tcp udp).1 ((wires.manager peer).receive tcp udp).2.1 with
        arrived := Function.update wires.arrived peer (wires.arrived peer ++ polled)
        delivered := Function.update wires.delivered peer (wires.delivered peer ++ result.toList) } : Wires).packets order =
      { (wires.packets order).act link peer ((wires.manager peer).receive tcp udp).1
          ((wires.manager peer).receive tcp udp).2.1 with
        arrived := Function.update wires.arrived peer (wires.arrived peer ++ polled)
        delivered := Function.update wires.delivered peer (wires.delivered peer ++ result.toList) } := by
  rw [← packets_act (sized_receive (sound.keeps peer) tcp udp)]
  rfl

/-- Every step over bytes is a step over packets. -/
theorem step_packets (sound : wires.Sound order) {raw : RawAction} (room : wires.Room raw)
    (taken : step order link wires raw = some wires') :
    World.step link (wires.packets order) (wires.action raw) = some (wires'.packets order) ∧ wires'.Sound order := by
  cases raw with
  | send peer packet =>
      simp only [step, Option.some.injEq] at taken
      subst taken
      have sized := sized_send (sound.keeps peer) (link.endpoint peer.other) room
      have acted := sound.act link peer sized
      refine ⟨?_, acted.udp, acted.tcp, acted.keeps⟩
      rw [packets_sent sized]
      rfl
  | receive peer tcpChoice udpChoice =>
      simp only [step, Option.bind_eq_bind, Option.bind_eq_some_iff, Option.some.injEq] at taken
      obtain ⟨tcp, tcpPolled, udp, udpPolled, rfl⟩ := taken
      have acted := sound.act link peer (sized_receive (sound.keeps peer) tcp udp)
      refine ⟨?_, acted.udp, acted.tcp, acted.keeps⟩
      -- what a socket hands out parses to the packet that was sent
      rw [packets_received sound]
      simp only [World.step, action, poll_tcp sound _ tcpChoice tcpPolled, poll_udp sound, udpPolled]
      rfl
  | readBudget k =>
      simp only [step, Option.bind_eq_bind, Option.bind_eq_some_iff] at taken
      obtain ⟨timer, found, read⟩ := taken
      have here : (wires.packets order).timers[k]? = some timer := found
      simp only [World.step, action, here, Option.bind_eq_bind, Option.bind_some]
      split at read
      · cases read
      · next unread =>
          cases read
          rw [if_neg unread]
          exact ⟨rfl, sound.udp, sound.tcp, sound.keeps⟩
  | fire k =>
      simp only [step, Option.bind_eq_bind, Option.bind_eq_some_iff, Option.some.injEq] at taken
      obtain ⟨timer, found, maxAttempts, read, rfl⟩ := taken
      have here : (wires.packets order).timers[k]? = some timer := found
      -- the timer is gone before its task acts
      have before : ({ wires with timers := wires.timers.eraseIdx k } : Wires).Sound order :=
        ⟨sound.udp, sound.tcp, sound.keeps⟩
      have sized := sized_retransmitAfter (sound.keeps timer.owner) timer.endpoint timer.channel timer.sequence maxAttempts
      refine ⟨?_, before.act link timer.owner sized⟩
      simp only [World.step, action, here, read, Option.bind_eq_bind, Option.bind_some]
      rw [packets_act sized]
      rfl
  | enableUdpReliability peer channel enabled =>
      cases taken
      have sized := sound.sized peer ((wires.manager peer).enableUdpReliability channel enabled) fun _ => rfl
      exact ⟨congrArg some (packets_act sized).symm, sound.act link peer sized⟩
  | configureUdpRetransmission peer interval maxAttempts =>
      cases taken
      have sized := sound.sized peer ((wires.manager peer).configureUdpRetransmission interval maxAttempts) fun _ => rfl
      exact ⟨congrArg some (packets_act sized).symm, sound.act link peer sized⟩

/-- And every step over packets is one over bytes, in which connections arrive to their end. -/
theorem step_bytes (sound : wires.Sound order) {act : Action} {world : World} (room : (wires.packets order).Room act)
    (taken : World.step link (wires.packets order) act = some world) :
    wires.Room (wires.rawAction act) ∧
      ∃ wires', step order link wires (wires.rawAction act) = some wires' ∧ wires'.packets order = world := by
  have allowed : wires.Room (wires.rawAction act) := by
    cases act with
    | send peer packet => exact room
    | receive | readBudget | fire | enableUdpReliability | configureUdpRetransmission => trivial
  refine ⟨allowed, ?_⟩
  -- a step over bytes shows its step over packets, so it is enough that the bytes can go on
  suffices possible : (step order link wires (wires.rawAction act)).isSome by
    obtain ⟨wires', raw⟩ := Option.isSome_iff_exists.mp possible
    obtain ⟨there, -⟩ := step_packets sound allowed raw
    rw [action_rawAction, taken] at there
    exact ⟨wires', raw, (Option.some.inj there).symm⟩
  cases act with
  | receive peer tcpChoice udpChoice =>
      simp only [World.step, Option.bind_eq_bind, Option.bind_eq_some_iff] at taken
      obtain ⟨tcp, tcpPolled, udp, udpPolled, -⟩ := taken
      rw [poll_udp sound] at udpPolled
      simp only [step, rawAction, poll_tcp_complete sound _ tcpChoice tcpPolled, udpPolled, Option.bind_eq_bind,
        Option.bind_some, Option.isSome_some]
  | readBudget k =>
      simp only [World.step, Option.bind_eq_bind, Option.bind_eq_some_iff] at taken
      obtain ⟨timer, found, read⟩ := taken
      have here : wires.timers[k]? = some timer := found
      simp only [step, rawAction, here, Option.bind_eq_bind, Option.bind_some]
      split at read
      · cases read
      · next unread => rw [if_neg unread, Option.isSome_some]
  | fire k =>
      simp only [World.step, Option.bind_eq_bind, Option.bind_eq_some_iff] at taken
      obtain ⟨timer, found, maxAttempts, read, -⟩ := taken
      have here : wires.timers[k]? = some timer := found
      simp only [step, rawAction, here, read, Option.bind_eq_bind, Option.bind_some, Option.isSome_some]
  | send peer packet => rfl
  | enableUdpReliability peer channel enabled => rfl
  | configureUdpRetransmission peer interval maxAttempts => rfl

end Steps

section Reached

variable {channel : BitVec 16} {world : World} {admits : World → Action → Prop}

theorem reaches_packets
    (reach : (system order link).Reaches
      (fun wires raw => wires.Room raw ∧ admits (wires.packets order) (wires.action raw)) (initial channel) wires) :
    (network link).Reaches admits (.initial channel) (wires.packets order) ∧ wires.Sound order := by
  induction reach with
  | start => exact ⟨.start, sound_initial channel⟩
  | next _ allowed taken ih =>
      obtain ⟨there, sound⟩ := ih
      obtain ⟨stepped, sound'⟩ := step_packets sound allowed.1 taken
      exact ⟨there.next allowed.2 stepped, sound'⟩

/-- As long as packets fit, the network of bytes does exactly what the network of packets does. -/
theorem reaches_packets_iff :
    (∃ wires, (system order link).Reaches Room (initial channel) wires ∧ wires.packets order = world) ↔
      (network link).Reaches World.Room (.initial channel) world := by
  constructor
  · rintro ⟨wires, reach, rfl⟩
    have roomy (wires : Wires) (raw : RawAction) (room : wires.Room raw) : (wires.packets order).Room (wires.action raw) := by
      cases raw with
      | send peer packet => exact room
      | receive | readBudget | fire | enableUdpReliability | configureUdpRetransmission => trivial
    exact (reaches_packets (reach.of_reached fun wires raw _ room => ⟨room, roomy wires raw room⟩)).1
  · intro reach
    have shown : ∃ wires, (system order link).Reaches Room (initial channel) wires ∧ wires.packets order = world ∧
        wires.Sound order := by
      induction reach with
      | start => exact ⟨initial channel, .start, rfl, sound_initial channel⟩
      | next _ room taken ih =>
          obtain ⟨wires, there, rfl, sound⟩ := ih
          obtain ⟨allowed, wires', stepped, same⟩ := step_bytes sound room taken
          exact ⟨wires', there.next allowed stepped, same, (step_packets sound allowed stepped).2⟩
    obtain ⟨wires, there, same, -⟩ := shown
    exact ⟨wires, there, same⟩

/-- On a reliable channel `receive` returns what was sent under the number of the packet, byte for byte. -/
theorem returned_as_sent
    (reach : (system order link).Reaches
      (fun wires raw => wires.Room raw ∧ (wires.packets order).Traffic channel (wires.action raw)) (initial channel) wires)
    (peer : Peer) :
    ∀ delivery ∈ wires.delivered peer, delivery.2.header.channel = channel →
      delivery.1 = link.endpoint peer.other ∧
        Carries ((wires.sent peer.other).filter (·.header.channel = channel)) delivery.2 := by
  intro delivery member onChannel
  have intact := World.intact_reached (reaches_packets reach).1
  exact intact.returned peer delivery (List.mem_filter.mpr ⟨member, by simpa using onChannel⟩)

end Reached

/-- A packet that is sent once and received. -/
theorem returned_as_sent_once : ∃ wires : Wires, wires.delivered .b =
    [(localLink.endpoint .a, { dataPacket with header := { dataPacket.header with sequence := 1 } })] ∧
      ∀ delivery ∈ wires.delivered .b, delivery.2.header.channel = 0 →
        delivery.1 = localLink.endpoint .a ∧ Carries ((wires.sent .a).filter (·.header.channel = 0)) delivery.2 := by
  have begun : (system .littleEndian localLink).Reaches (fun wires raw => wires.Room raw ∧
      (wires.packets .littleEndian).Traffic 0 (wires.action raw)) (initial 0) (initial 0) := .start
  have sent := begun.andThen (.send .a dataPacket) rfl ⟨by unfold Room NetworkManager.Room; decide, by decide⟩
  have received := sent.andThen (.receive .b none (some 0)) rfl ⟨trivial, trivial⟩
  exact ⟨_, by decide, returned_as_sent received .b⟩

end Wires

end SoulLib.Networking
