import SoulLib.Networking.Channels
import SoulLib.Semantics.Runs

/-! Two managers exchanging datagrams.

The UDP network keeps every datagram that was ever sent and hands any of them to
its destination at any time, so datagrams may be lost, duplicated, delayed and
reordered. A retransmission timer reads its budget in one step and fires in a
later one. `sent`, `arrived` and `delivered` only record what the application
and the network did.
-/

set_option autoImplicit false

namespace SoulLib.Networking

open SoulLib.Semantics (System)

inductive Peer where
  | a
  | b
  deriving DecidableEq, Repr

def Peer.other : Peer → Peer
  | .a => .b
  | .b => .a

@[simp] theorem Peer.other_other (peer : Peer) : peer.other.other = peer := by cases peer <;> rfl

/-- The addresses of the two peers. -/
structure Link where
  endpoint : Peer → Endpoint
  distinct : endpoint .a ≠ endpoint .b

theorem Link.endpoint_inj (link : Link) {p q : Peer} (same : link.endpoint p = link.endpoint q) : p = q := by
  cases p <;> cases q
  · rfl
  · exact absurd same link.distinct
  · exact absurd same.symm link.distinct
  · rfl

structure Datagram where
  destination : Endpoint
  source : Endpoint
  packet : Packet
  deriving DecidableEq, Repr

/-- An outstanding `retransmit_after`; the budget is `none` until it is read. -/
structure Timer where
  owner : Peer
  endpoint : Endpoint
  channel : BitVec 16
  sequence : BitVec 32
  budget : Option (BitVec 8) := none
  deriving DecidableEq, Repr

structure World where
  manager : Peer → NetworkManager
  udp : List Datagram := []
  tcp : List Datagram := []
  timers : List Timer := []
  sent : Peer → List Packet := fun _ => []
  arrived : Peer → List Packet := fun _ => []
  delivered : Peer → List (Endpoint × Packet) := fun _ => []

inductive Action where
  | send (peer : Peer) (packet : Packet)
  | receive (peer : Peer) (tcp udp : Option Nat)
  | readBudget (timer : Nat)
  | fire (timer : Nat)
  | enableUdpReliability (peer : Peer) (channel : BitVec 16) (enabled : Bool)
  | configureUdpRetransmission (peer : Peer) (interval : Int) (maxAttempts : BitVec 8)

namespace Effect

/-- The datagram a UDP send puts on the network. -/
def datagram (source : Endpoint) : Effect → Option Datagram
  | .udpSend destination packet => some ⟨destination, source, packet⟩
  | .tcpSend .. | .retransmitAfter .. => none

def segment (source : Endpoint) : Effect → Option Datagram
  | .tcpSend destination packet => some ⟨destination, source, packet⟩
  | .udpSend .. | .retransmitAfter .. => none

def timer (owner : Peer) : Effect → Option Timer
  | .retransmitAfter endpoint channel sequence => some { owner, endpoint, channel, sequence }
  | .udpSend .. | .tcpSend .. => none

end Effect

namespace World

/-- The world after `peer` replaced its manager and performed the effects. -/
def act (link : Link) (world : World) (peer : Peer) (manager : NetworkManager) (effects : List Effect) :
    World :=
  { world with
    manager := Function.update world.manager peer manager
    udp := world.udp ++ effects.filterMap (Effect.datagram (link.endpoint peer))
    tcp := world.tcp ++ effects.filterMap (Effect.segment (link.endpoint peer))
    timers := world.timers ++ effects.filterMap (Effect.timer peer) }

/-- What a transport answers when the network offers the chosen datagram, or
nothing. A datagram for another endpoint cannot be offered; none leaves the
network, so one that was polled earlier can be offered at the test of the flag. -/
def poll (datagrams : List Datagram) (endpoint : Endpoint) :
    Option Nat → Option (Option (Endpoint × Packet))
  | none => some none
  | some k =>
      match datagrams[k]? with
      | some datagram =>
          if datagram.destination = endpoint then some (some (datagram.source, datagram.packet)) else none
      | none => none

def step (link : Link) (world : World) : Action → Option World
  | .send peer packet =>
      let (manager, effects) := (world.manager peer).send (link.endpoint peer.other) packet
      some { world.act link peer manager effects with
        sent := Function.update world.sent peer (world.sent peer ++ [packet]) }
  | .receive peer tcpChoice udpChoice => do
      let tcp ← poll world.tcp (link.endpoint peer) tcpChoice
      let udp ← poll world.udp (link.endpoint peer) udpChoice
      let (manager, effects, result) := (world.manager peer).receive tcp udp
      let polled := if tcp.isNone then udp.toList.map Prod.snd else []
      some { world.act link peer manager effects with
        arrived := Function.update world.arrived peer (world.arrived peer ++ polled)
        delivered := Function.update world.delivered peer (world.delivered peer ++ result.toList) }
  | .readBudget k => do
      let timer ← world.timers[k]?
      let (_, maxAttempts) := (world.manager timer.owner).retransmitBudget
      if timer.budget.isSome then none
      else some { world with timers := world.timers.set k { timer with budget := some maxAttempts } }
  | .fire k => do
      let timer ← world.timers[k]?
      let maxAttempts ← timer.budget
      let (manager, effects) := (world.manager timer.owner).retransmitAfter timer.endpoint timer.channel
        timer.sequence maxAttempts
      some ({ world with timers := world.timers.eraseIdx k }.act link timer.owner manager effects)
  | .enableUdpReliability peer channel enabled =>
      some (world.act link peer ((world.manager peer).enableUdpReliability channel enabled) [])
  | .configureUdpRetransmission peer interval maxAttempts =>
      some (world.act link peer ((world.manager peer).configureUdpRetransmission interval maxAttempts) [])

end World

def network (link : Link) : System World Action where
  step := World.step link

/-- Fresh managers with reliability enabled on one channel. -/
def World.initial (channel : BitVec 16) : World where
  manager _ := NetworkManager.enableUdpReliability {} channel true

namespace World

section Projections

variable (link : Link) (channel : BitVec 16) (world : World) (peer : Peer)

/-- What `peer` keeps about the other peer on the channel. -/
def window : ReliableChannelState :=
  (world.manager peer).channelState (makeConnectionKey (link.endpoint peer.other)) channel

/-- Datagrams of the channel. -/
def wire : List Datagram := world.udp.filter (·.packet.header.channel = channel)

/-- Packets of the channel that `peer` gave to `send`. -/
def sends : List Packet := (world.sent peer).filter (·.header.channel = channel)

/-- Sequence numbers of the channel's data packets, in the order in which
`receive` got them from the network. -/
def arrivals : List Nat :=
  ((world.arrived peer).filter fun packet => decide (packet.header.channel = channel) && !packet.ackOnly).map
    (·.header.sequence.toNat)

/-- What `receive` returned on the channel. -/
def deliveries : List (Endpoint × Packet) :=
  (world.delivered peer).filter (·.2.header.channel = channel)

end Projections

/-- The traffic of one reliable channel: it carries only reliable packets, fewer
than `2 ^ 31` from each side, and its reliability is never switched off. Other
channels are unrestricted. -/
def Traffic (channel : BitVec 16) (world : World) : Action → Prop
  | .send peer packet => packet.header.channel = channel →
      packet.header.guarantee = .reliable ∧ (world.sends channel peer).length + 1 < 2 ^ 31
  | .enableUdpReliability _ other enabled => other = channel → enabled = true
  | _ => True

instance (channel : BitVec 16) (world : World) : (action : Action) → Decidable (Traffic channel world action)
  | .send peer packet => inferInstanceAs (Decidable (packet.header.channel = channel →
      packet.header.guarantee = .reliable ∧ (world.sends channel peer).length + 1 < 2 ^ 31))
  | .enableUdpReliability _ other enabled =>
      inferInstanceAs (Decidable (other = channel → enabled = true))
  | .receive .. | .readBudget .. | .fire .. | .configureUdpRetransmission .. =>
      inferInstanceAs (Decidable True)

end World

/-- Two sockets of one host. -/
def localLink : Link where
  endpoint
    | .a => ⟨0x0100007f, 0x8813⟩
    | .b => ⟨0x0100007f, 0x8913⟩
  distinct := by decide

end SoulLib.Networking
