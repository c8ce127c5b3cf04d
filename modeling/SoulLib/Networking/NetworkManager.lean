import SoulLib.Networking.Packet

/-! The dual-transport manager and its reliable-UDP bookkeeping.

Every method body that runs under `m_mutex` is one function on the manager's
state. What a method hands to a transport or to the task scheduler is returned
as a list of effects in program order. Hash maps are partial functions: the one
loop over such a map, in `recordAck`, does not depend on its order.
-/

set_option autoImplicit false

namespace SoulLib.Networking

def sequenceGreater (lhs rhs : BitVec 32) : Bool := decide (0 < (lhs - rhs).toInt)

def sequenceLessEqual (lhs rhs : BitVec 32) : Bool := decide ((lhs - rhs).toInt ≤ 0)

/-- `lastSent` is written but never read and is left out. -/
structure PendingPacket where
  endpoint : Endpoint
  packet : Packet
  attempts : BitVec 8 := 0
  deriving DecidableEq, Repr

structure ReliableChannelState where
  nextOutgoingSequence : BitVec 32 := 0
  lastReceivedSequence : BitVec 32 := 0
  receivedMask : BitVec 32 := 0
  hasReceived : Bool := false
  pending : BitVec 32 → Option PendingPacket := fun _ => none
  pendingAck : Bool := false

structure ConnectionReliabilityState where
  channels : BitVec 16 → Option ReliableChannelState := fun _ => none

structure NetworkManager where
  udpReliableChannels : BitVec 16 → Option Bool := fun _ => none
  connections : BitVec 64 → Option ConnectionReliabilityState := fun _ => none
  retransmitInterval : Int := 75
  maxRetransmitAttempts : BitVec 8 := 5

/-- What a method hands over to its transports and scheduler. -/
inductive Effect where
  | tcpSend (endpoint : Endpoint) (packet : Packet)
  | udpSend (endpoint : Endpoint) (packet : Packet)
  | retransmitAfter (endpoint : Endpoint) (channel : BitVec 16) (sequence : BitVec 32)
  deriving DecidableEq, Repr

/-- The channel an effect concerns. -/
def Effect.channel : Effect → BitVec 16
  | .tcpSend _ packet => packet.header.channel
  | .udpSend _ packet => packet.header.channel
  | .retransmitAfter _ channel _ => channel

def makeConnectionKey (endpoint : Endpoint) : BitVec 64 :=
  (endpoint.addressHostOrder.setWidth 64 <<< 16) ||| endpoint.portHostOrder.setWidth 64

/-- The address occupies bits 16 to 47 and the port bits 0 to 15. -/
theorem makeConnectionKey_injective : Function.Injective makeConnectionKey := by
  intro first second same
  have bits : ∀ i, (makeConnectionKey first).getLsbD i = (makeConnectionKey second).getLsbD i :=
    fun i => by rw [same]
  simp only [makeConnectionKey, BitVec.getLsbD_or, BitVec.getLsbD_shiftLeft, BitVec.getLsbD_setWidth] at bits
  have port : first.portHostOrder = second.portHostOrder := by
    apply BitVec.eq_of_getLsbD_eq
    intro i bound
    have here := bits i
    have low : i < 64 := by omega
    simpa [bound, low] using here
  have address : first.addressHostOrder = second.addressHostOrder := by
    apply BitVec.eq_of_getLsbD_eq
    intro i bound
    have here := bits (i + 16)
    have low : i + 16 < 64 := by omega
    have low' : i < 64 := by omega
    have high : first.portHostOrder.getLsbD (i + 16) = false := BitVec.getLsbD_of_ge _ _ (by omega)
    have high' : second.portHostOrder.getLsbD (i + 16) = false := BitVec.getLsbD_of_ge _ _ (by omega)
    simpa [low, low', high, high'] using here
  cases first
  cases second
  have addressEq := congrArg networkToHost address
  have portEq := congrArg ntohs port
  simp only [Endpoint.addressHostOrder, Endpoint.portHostOrder, networkToHost_networkToHost, ntohs_ntohs]
    at addressEq portEq
  rw [addressEq, portEq]

def isSequenceAcked (sequence ack ackMask : BitVec 32) : Bool :=
  if sequence = ack then true
  else if !sequenceLessEqual sequence ack then false
  else
    let diff := ack - sequence
    if diff = 0 then true
    else if 32 < diff then false
    else
      let bit := 1#32 <<< (diff - 1)
      (ackMask &&& bit) != 0

namespace ReliableChannelState

/-- The body of `handle_incoming_sequence` on one channel: the new state and
whether the packet is answered as a duplicate. -/
def handleIncomingSequence (channelState : ReliableChannelState) (sequence : BitVec 32) :
    ReliableChannelState × Bool :=
  if !channelState.hasReceived then
    ({ channelState with
        hasReceived := true
        lastReceivedSequence := sequence
        receivedMask := 0
        pendingAck := true }, false)
  else if sequenceGreater sequence channelState.lastReceivedSequence then
    let diff := sequence - channelState.lastReceivedSequence
    ({ channelState with
        -- The previous head is not entered into the shifted mask.
        receivedMask := if 32 ≤ diff then 0 else channelState.receivedMask <<< diff
        lastReceivedSequence := sequence
        pendingAck := true }, false)
  else
    let diff := channelState.lastReceivedSequence - sequence
    if diff = 0 then (channelState, true)
    else if 32 < diff then (channelState, true)
    else
      let bit := 1#32 <<< (diff - 1)
      if (channelState.receivedMask &&& bit) != 0 then (channelState, true)
      else
        ({ channelState with
            receivedMask := channelState.receivedMask ||| bit
            pendingAck := true }, false)

/-- The loop of `record_ack` over the pending map. -/
def eraseAcked (channelState : ReliableChannelState) (ack ackMask : BitVec 32) : ReliableChannelState :=
  { channelState with
    pending := fun sequence =>
      if isSequenceAcked sequence ack ackMask then none else channelState.pending sequence }

/-- Store or erase one pending entry. -/
def setPending (channelState : ReliableChannelState) (sequence : BitVec 32)
    (entry : Option PendingPacket) : ReliableChannelState :=
  { channelState with pending := Function.update channelState.pending sequence entry }

/-- The header fields every outgoing data packet takes from the channel. -/
def stamp (channelState : ReliableChannelState) (header : PacketHeader) : PacketHeader :=
  { header with
    acknowledgment := channelState.lastReceivedSequence
    acknowledgmentMask := channelState.receivedMask }

/-- The pending entry that `retransmit_after` stores and sends again. -/
def refresh (channelState : ReliableChannelState) (entry : PendingPacket) : PendingPacket :=
  { entry with
    attempts := entry.attempts + 1
    packet := { entry.packet with header := channelState.stamp entry.packet.header } }

end ReliableChannelState

namespace NetworkManager

/-- The `find` lookups: no entry is created. -/
def findChannel (manager : NetworkManager) (key : BitVec 64) (channel : BitVec 16) :
    Option ReliableChannelState :=
  (manager.connections key).bind fun connection => connection.channels channel

/-- The `operator[]` lookups: an absent entry reads as a fresh state. -/
def channelState (manager : NetworkManager) (key : BitVec 64) (channel : BitVec 16) :
    ReliableChannelState :=
  (manager.findChannel key channel).getD {}

def setChannel (manager : NetworkManager) (key : BitVec 64) (channel : BitVec 16)
    (state : ReliableChannelState) : NetworkManager :=
  let connection := (manager.connections key).getD {}
  { manager with
    connections := Function.update manager.connections key
      (some { connection with channels := Function.update connection.channels channel (some state) }) }

def enableUdpReliability (manager : NetworkManager) (channel : BitVec 16) (enabled : Bool) :
    NetworkManager :=
  { manager with
    udpReliableChannels := Function.update manager.udpReliableChannels channel (some enabled) }

def configureUdpRetransmission (manager : NetworkManager) (interval : Int) (maxAttempts : BitVec 8) :
    NetworkManager :=
  { manager with
    retransmitInterval := interval
    maxRetransmitAttempts := if maxAttempts < 1 then 1 else maxAttempts }

def isUdpReliable (manager : NetworkManager) (channel : BitVec 16) : Bool :=
  (manager.udpReliableChannels channel).getD false

/-- The critical section of `send_reliable_udp`, with the packet it goes on to send. -/
def sendReliableUdp (manager : NetworkManager) (endpoint : Endpoint) (packet : Packet) :
    NetworkManager × Packet :=
  let key := makeConnectionKey endpoint
  let state := manager.channelState key packet.header.channel
  let sequence := state.nextOutgoingSequence + 1
  let packet := { packet with header := state.stamp { packet.header with sequence := sequence } }
  (manager.setChannel key packet.header.channel
    ({ state with nextOutgoingSequence := sequence }.setPending sequence
      (some { endpoint, packet, attempts := 0 })),
    packet)

def send (manager : NetworkManager) (endpoint : Endpoint) (packet : Packet) :
    NetworkManager × List Effect :=
  if packet.header.guarantee = .reliable ∧ manager.isUdpReliable packet.header.channel then
    let (manager, packet) := manager.sendReliableUdp endpoint packet
    (manager, [.udpSend endpoint packet,
      .retransmitAfter endpoint packet.header.channel packet.header.sequence])
  else
    match packet.header.guarantee with
    | .reliable => (manager, [.tcpSend endpoint packet])
    | .unreliable => (manager, [.udpSend endpoint packet])

def recordAck (manager : NetworkManager) (endpoint : Endpoint) (header : PacketHeader) :
    NetworkManager :=
  let key := makeConnectionKey endpoint
  match manager.findChannel key header.channel with
  | none => manager
  | some state =>
      manager.setChannel key header.channel
        (state.eraseAcked header.acknowledgment header.acknowledgmentMask)

def handleIncomingSequence (manager : NetworkManager) (endpoint : Endpoint) (header : PacketHeader) :
    NetworkManager × Bool :=
  let key := makeConnectionKey endpoint
  let (state, duplicate) :=
    (manager.channelState key header.channel).handleIncomingSequence header.sequence
  (manager.setChannel key header.channel state, duplicate)

/-- The datagram built by `maybe_send_ack`. -/
def ackPacket (state : ReliableChannelState) (channel : BitVec 16) : Packet where
  header :=
    { channel := channel
      guarantee := .unreliable
      flags := .ack
      sequence := 0
      acknowledgment := state.lastReceivedSequence
      acknowledgmentMask := state.receivedMask }
  payload := []

def maybeSendAck (manager : NetworkManager) (endpoint : Endpoint) (channel : BitVec 16) :
    NetworkManager × List Effect :=
  let key := makeConnectionKey endpoint
  match manager.findChannel key channel with
  | none => (manager, [])
  | some state =>
      if !state.pendingAck then (manager, [])
      else
        (manager.setChannel key channel { state with pendingAck := false },
          [.udpSend endpoint (ackPacket state channel)])

/-- `receive` from its test of the flag on, given what the transports have answered.
The call is suspended until then. UDP is polled only when TCP has nothing. -/
def receive (manager : NetworkManager) (tcp udp : Option (Endpoint × Packet)) :
    NetworkManager × List Effect × Option (Endpoint × Packet) :=
  match tcp, udp with
  | some reliable, _ => (manager, [], some reliable)
  | none, none => (manager, [], none)
  | none, some (endpoint, packet) =>
      if manager.isUdpReliable packet.header.channel then
        let manager := manager.recordAck endpoint packet.header
        if packet.ackOnly then (manager, [], none)
        else
          let (manager, duplicate) := manager.handleIncomingSequence endpoint packet.header
          let (manager, effects) := manager.maybeSendAck endpoint packet.header.channel
          (manager, effects, if duplicate then none else some (endpoint, packet))
      else (manager, [], some (endpoint, packet))

/-- The first critical section of `retransmit_after`: the budget is read before
the sleep and kept across it. -/
def retransmitBudget (manager : NetworkManager) : Int × BitVec 8 :=
  (manager.retransmitInterval, manager.maxRetransmitAttempts)

/-- `retransmit_after` once its sleep is over. -/
def retransmitAfter (manager : NetworkManager) (endpoint : Endpoint) (channel : BitVec 16)
    (sequence : BitVec 32) (maxAttempts : BitVec 8) : NetworkManager × List Effect :=
  let key := makeConnectionKey endpoint
  match manager.findChannel key channel with
  | none => (manager, [])
  | some state =>
      match state.pending sequence with
      | none => (manager, [])
      | some entry =>
          if maxAttempts.toNat ≤ entry.attempts.toNat + 1 then
            (manager.setChannel key channel (state.setPending sequence none), [])
          else
            let entry := state.refresh entry
            (manager.setChannel key channel (state.setPending sequence (some entry)),
              [.udpSend entry.endpoint entry.packet, .retransmitAfter endpoint channel sequence])

end NetworkManager

end SoulLib.Networking
