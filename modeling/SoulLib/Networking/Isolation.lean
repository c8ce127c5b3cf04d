import SoulLib.Networking.Channels
import SoulLib.Semantics.Unwinding

/-! Connections and channels do not see each other.

The operations are the critical sections of the manager, in any order, and the
methods that are made of them. All but the two that configure the manager are
about one endpoint and channel.
-/

set_option autoImplicit false

namespace SoulLib.Networking

open SoulLib.Semantics (Unwinding final)

namespace NetworkManager

inductive Operation where
  | send (endpoint : Endpoint) (packet : Packet)
  | receive (tcp udp : Option (Endpoint × Packet))
  | isUdpReliable (endpoint : Endpoint) (channel : BitVec 16)
  | sendReliableUdp (endpoint : Endpoint) (packet : Packet)
  | recordAck (endpoint : Endpoint) (header : PacketHeader)
  | handleIncomingSequence (endpoint : Endpoint) (header : PacketHeader)
  | maybeSendAck (endpoint : Endpoint) (channel : BitVec 16)
  | retransmitBudget (endpoint : Endpoint) (channel : BitVec 16)
  | retransmitAfter (endpoint : Endpoint) (channel : BitVec 16) (sequence : BitVec 32) (maxAttempts : BitVec 8)
  | enableUdpReliability (channel : BitVec 16) (enabled : Bool)
  | configureUdpRetransmission (interval : Int) (maxAttempts : BitVec 8)
  deriving DecidableEq, Repr

/-- What an operation returns to its caller or hands over. -/
inductive Answer where
  | nothing
  | reliable (enabled : Bool)
  | numbered (packet : Packet)
  | duplicate (duplicate : Bool)
  | effects (effects : List Effect)
  | received (effects : List Effect) (result : Option (Endpoint × Packet))
  | budget (interval : Int) (maxAttempts : BitVec 8)
  deriving DecidableEq, Repr

def execute (manager : NetworkManager) : Operation → NetworkManager × Answer
  | .send endpoint packet => ((manager.send endpoint packet).1, .effects (manager.send endpoint packet).2)
  | .receive tcp udp =>
      ((manager.receive tcp udp).1, .received (manager.receive tcp udp).2.1 (manager.receive tcp udp).2.2)
  | .isUdpReliable _ channel => (manager, .reliable (manager.isUdpReliable channel))
  | .sendReliableUdp endpoint packet =>
      ((manager.sendReliableUdp endpoint packet).1, .numbered (manager.sendReliableUdp endpoint packet).2)
  | .recordAck endpoint header => (manager.recordAck endpoint header, .nothing)
  | .handleIncomingSequence endpoint header =>
      ((manager.handleIncomingSequence endpoint header).1, .duplicate (manager.handleIncomingSequence endpoint header).2)
  | .maybeSendAck endpoint channel =>
      ((manager.maybeSendAck endpoint channel).1, .effects (manager.maybeSendAck endpoint channel).2)
  | .retransmitBudget _ _ => (manager, .budget manager.retransmitBudget.1 manager.retransmitBudget.2)
  | .retransmitAfter endpoint channel sequence maxAttempts =>
      ((manager.retransmitAfter endpoint channel sequence maxAttempts).1,
        .effects (manager.retransmitAfter endpoint channel sequence maxAttempts).2)
  | .enableUdpReliability channel enabled => (manager.enableUdpReliability channel enabled, .nothing)
  | .configureUdpRetransmission interval maxAttempts =>
      (manager.configureUdpRetransmission interval maxAttempts, .nothing)

/-- The endpoint and channel that an operation is about. -/
def Operation.address : Operation → Option (Endpoint × BitVec 16)
  | .send endpoint packet | .sendReliableUdp endpoint packet => some (endpoint, packet.header.channel)
  | .receive (some (endpoint, packet)) _ | .receive none (some (endpoint, packet)) =>
      some (endpoint, packet.header.channel)
  | .recordAck endpoint header | .handleIncomingSequence endpoint header => some (endpoint, header.channel)
  | .isUdpReliable endpoint channel | .maybeSendAck endpoint channel | .retransmitBudget endpoint channel
  | .retransmitAfter endpoint channel _ _ => some (endpoint, channel)
  | .receive none none | .enableUdpReliability .. | .configureUdpRetransmission .. => none

/-- What configures the manager concerns every connection and channel. -/
def Operation.concerns (endpoint : Endpoint) (channel : BitVec 16) (operation : Operation) : Bool :=
  operation.address.all fun address => address = (endpoint, channel)

/-- One channel of one connection, and what is common to all. -/
structure View where
  channelState : Option ReliableChannelState
  udpReliableChannels : BitVec 16 → Option Bool
  retransmitInterval : Int
  maxRetransmitAttempts : BitVec 8

def view (endpoint : Endpoint) (channel : BitVec 16) (manager : NetworkManager) : View where
  channelState := manager.findChannel (makeConnectionKey endpoint) channel
  udpReliableChannels := manager.udpReliableChannels
  retransmitInterval := manager.retransmitInterval
  maxRetransmitAttempts := manager.maxRetransmitAttempts

theorem findChannel_setChannel (manager : NetworkManager) (key other : BitVec 64) (channel lane : BitVec 16)
    (state : ReliableChannelState) : (manager.setChannel key channel state).findChannel other lane =
      if other = key ∧ lane = channel then some state else manager.findChannel other lane := by
  unfold findChannel setChannel
  by_cases sameKey : other = key
  · subst sameKey
    by_cases sameLane : lane = channel
    · simp [sameLane]
    · cases found : manager.connections other <;> simp [sameLane]
  · simp [sameKey]

section Confined

/-- Only one channel of one connection may have changed. -/
structure Confined (endpoint : Endpoint) (channel : BitVec 16) (manager manager' : NetworkManager) : Prop where
  channels : ∀ other lane, other ≠ endpoint ∨ lane ≠ channel →
    manager'.findChannel (makeConnectionKey other) lane = manager.findChannel (makeConnectionKey other) lane
  reliable : manager'.udpReliableChannels = manager.udpReliableChannels
  interval : manager'.retransmitInterval = manager.retransmitInterval
  attempts : manager'.maxRetransmitAttempts = manager.maxRetransmitAttempts

namespace Confined

variable {endpoint : Endpoint} {channel : BitVec 16} {manager manager' manager'' : NetworkManager}

theorem refl : Confined endpoint channel manager manager := ⟨fun _ _ _ => rfl, rfl, rfl, rfl⟩

theorem trans (first : Confined endpoint channel manager manager') (second : Confined endpoint channel manager' manager'') :
    Confined endpoint channel manager manager'' where
  channels := fun other lane apart => (second.channels other lane apart).trans (first.channels other lane apart)
  reliable := second.reliable.trans first.reliable
  interval := second.interval.trans first.interval
  attempts := second.attempts.trans first.attempts

theorem setChannel (state : ReliableChannelState) :
    Confined endpoint channel manager (manager.setChannel (makeConnectionKey endpoint) channel state) where
  channels := by
    intro other lane apart
    rw [findChannel_setChannel, if_neg]
    rintro ⟨sameKey, sameLane⟩
    exact apart.elim (fun ne => ne (makeConnectionKey_injective sameKey)) fun ne => ne sameLane
  reliable := rfl
  interval := rfl
  attempts := rfl

theorem sendReliableUdp (packet : Packet) :
    Confined endpoint packet.header.channel manager (manager.sendReliableUdp endpoint packet).1 := setChannel _

theorem send (packet : Packet) : Confined endpoint packet.header.channel manager (manager.send endpoint packet).1 := by
  unfold NetworkManager.send
  split
  · exact sendReliableUdp packet
  · split <;> exact refl

theorem recordAck (header : PacketHeader) :
    Confined endpoint header.channel manager (manager.recordAck endpoint header) := by
  simp only [NetworkManager.recordAck]
  split
  · exact refl
  · exact setChannel _

theorem handleIncomingSequence (header : PacketHeader) :
    Confined endpoint header.channel manager (manager.handleIncomingSequence endpoint header).1 := setChannel _

theorem maybeSendAck : Confined endpoint channel manager (manager.maybeSendAck endpoint channel).1 := by
  simp only [NetworkManager.maybeSendAck]
  split
  · exact refl
  · split
    · exact refl
    · exact setChannel _

theorem receive (packet : Packet) :
    Confined endpoint packet.header.channel manager (manager.receive none (some (endpoint, packet))).1 := by
  simp only [NetworkManager.receive]
  split
  · split
    · exact recordAck packet.header
    · exact ((recordAck packet.header).trans (handleIncomingSequence packet.header)).trans maybeSendAck
  · exact refl

theorem retransmitAfter (sequence : BitVec 32) (maxAttempts : BitVec 8) :
    Confined endpoint channel manager (manager.retransmitAfter endpoint channel sequence maxAttempts).1 := by
  rcases retransmitAfter_cases manager endpoint channel sequence maxAttempts with
    ⟨-, same⟩ | ⟨entry, -, ⟨-, same⟩ | ⟨-, same⟩⟩
  · rw [same]
    exact refl
  · rw [same]
    exact setChannel _
  · rw [same]
    exact setChannel _

theorem execute {operation : Operation} (about : operation.address = some (endpoint, channel)) :
    Confined endpoint channel manager (manager.execute operation).1 := by
  cases operation with
  | send destination packet =>
      cases about
      exact send packet
  | receive tcp udp =>
      rcases tcp with _ | ⟨source, packet⟩
      · rcases udp with _ | ⟨source, packet⟩
        · cases about
        · cases about
          exact receive packet
      · exact refl
  | isUdpReliable destination lane => exact refl
  | sendReliableUdp destination packet =>
      cases about
      exact sendReliableUdp packet
  | recordAck source header =>
      cases about
      exact recordAck header
  | handleIncomingSequence source header =>
      cases about
      exact handleIncomingSequence header
  | maybeSendAck source lane =>
      cases about
      exact maybeSendAck
  | retransmitBudget destination lane => exact refl
  | retransmitAfter destination lane sequence maxAttempts =>
      cases about
      exact retransmitAfter sequence maxAttempts
  | enableUdpReliability lane enabled => cases about
  | configureUdpRetransmission interval maxAttempts => cases about

end Confined

end Confined

section Alike

variable {endpoint : Endpoint} {channel : BitVec 16} {manager other : NetworkManager}

theorem view_setChannel (same : view endpoint channel manager = view endpoint channel other) (state : ReliableChannelState) :
    view endpoint channel (manager.setChannel (makeConnectionKey endpoint) channel state) =
      view endpoint channel (other.setChannel (makeConnectionKey endpoint) channel state) := by
  simp only [view, View.mk.injEq, findChannel_setChannel, and_self, if_true, true_and] at same ⊢
  exact same.2

theorem findChannel_of_view (same : view endpoint channel manager = view endpoint channel other) :
    manager.findChannel (makeConnectionKey endpoint) channel = other.findChannel (makeConnectionKey endpoint) channel :=
  congrArg View.channelState same

theorem channelState_of_view (same : view endpoint channel manager = view endpoint channel other) :
    manager.channelState (makeConnectionKey endpoint) channel = other.channelState (makeConnectionKey endpoint) channel := by
  rw [channelState, channelState, findChannel_of_view same]

theorem isUdpReliable_of_view (same : view endpoint channel manager = view endpoint channel other) (lane : BitVec 16) :
    manager.isUdpReliable lane = other.isUdpReliable lane := by
  have reliable := congrFun (congrArg View.udpReliableChannels same) lane
  exact congrArg (fun flag => flag.getD false) reliable

variable {packet : Packet} {header : PacketHeader}

theorem alike_sendReliableUdp
    (same : view endpoint packet.header.channel manager = view endpoint packet.header.channel other) :
    (manager.sendReliableUdp endpoint packet).2 = (other.sendReliableUdp endpoint packet).2 ∧
      view endpoint packet.header.channel (manager.sendReliableUdp endpoint packet).1 =
        view endpoint packet.header.channel (other.sendReliableUdp endpoint packet).1 := by
  simp only [sendReliableUdp, channelState_of_view same]
  exact ⟨trivial, view_setChannel same _⟩

theorem alike_send (same : view endpoint packet.header.channel manager = view endpoint packet.header.channel other) :
    (manager.send endpoint packet).2 = (other.send endpoint packet).2 ∧
      view endpoint packet.header.channel (manager.send endpoint packet).1 =
        view endpoint packet.header.channel (other.send endpoint packet).1 := by
  obtain ⟨numbered, alike⟩ := alike_sendReliableUdp same
  simp only [send, isUdpReliable_of_view same, numbered]
  split
  · exact ⟨rfl, alike⟩
  · split
    · exact ⟨rfl, same⟩
    · exact ⟨rfl, same⟩

theorem alike_recordAck (same : view endpoint header.channel manager = view endpoint header.channel other) :
    view endpoint header.channel (manager.recordAck endpoint header) =
      view endpoint header.channel (other.recordAck endpoint header) := by
  simp only [recordAck, findChannel_of_view same]
  split
  · exact same
  · exact view_setChannel same _

theorem alike_handleIncomingSequence
    (same : view endpoint header.channel manager = view endpoint header.channel other) :
    (manager.handleIncomingSequence endpoint header).2 = (other.handleIncomingSequence endpoint header).2 ∧
      view endpoint header.channel (manager.handleIncomingSequence endpoint header).1 =
        view endpoint header.channel (other.handleIncomingSequence endpoint header).1 := by
  simp only [handleIncomingSequence, channelState_of_view same]
  exact ⟨trivial, view_setChannel same _⟩

theorem alike_maybeSendAck (same : view endpoint channel manager = view endpoint channel other) :
    (manager.maybeSendAck endpoint channel).2 = (other.maybeSendAck endpoint channel).2 ∧
      view endpoint channel (manager.maybeSendAck endpoint channel).1 =
        view endpoint channel (other.maybeSendAck endpoint channel).1 := by
  simp only [maybeSendAck, findChannel_of_view same]
  split
  · exact ⟨rfl, same⟩
  · split
    · exact ⟨rfl, same⟩
    · exact ⟨rfl, view_setChannel same _⟩

theorem alike_receive (same : view endpoint packet.header.channel manager = view endpoint packet.header.channel other) :
    (manager.receive none (some (endpoint, packet))).2 = (other.receive none (some (endpoint, packet))).2 ∧
      view endpoint packet.header.channel (manager.receive none (some (endpoint, packet))).1 =
        view endpoint packet.header.channel (other.receive none (some (endpoint, packet))).1 := by
  have acked := alike_recordAck same
  obtain ⟨decided, handled⟩ := alike_handleIncomingSequence acked
  obtain ⟨answered, sent⟩ := alike_maybeSendAck handled
  simp only [receive, isUdpReliable_of_view same, decided, answered]
  split
  · split
    · exact ⟨rfl, acked⟩
    · exact ⟨rfl, sent⟩
  · exact ⟨rfl, same⟩

theorem alike_retransmitAfter (same : view endpoint channel manager = view endpoint channel other) (sequence : BitVec 32)
    (maxAttempts : BitVec 8) :
    (manager.retransmitAfter endpoint channel sequence maxAttempts).2 =
        (other.retransmitAfter endpoint channel sequence maxAttempts).2 ∧
      view endpoint channel (manager.retransmitAfter endpoint channel sequence maxAttempts).1 =
        view endpoint channel (other.retransmitAfter endpoint channel sequence maxAttempts).1 := by
  simp only [retransmitAfter, findChannel_of_view same]
  split
  · exact ⟨rfl, same⟩
  · split
    · exact ⟨rfl, same⟩
    · split
      · exact ⟨rfl, view_setChannel same _⟩
      · exact ⟨rfl, view_setChannel same _⟩

theorem alike_execute {operation : Operation} (about : operation.address = some (endpoint, channel))
    (same : view endpoint channel manager = view endpoint channel other) :
    (manager.execute operation).2 = (other.execute operation).2 ∧
      view endpoint channel (manager.execute operation).1 = view endpoint channel (other.execute operation).1 := by
  -- each operation reads and writes only what the view of its address shows
  cases operation with
  | send destination packet =>
      cases about
      obtain ⟨effects, alike⟩ := alike_send same
      exact ⟨congrArg Answer.effects effects, alike⟩
  | receive tcp udp =>
      rcases tcp with _ | ⟨source, packet⟩
      · rcases udp with _ | ⟨source, packet⟩
        · cases about
        · cases about
          obtain ⟨received, alike⟩ := alike_receive same
          exact ⟨congrArg (fun result : List Effect × Option (Endpoint × Packet) => Answer.received result.1 result.2) received,
            alike⟩
      · exact ⟨rfl, same⟩
  | isUdpReliable destination lane => exact ⟨congrArg Answer.reliable (isUdpReliable_of_view same lane), same⟩
  | sendReliableUdp destination packet =>
      cases about
      obtain ⟨numbered, alike⟩ := alike_sendReliableUdp same
      exact ⟨congrArg Answer.numbered numbered, alike⟩
  | recordAck source header =>
      cases about
      exact ⟨rfl, alike_recordAck same⟩
  | handleIncomingSequence source header =>
      cases about
      obtain ⟨decided, alike⟩ := alike_handleIncomingSequence same
      exact ⟨congrArg Answer.duplicate decided, alike⟩
  | maybeSendAck source lane =>
      cases about
      obtain ⟨effects, alike⟩ := alike_maybeSendAck same
      exact ⟨congrArg Answer.effects effects, alike⟩
  | retransmitBudget destination lane =>
      have interval := congrArg View.retransmitInterval same
      have attempts := congrArg View.maxRetransmitAttempts same
      exact ⟨congrArg₂ Answer.budget interval attempts, same⟩
  | retransmitAfter destination lane sequence maxAttempts =>
      cases about
      obtain ⟨effects, alike⟩ := alike_retransmitAfter same sequence maxAttempts
      exact ⟨congrArg Answer.effects effects, alike⟩
  -- the settings belong to no address
  | enableUdpReliability lane enabled => cases about
  | configureUdpRetransmission interval maxAttempts => cases about

theorem alike_configure {operation : Operation} (common : operation.address = none)
    (same : view endpoint channel manager = view endpoint channel other) :
    (manager.execute operation).2 = (other.execute operation).2 ∧
      view endpoint channel (manager.execute operation).1 = view endpoint channel (other.execute operation).1 := by
  cases operation with
  | receive tcp udp =>
      rcases tcp with _ | ⟨source, packet⟩
      · rcases udp with _ | ⟨source, packet⟩
        · exact ⟨rfl, same⟩
        · cases common
      · cases common
  | enableUdpReliability lane enabled =>
      simp only [view, View.mk.injEq] at same
      obtain ⟨found, reliable, interval, attempts⟩ := same
      refine ⟨rfl, ?_⟩
      simp only [execute, enableUdpReliability, view, reliable, interval, attempts]
      exact congrArg (View.mk · _ _ _) found
  | configureUdpRetransmission interval maxAttempts =>
      simp only [view, View.mk.injEq] at same
      obtain ⟨found, reliable, -, -⟩ := same
      refine ⟨rfl, ?_⟩
      simp only [execute, configureUdpRetransmission, view, reliable]
      exact congrArg (View.mk · _ _ _) found
  | send _ _ => cases common
  | isUdpReliable _ _ => cases common
  | sendReliableUdp _ _ => cases common
  | recordAck _ _ => cases common
  | handleIncomingSequence _ _ => cases common
  | maybeSendAck _ _ => cases common
  | retransmitBudget _ _ => cases common
  | retransmitAfter _ _ _ _ => cases common

end Alike

theorem unwinding (endpoint : Endpoint) (channel : BitVec 16) :
    Unwinding execute (Operation.concerns endpoint channel) (view endpoint channel) where
  respects := by
    intro manager operation unconcerned
    rw [Operation.concerns] at unconcerned
    cases about : operation.address with
    | none =>
        rw [about] at unconcerned
        cases unconcerned
    | some address =>
        rw [about, Option.all_some, decide_eq_false_iff_not] at unconcerned
        have confined : Confined address.1 address.2 manager (manager.execute operation).1 := Confined.execute about
        have apart : endpoint ≠ address.1 ∨ channel ≠ address.2 := by
          by_contra same
          rw [not_or, not_not, not_not] at same
          exact unconcerned (Prod.ext same.1.symm same.2.symm)
        simp only [view, confined.channels endpoint channel apart, confined.reliable, confined.interval, confined.attempts]
  consistent := by
    intro manager other operation concerned same
    rw [Operation.concerns] at concerned
    cases about : operation.address with
    | none => exact alike_configure about same
    | some address =>
        rw [about, Option.all_some, decide_eq_true_eq] at concerned
        rw [concerned] at about
        exact alike_execute about same

/-- An operation changes no channel that it is not about, no two addresses and ports share one, and
what is answered about a channel, and what becomes of it, is up to the operations that concern it. -/
theorem connections_isolated :
    (∀ (manager : NetworkManager) (operation : Operation) (endpoint : Endpoint) (channel : BitVec 16),
        operation.address = some (endpoint, channel) → ∀ (other : Endpoint) (lane : BitVec 16),
          other ≠ endpoint ∨ lane ≠ channel → (manager.execute operation).1.findChannel (makeConnectionKey other) lane =
            manager.findChannel (makeConnectionKey other) lane) ∧
      (∀ endpoint other : Endpoint, makeConnectionKey endpoint = makeConnectionKey other ↔
        endpoint.address = other.address ∧ endpoint.port = other.port) ∧
      ∀ (endpoint : Endpoint) (channel : BitVec 16) (manager other : NetworkManager) (operations others : List Operation),
        view endpoint channel manager = view endpoint channel other →
          operations.filter (Operation.concerns endpoint channel) = others.filter (Operation.concerns endpoint channel) →
            Semantics.answers execute (Operation.concerns endpoint channel) manager operations =
                Semantics.answers execute (Operation.concerns endpoint channel) other others ∧
              view endpoint channel (final execute manager operations) =
                view endpoint channel (final execute other others) := by
  refine ⟨?_, ?_, ?_⟩
  · intro manager operation endpoint channel about
    exact (Confined.execute about).channels
  · intro endpoint other
    rw [makeConnectionKey_injective.eq_iff]
    cases endpoint
    cases other
    exact Iff.of_eq (Endpoint.mk.injEq ..)
  · intro endpoint channel manager other operations others same filtered
    exact (unwinding endpoint channel).same_answers same filtered

section Peers

def peer : Endpoint := ⟨0x0100007F#32, 0x901F#16⟩

/-- The same address with another port. -/
def neighbour : Endpoint := ⟨0x0100007F#32, 0x911F#16⟩

def update : Packet := { header := { channel := 1, guarantee := .reliable, sequence := 7 }, payload := [0x2A] }

/-- A neighbour that sends in between makes no difference to the peer. -/
theorem connections_isolated_peers :
    Semantics.answers execute (Operation.concerns peer 1) {}
        [.enableUdpReliability 1 true, .send neighbour update, .send peer update, .receive none (some (neighbour, update)),
          .receive none (some (peer, update)), .retransmitAfter neighbour 1 1 5] =
      Semantics.answers execute (Operation.concerns peer 1) {}
        [.enableUdpReliability 1 true, .send peer update, .receive none (some (peer, update))] ∧
      (execute {} (.sendReliableUdp neighbour update)).1.findChannel (makeConnectionKey peer) 1 = none := by
  obtain ⟨kept, -, runs⟩ := connections_isolated
  constructor
  · refine (runs peer 1 {} {} _ _ rfl ?_).1
    decide
  · rw [kept {} (.sendReliableUdp neighbour update) neighbour 1 rfl peer 1 (.inl (by decide))]
    rfl

end Peers

end NetworkManager

end SoulLib.Networking
