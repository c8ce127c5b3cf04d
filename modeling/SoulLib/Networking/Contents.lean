import SoulLib.Networking.Delivery
import SoulLib.Networking.Receipts

/-! What the packets on the network carry.

A packet waits for its acknowledgement in the state of its connection and may be
sent again many times, each time with other acknowledgements in its header. What
does not depend on those stays true of it, wherever it is.
-/

set_option autoImplicit false

namespace SoulLib.Networking

/-- A property that new acknowledgements in the header do not affect. -/
def Restampable (good : Packet → Prop) : Prop :=
  ∀ (packet : Packet) (state : ReliableChannelState), good packet → good { packet with header := state.stamp packet.header }

namespace NetworkManager

/-- The property holds of everything that waits for an acknowledgement. -/
def Keeps (good : Packet → Prop) (manager : NetworkManager) : Prop :=
  ∀ slot entry, manager.pendingAt slot = some entry → good entry.packet

/-- The property holds of the datagrams among the effects. -/
def Hands (good : Packet → Prop) (effects : List Effect) : Prop :=
  ∀ destination packet, .udpSend destination packet ∈ effects → good packet

variable {good : Packet → Prop} {manager : NetworkManager} {packet : Packet}

theorem keeps_send (keeps : manager.Keeps good) (endpoint : Endpoint)
    (numbered : packet.header.guarantee = .reliable → manager.isUdpReliable packet.header.channel = true →
      good (manager.sendReliableUdp endpoint packet).2)
    (plain : packet.header.guarantee = .unreliable → good packet) :
    (manager.send endpoint packet).1.Keeps good ∧ Hands good (manager.send endpoint packet).2 := by
  unfold send
  split
  · next reliable =>
      have fresh := numbered reliable.1 reliable.2
      refine ⟨fun slot entry waiting => ?_, fun destination sent member => ?_⟩
      · rw [pendingAt_sendReliableUdp] at waiting
        split at waiting
        · cases waiting
          exact fresh
        · exact keeps slot entry waiting
      · simp only [List.mem_cons, Effect.udpSend.injEq, reduceCtorEq, List.not_mem_nil, or_false] at member
        rw [member.2]
        exact fresh
  · cases guarantee : packet.header.guarantee with
    | reliable =>
        refine ⟨keeps, fun destination sent member => ?_⟩
        simp only [List.mem_singleton, reduceCtorEq] at member
    | unreliable =>
        refine ⟨keeps, fun destination sent member => ?_⟩
        simp only [List.mem_singleton, Effect.udpSend.injEq] at member
        rw [member.2]
        exact plain guarantee

theorem keeps_receive (keeps : manager.Keeps good) (acknowledgement : ∀ state lane, good (ackPacket state lane))
    (tcp udp : Option (Endpoint × Packet)) :
    (manager.receive tcp udp).1.Keeps good ∧ Hands good (manager.receive tcp udp).2.1 := by
  constructor
  · intro slot entry waiting
    rcases pendingAt_receive manager tcp udp slot with same | ⟨gone, -⟩
    · rw [same] at waiting
      exact keeps slot entry waiting
    · rw [gone] at waiting
      cases waiting
  · intro destination sent member
    unfold receive at member
    split at member
    · cases member
    · cases member
    · split at member
      · split at member
        · cases member
        · simp only [effects_maybeSendAck] at member
          split at member
          · simp only [List.mem_singleton, Effect.udpSend.injEq] at member
            rw [member.2]
            exact acknowledgement _ _
          · cases member
      · cases member

theorem keeps_retransmitAfter (keeps : manager.Keeps good) (restamps : Restampable good) (endpoint : Endpoint)
    (channel : BitVec 16) (sequence : BitVec 32) (maxAttempts : BitVec 8) :
    (manager.retransmitAfter endpoint channel sequence maxAttempts).1.Keeps good ∧
      Hands good (manager.retransmitAfter endpoint channel sequence maxAttempts).2 := by
  rcases retransmitAfter_cases manager endpoint channel sequence maxAttempts with
    ⟨-, same⟩ | ⟨entry, waiting, ⟨-, same⟩ | ⟨-, same⟩⟩
  · rw [same]
    exact ⟨keeps, fun _ _ member => by cases member⟩
  · rw [same]
    refine ⟨fun slot other found => ?_, fun _ _ member => by cases member⟩
    rw [pendingAt_setChannel] at found
    split at found
    · cases found
    · exact keeps slot other found
  · rw [same]
    have refreshed := restamps entry.packet (manager.channelState (makeConnectionKey endpoint) channel)
      (keeps ⟨endpoint, channel, sequence⟩ entry waiting)
    refine ⟨fun slot other found => ?_, fun destination sent member => ?_⟩
    · rw [pendingAt_setChannel] at found
      split at found
      · cases found
        exact refreshed
      · exact keeps slot other found
    · simp only [List.mem_cons, Effect.udpSend.injEq, reduceCtorEq, List.not_mem_nil, or_false] at member
      rw [member.2]
      exact refreshed

end NetworkManager

namespace World

/-- The property of the packets of each peer, wherever they are. -/
structure Keeps (link : Link) (good : Peer → Packet → Prop) (world : World) : Prop where
  pending : ∀ peer, (world.manager peer).Keeps (good peer)
  wire : ∀ datagram ∈ world.udp, ∃ peer, datagram.source = link.endpoint peer ∧ good peer datagram.packet

section Step

variable {link : Link} {good wider : Peer → Packet → Prop} {world world' : World}

theorem keeps_initial (channel : BitVec 16) : (World.initial channel).Keeps link good where
  pending := by
    intro peer slot entry waiting
    cases waiting
  wire := by
    intro datagram member
    cases member

theorem Keeps.mono (keeps : world.Keeps link good) (within : ∀ peer packet, good peer packet → wider peer packet) :
    world.Keeps link wider where
  pending peer slot entry waiting := within peer _ (keeps.pending peer slot entry waiting)
  wire datagram member := by
    obtain ⟨peer, source, here⟩ := keeps.wire datagram member
    exact ⟨peer, source, within peer _ here⟩

theorem Keeps.act (keeps : world.Keeps link good) {peer : Peer} {manager : NetworkManager} {effects : List Effect}
    (kept : manager.Keeps (good peer)) (handed : NetworkManager.Hands (good peer) effects) :
    (world.act link peer manager effects).Keeps link good where
  pending := by
    intro other
    show (Function.update world.manager peer manager other).Keeps (good other)
    by_cases same : other = peer
    · subst same
      rw [Function.update_self]
      exact kept
    · rw [Function.update_of_ne same]
      exact keeps.pending other
  wire := by
    intro datagram member
    rcases List.mem_append.mp member with before | added
    · exact keeps.wire datagram before
    · obtain ⟨effect, among, shown⟩ := List.mem_filterMap.mp added
      cases effect with
      | udpSend destination packet =>
          cases shown
          exact ⟨peer, rfl, handed destination packet among⟩
      | tcpSend destination packet => cases shown
      | retransmitAfter endpoint lane sequence => cases shown

/-- What is asked of the packets that the application gives to `send`. -/
def Gives (link : Link) (good : Peer → Packet → Prop) (world : World) : Action → Prop
  | .send peer packet =>
      (packet.header.guarantee = .reliable → (world.manager peer).isUdpReliable packet.header.channel = true →
          good peer ((world.manager peer).sendReliableUdp (link.endpoint peer.other) packet).2) ∧
        (packet.header.guarantee = .unreliable → good peer packet)
  | _ => True

theorem Keeps.step (keeps : world.Keeps link good) (restamps : ∀ peer, Restampable (good peer))
    (acknowledgement : ∀ peer state lane, good peer (NetworkManager.ackPacket state lane)) {action : Action}
    (gives : world.Gives link good action) (taken : (network link).step world action = some world') :
    world'.Keeps link good := by
  -- the settings neither send nor touch what is pending
  have unchanged {manager : NetworkManager} {peer : Peer}
      (same : ∀ slot, manager.pendingAt slot = (world.manager peer).pendingAt slot) :
      (world.act link peer manager []).Keeps link good := by
    refine keeps.act (fun slot entry waiting => ?_) fun _ _ member => by cases member
    rw [same] at waiting
    exact keeps.pending peer slot entry waiting
  cases action with
  | send peer packet =>
      cases taken
      obtain ⟨kept, handed⟩ := NetworkManager.keeps_send (keeps.pending peer) _ gives.1 gives.2
      have acted := keeps.act kept handed
      exact ⟨acted.pending, acted.wire⟩
  | receive peer tcpChoice udpChoice =>
      simp only [network, World.step, Option.bind_eq_bind, Option.bind_eq_some_iff, Option.some.injEq] at taken
      obtain ⟨tcp, -, udp, -, rfl⟩ := taken
      obtain ⟨kept, handed⟩ := NetworkManager.keeps_receive (keeps.pending peer) (acknowledgement peer) tcp udp
      have acted := keeps.act kept handed
      exact ⟨acted.pending, acted.wire⟩
  | readBudget k =>
      simp only [network, World.step, Option.bind_eq_bind, Option.bind_eq_some_iff] at taken
      obtain ⟨timer, -, read⟩ := taken
      split at read
      · cases read
      · cases read
        exact ⟨keeps.pending, keeps.wire⟩
  | fire k =>
      simp only [network, World.step, Option.bind_eq_bind, Option.bind_eq_some_iff, Option.some.injEq] at taken
      obtain ⟨timer, -, maxAttempts, -, rfl⟩ := taken
      obtain ⟨kept, handed⟩ := NetworkManager.keeps_retransmitAfter (keeps.pending timer.owner)
        (restamps timer.owner) timer.endpoint timer.channel timer.sequence maxAttempts
      -- a retransmission restamps the entry, which keeps its content
      have before : ({ world with timers := world.timers.eraseIdx k } : World).Keeps link good :=
        ⟨keeps.pending, keeps.wire⟩
      exact before.act kept handed
  | enableUdpReliability peer lane enabled =>
      cases taken
      exact unchanged fun _ => rfl
  | configureUdpRetransmission peer interval maxAttempts =>
      cases taken
      exact unchanged fun _ => rfl

end Step

end World

/-- The packet has the payload, guarantee and flags of the one that was sent under its number. -/
def Carries (sends : List Packet) (packet : Packet) : Prop :=
  0 < packet.header.sequence.toNat ∧ ∃ original, sends[packet.header.sequence.toNat - 1]? = some original ∧
    packet.payload = original.payload ∧ packet.header.guarantee = original.header.guarantee ∧
      packet.header.flags = original.header.flags

theorem Carries.append {sends : List Packet} {packet : Packet} (carries : Carries sends packet) (later : List Packet) :
    Carries (sends ++ later) packet := by
  obtain ⟨positive, original, found, same⟩ := carries
  refine ⟨positive, original, ?_, same⟩
  rw [List.getElem?_append_left (List.getElem?_eq_some_iff.mp found).1]
  exact found

/-- What the application of a peer gives to `send`. -/
def Action.given : Action → Peer → List Packet
  | .send sender packet, peer => if peer = sender then [packet] else []
  | _, _ => []

namespace World

/-- What a data packet of the channel carries that the peer sent. -/
def Genuine (channel : BitVec 16) (world : World) (peer : Peer) (packet : Packet) : Prop :=
  packet.header.channel = channel → packet.ackOnly = false → Carries (world.sends channel peer) packet

/-- Nothing but what was sent on the channel waits, is under way or was returned. -/
structure Intact (link : Link) (channel : BitVec 16) (world : World) : Prop where
  keeps : world.Keeps link (world.Genuine channel)
  returned : ∀ peer, ∀ delivery ∈ world.deliveries channel peer,
    delivery.1 = link.endpoint peer.other ∧ Carries (world.sends channel peer.other) delivery.2

section Step

variable {link : Link} {channel : BitVec 16} {world world' : World} {lane : Lane}

theorem history_step {action : Action} (taken : (network link).step world action = some world') :
    (∀ peer, world'.sent peer = world.sent peer ++ action.given peer) ∧
      ((∀ peer tcp udp, action ≠ .receive peer tcp udp) → world'.delivered = world.delivered) := by
  have nothing (peer : Peer) : world.sent peer = world.sent peer ++ [] := (List.append_nil _).symm
  cases action with
  | send sender packet =>
      cases taken
      refine ⟨fun peer => ?_, fun _ => rfl⟩
      show Function.update world.sent sender (world.sent sender ++ [packet]) peer = world.sent peer ++ Action.given _ peer
      by_cases same : peer = sender
      · subst same
        rw [Function.update_self, Action.given, if_pos rfl]
      · rw [Function.update_of_ne same, Action.given, if_neg same, List.append_nil]
  | receive peer tcpChoice udpChoice =>
      simp only [network, World.step, Option.bind_eq_bind, Option.bind_eq_some_iff, Option.some.injEq] at taken
      obtain ⟨tcp, -, udp, -, rfl⟩ := taken
      exact ⟨nothing, fun never => absurd rfl (never peer tcpChoice udpChoice)⟩
  | readBudget k =>
      simp only [network, World.step, Option.bind_eq_bind, Option.bind_eq_some_iff] at taken
      obtain ⟨timer, -, read⟩ := taken
      split at read
      · cases read
      · cases read
        exact ⟨nothing, fun _ => rfl⟩
  | fire k =>
      simp only [network, World.step, Option.bind_eq_bind, Option.bind_eq_some_iff, Option.some.injEq] at taken
      obtain ⟨timer, -, maxAttempts, -, rfl⟩ := taken
      exact ⟨nothing, fun _ => rfl⟩
  | enableUdpReliability peer lane enabled =>
      cases taken
      exact ⟨nothing, fun _ => rfl⟩
  | configureUdpRetransmission peer interval maxAttempts =>
      cases taken
      exact ⟨nothing, fun _ => rfl⟩

theorem sends_step {action : Action} (taken : (network link).step world action = some world') (peer : Peer) :
    world'.sends channel peer =
      world.sends channel peer ++ (action.given peer).filter (·.header.channel = channel) := by
  rw [World.sends, World.sends, (history_step taken).1, List.filter_append]

theorem Genuine.step {action : Action} (taken : (network link).step world action = some world') {peer : Peer}
    {packet : Packet} (genuine : world.Genuine channel peer packet) : world'.Genuine channel peer packet := by
  intro onChannel data
  rw [sends_step taken]
  exact (genuine onChannel data).append _

theorem restampable_genuine (peer : Peer) : Restampable (world.Genuine channel peer) := fun _ _ genuine => genuine

theorem genuine_ackPacket (peer : Peer) (state : ReliableChannelState) (lane : BitVec 16) :
    world.Genuine channel peer (NetworkManager.ackPacket state lane) := by
  intro _ data
  rw [NetworkManager.ackOnly_ackPacket] at data
  cases data

theorem gives_genuine (shows : Shows link channel world lane) (sound : lane.Sound) {action : Action}
    (allowed : world.Traffic channel action) (taken : (network link).step world action = some world') :
    world.Gives link (world'.Genuine channel) action := by
  cases action with
  | send peer packet =>
      constructor
      · intro _ _ onChannel _
        have channelOf : packet.header.channel = channel := onChannel
        obtain ⟨-, bound⟩ := allowed channelOf
        have counted : ((world.manager peer).channelState (makeConnectionKey (link.endpoint peer.other))
            packet.header.channel).nextOutgoingSequence.toNat = (world.sends channel peer).length := by
          rw [channelOf, shows.sends, ← sound.counted, ← shows.window]
          rfl
        have number : ((world.manager peer).sendReliableUdp (link.endpoint peer.other) packet).2.header.sequence.toNat =
            (world.sends channel peer).length + 1 := by
          have one : (1#32).toNat = 1 := rfl
          show (_ + 1#32).toNat = _
          rw [BitVec.toNat_add, counted, one]
          exact Nat.mod_eq_of_lt (by omega)
        have grown : world'.sends channel peer = world.sends channel peer ++ [packet] := by
          rw [sends_step taken, Action.given, if_pos rfl]
          congr 1
          exact List.filter_eq_self.mpr fun other member => by
            rw [List.mem_singleton.mp member]
            simpa using channelOf
        refine ⟨by omega, packet, ?_, rfl, rfl, rfl⟩
        rw [number, grown, Nat.add_sub_cancel, List.getElem?_concat_length]
      · intro unreliable onChannel
        rw [(allowed onChannel).1] at unreliable
        cases unreliable
  | receive peer tcp udp => trivial
  | readBudget k => trivial
  | fire k => trivial
  | enableUdpReliability peer lane enabled => trivial
  | configureUdpRetransmission peer interval maxAttempts => trivial

theorem deliveries_step (shows : Shows link channel world lane) {action : Action}
    (taken : (network link).step world action = some world') (peer : Peer) :
    ∀ delivery ∈ world'.deliveries channel peer, delivery ∈ world.deliveries channel peer ∨
      (delivery.2.header.channel = channel ∧ delivery.2.ackOnly = false ∧
        ⟨link.endpoint peer, delivery.1, delivery.2⟩ ∈ world.udp) := by
  intro delivery member
  cases action with
  | receive receiver tcpChoice udpChoice =>
      simp only [network, World.step, Option.bind_eq_bind, Option.bind_eq_some_iff, Option.some.injEq] at taken
      obtain ⟨tcp, tcpPolled, udp, udpPolled, rfl⟩ := taken
      obtain ⟨within, onChannel⟩ := List.mem_filter.mp member
      have lane : delivery.2.header.channel = channel := by simpa using onChannel
      by_cases same : peer = receiver
      · subst same
        simp only [Function.update_self] at within
        rcases List.mem_append.mp within with before | added
        · exact .inl (List.mem_filter.mpr ⟨before, onChannel⟩)
        · right
          have result : ((world.manager peer).receive tcp udp).2.2 = some delivery := Option.mem_toList.mp added
          obtain ⟨source, packet⟩ := delivery
          have reliable := shows.reliable peer
          unfold NetworkManager.receive at result
          split at result
          · cases result
            -- Nothing of the channel comes over TCP.
            exact absurd lane (shows.tcp _ (poll_some tcpPolled))
          · cases result
          · next offered =>
              split at result
              · split at result
                · cases result
                · next data =>
                    simp only at result
                    split at result
                    · cases result
                    · cases result
                      exact ⟨lane, by simpa using data, poll_some udpPolled⟩
              · next unreliable =>
                  cases result
                  rw [show packet.header.channel = channel from lane, reliable] at unreliable
                  exact absurd rfl unreliable
      · simp only [Function.update_of_ne same] at within
        exact .inl (List.mem_filter.mpr ⟨within, onChannel⟩)
  | send | readBudget | fire | enableUdpReliability | configureUdpRetransmission =>
      have same : world'.delivered = world.delivered := (history_step taken).2 fun peer tcp udp equal => by cases equal
      rw [World.deliveries, same] at member
      exact .inl member

theorem Intact.step (intact : world.Intact link channel) (shows : Shows link channel world lane) (sound : lane.Sound)
    {action : Action} (allowed : world.Traffic channel action)
    (taken : (network link).step world action = some world') : world'.Intact link channel where
  keeps := by
    have before : world.Keeps link (world'.Genuine channel) := intact.keeps.mono fun _ _ genuine => genuine.step taken
    exact before.step restampable_genuine genuine_ackPacket (gives_genuine shows sound allowed taken) taken
  returned := by
    intro peer delivery member
    rw [sends_step taken]
    rcases deliveries_step shows taken peer delivery member with before | ⟨onChannel, data, offered⟩
    · obtain ⟨source, carries⟩ := intact.returned peer delivery before
      exact ⟨source, carries.append _⟩
    · obtain ⟨source, -⟩ := shows.offered onChannel offered
      obtain ⟨sender, sentFrom, genuine⟩ := intact.keeps.wire _ offered
      have same : sender = peer.other := link.endpoint_inj (sentFrom.symm.trans source)
      subst same
      exact ⟨source, (genuine onChannel data).append _⟩

theorem intact_reached (reach : (network link).Reaches (World.Traffic channel) (.initial channel) world) :
    world.Intact link channel := by
  induction reach with
  | start => exact ⟨keeps_initial channel, fun peer delivery member => by cases member⟩
  | next before allowed taken ih =>
      obtain ⟨lane, shows, sound⟩ := sound_reached before
      exact ih.step shows sound allowed taken

end Step

end World

end SoulLib.Networking
