import Mathlib.Data.List.Perm.Basic
import SoulLib.Networking.Channels
import SoulLib.Semantics.Runs

/-! One manager in an arbitrary environment.

Packets of any content may arrive at any time, the UDP transport may complete a
send or fail it, and the calls that outlive their critical section advance in
any order. Packets that were handed over, arrived or were accepted are kept as
history.
-/

set_option autoImplicit false

namespace SoulLib.Networking

open SoulLib.Semantics (System)

/-- What identifies a reliable packet of one manager. -/
structure Slot where
  endpoint : Endpoint
  channel : BitVec 16
  sequence : BitVec 32
  deriving DecidableEq, Repr

/-- The slot a datagram belongs to. -/
def Slot.ofPacket (endpoint : Endpoint) (packet : Packet) : Slot :=
  ⟨endpoint, packet.header.channel, packet.header.sequence⟩

/-- Where a call of `send_reliable_udp` or `retransmit_after` is suspended. -/
inductive Stage where
  /-- Awaiting the transport; `schedule_retransmission` comes next. -/
  | sending (destination : Endpoint) (packet : Packet)
  | scheduled
  | sleeping (maxAttempts : BitVec 8)
  deriving DecidableEq, Repr

def Stage.isSending : Stage → Bool
  | .sending .. => true
  | .scheduled | .sleeping _ => false

structure Call where
  slot : Slot
  stage : Stage
  deriving DecidableEq, Repr

/-- The call that goes on to send a reliable datagram and to schedule its retransmission. -/
def launch : List Effect → List Call
  | [.udpSend destination packet, .retransmitAfter endpoint channel sequence] =>
      [⟨⟨endpoint, channel, sequence⟩, .sending destination packet⟩]
  | _ => []

namespace NetworkManager

def pendingAt (manager : NetworkManager) (slot : Slot) : Option PendingPacket :=
  (manager.channelState (makeConnectionKey slot.endpoint) slot.channel).pending slot.sequence

def nextSequence (manager : NetworkManager) (endpoint : Endpoint) (channel : BitVec 16) : BitVec 32 :=
  (manager.channelState (makeConnectionKey endpoint) channel).nextOutgoingSequence

/-- The slot the next reliable packet will get. -/
def nextSlot (manager : NetworkManager) (endpoint : Endpoint) (channel : BitVec 16) : Slot :=
  ⟨endpoint, channel, manager.nextSequence endpoint channel + 1⟩

section Slots

variable (manager : NetworkManager) (endpoint : Endpoint) (channel : BitVec 16)

theorem pendingAt_setChannel (sequence : BitVec 32) (entry : Option PendingPacket) (slot : Slot) :
    (manager.setChannel (makeConnectionKey endpoint) channel
        ((manager.channelState (makeConnectionKey endpoint) channel).setPending sequence entry)).pendingAt slot =
      if slot = ⟨endpoint, channel, sequence⟩ then entry else manager.pendingAt slot := by
  obtain ⟨destination, lane, number⟩ := slot
  simp only [pendingAt, channelState_setChannel, makeConnectionKey_injective.eq_iff, Slot.mk.injEq]
  by_cases here : destination = endpoint ∧ lane = channel
  · obtain ⟨rfl, rfl⟩ := here
    simp [ReliableChannelState.pending_setPending]
  · have elsewhere : ¬ (destination = endpoint ∧ lane = channel ∧ number = sequence) :=
      fun same => here ⟨same.1, same.2.1⟩
    rw [if_neg here, if_neg elsewhere]

theorem nextSequence_setChannel (sequence : BitVec 32) (entry : Option PendingPacket) (destination : Endpoint)
    (lane : BitVec 16) :
    (manager.setChannel (makeConnectionKey endpoint) channel
        ((manager.channelState (makeConnectionKey endpoint) channel).setPending sequence entry)).nextSequence
      destination lane = manager.nextSequence destination lane := by
  simp only [nextSequence, channelState_setChannel, makeConnectionKey_injective.eq_iff]
  split
  · next here =>
      obtain ⟨rfl, rfl⟩ := here
      rfl
  · rfl

theorem pendingAt_sendReliableUdp (packet : Packet) (slot : Slot) :
    (manager.sendReliableUdp endpoint packet).1.pendingAt slot =
      if slot = manager.nextSlot endpoint packet.header.channel then
        some { endpoint, packet := (manager.sendReliableUdp endpoint packet).2, attempts := 0 }
      else manager.pendingAt slot := by
  obtain ⟨destination, lane, number⟩ := slot
  simp only [pendingAt, channelState_sendReliableUdp, makeConnectionKey_injective.eq_iff, nextSlot, Slot.mk.injEq]
  by_cases here : destination = endpoint ∧ lane = packet.header.channel
  · obtain ⟨rfl, rfl⟩ := here
    simp [ReliableChannelState.pending_setPending, nextSequence]
  · have elsewhere : ¬ (destination = endpoint ∧ lane = packet.header.channel ∧
        number = manager.nextSequence endpoint packet.header.channel + 1) :=
      fun same => here ⟨same.1, same.2.1⟩
    rw [if_neg here, if_neg elsewhere]

theorem nextSequence_sendReliableUdp (packet : Packet) (destination : Endpoint) (lane : BitVec 16) :
    (manager.sendReliableUdp endpoint packet).1.nextSequence destination lane =
      if destination = endpoint ∧ lane = packet.header.channel then manager.nextSequence destination lane + 1
      else manager.nextSequence destination lane := by
  simp only [nextSequence, channelState_sendReliableUdp, makeConnectionKey_injective.eq_iff]
  split <;> rfl

theorem pendingAt_recordAck (header : PacketHeader) (slot : Slot) :
    (manager.recordAck endpoint header).pendingAt slot =
      if endpoint = slot.endpoint ∧ header.channel = slot.channel ∧
          isSequenceAcked slot.sequence header.acknowledgment header.acknowledgmentMask = true then none
      else manager.pendingAt slot := by
  simp only [pendingAt, channelState_recordAck, makeConnectionKey_injective.eq_iff]
  by_cases here : slot.endpoint = endpoint ∧ slot.channel = header.channel
  · simp [here, ReliableChannelState.eraseAcked]
  · have elsewhere : ¬ (endpoint = slot.endpoint ∧ header.channel = slot.channel ∧
        isSequenceAcked slot.sequence header.acknowledgment header.acknowledgmentMask = true) :=
      fun same => here ⟨same.1.symm, same.2.1.symm⟩
    rw [if_neg here, if_neg elsewhere]

@[simp] theorem pendingAt_handleIncomingSequence (header : PacketHeader) (slot : Slot) :
    (manager.handleIncomingSequence endpoint header).1.pendingAt slot = manager.pendingAt slot := by
  simp only [pendingAt, channelState_handleIncomingSequence]
  split
  · rw [(ReliableChannelState.outgoing_handleIncomingSequence _ _).1]
  · rfl

@[simp] theorem pendingAt_maybeSendAck (slot : Slot) :
    (manager.maybeSendAck endpoint channel).1.pendingAt slot = manager.pendingAt slot := by
  simp only [pendingAt, channelState_maybeSendAck]
  split <;> rfl

theorem pendingAt_receive (tcp udp : Option (Endpoint × Packet)) (slot : Slot) :
    (manager.receive tcp udp).1.pendingAt slot = manager.pendingAt slot ∨
      (manager.receive tcp udp).1.pendingAt slot = none ∧ tcp = none ∧
        ∃ packet, udp = some (slot.endpoint, packet) ∧ packet.header.channel = slot.channel ∧
          isSequenceAcked slot.sequence packet.header.acknowledgment packet.header.acknowledgmentMask = true := by
  unfold receive
  split
  · exact .inl rfl
  · exact .inl rfl
  · next source packet =>
      split
      · by_cases acked : source = slot.endpoint ∧ packet.header.channel = slot.channel ∧
          isSequenceAcked slot.sequence packet.header.acknowledgment packet.header.acknowledgmentMask = true
        · obtain ⟨rfl, onChannel, covered⟩ := acked
          right
          refine ⟨?_, rfl, packet, rfl, onChannel, covered⟩
          split <;> simp [pendingAt_recordAck, onChannel, covered]
        · left
          split <;> simp [pendingAt_recordAck, acked]
      · exact .inl rfl

@[simp] theorem nextSequence_recordAck (header : PacketHeader) (destination : Endpoint) (lane : BitVec 16) :
    (manager.recordAck endpoint header).nextSequence destination lane = manager.nextSequence destination lane := by
  simp only [nextSequence, channelState_recordAck]
  split <;> rfl

@[simp] theorem nextSequence_handleIncomingSequence (header : PacketHeader) (destination : Endpoint)
    (lane : BitVec 16) : (manager.handleIncomingSequence endpoint header).1.nextSequence destination lane =
      manager.nextSequence destination lane := by
  simp only [nextSequence, channelState_handleIncomingSequence]
  split
  · rw [(ReliableChannelState.outgoing_handleIncomingSequence _ _).2]
  · rfl

@[simp] theorem nextSequence_maybeSendAck (destination : Endpoint) (lane : BitVec 16) :
    (manager.maybeSendAck endpoint channel).1.nextSequence destination lane =
      manager.nextSequence destination lane := by
  simp only [nextSequence, channelState_maybeSendAck]
  split <;> rfl

theorem nextSequence_receive (tcp udp : Option (Endpoint × Packet)) :
    (manager.receive tcp udp).1.nextSequence endpoint channel = manager.nextSequence endpoint channel := by
  unfold receive
  split
  · rfl
  · rfl
  · split
    · split <;> simp
    · rfl

@[simp] theorem maxRetransmitAttempts_recordAck (header : PacketHeader) :
    (manager.recordAck endpoint header).maxRetransmitAttempts = manager.maxRetransmitAttempts := by
  simp only [recordAck]
  split <;> rfl

@[simp] theorem maxRetransmitAttempts_maybeSendAck :
    (manager.maybeSendAck endpoint channel).1.maxRetransmitAttempts = manager.maxRetransmitAttempts := by
  simp only [maybeSendAck]
  split
  · rfl
  · split <;> rfl

@[simp] theorem maxRetransmitAttempts_handleIncomingSequence (header : PacketHeader) :
    (manager.handleIncomingSequence endpoint header).1.maxRetransmitAttempts = manager.maxRetransmitAttempts := rfl

theorem maxRetransmitAttempts_receive (tcp udp : Option (Endpoint × Packet)) :
    (manager.receive tcp udp).1.maxRetransmitAttempts = manager.maxRetransmitAttempts := by
  unfold receive
  split
  · rfl
  · rfl
  · split
    · split <;> simp
    · rfl

end Slots

/-- What `handle_incoming_sequence` accepts in a call of `receive`. -/
def acceptedBy (manager : NetworkManager) (tcp udp : Option (Endpoint × Packet)) : List Slot :=
  match tcp, udp with
  | none, some (endpoint, packet) =>
      if manager.isUdpReliable packet.header.channel && (manager.receive none udp).2.2.isSome then
        [Slot.ofPacket endpoint packet]
      else []
  | _, _ => []

end NetworkManager

/-- A manager with its suspended calls and the history of what it exchanged. -/
structure Host where
  manager : NetworkManager
  calls : List Call := []
  /-- Reliable packets given a sequence number by `send_reliable_udp`. -/
  launched : List Slot := []
  /-- Reliable datagrams that the UDP transport sent. -/
  transmitted : List (Endpoint × Packet) := []
  /-- Datagrams that `receive` got from the UDP transport. -/
  arrived : List (Endpoint × Packet) := []
  accepted : List Slot := []
  /-- Values of `m_maxRetransmitAttempts`, the current one last. -/
  budgets : List (BitVec 8)

namespace Host

inductive Action where
  | send (endpoint : Endpoint) (packet : Packet)
  | receive (tcp udp : Option (Endpoint × Packet))
  | transmit (call : Nat) (completes : Bool)
  | readBudget (call : Nat)
  | fire (call : Nat)
  | enableUdpReliability (channel : BitVec 16) (enabled : Bool)
  | configureUdpRetransmission (interval : Int) (maxAttempts : BitVec 8)
  deriving DecidableEq, Repr

def step (host : Host) : Action → Option Host
  | .send endpoint packet =>
      let (manager, effects) := host.manager.send endpoint packet
      some { host with
        manager
        calls := host.calls ++ launch effects
        launched := host.launched ++ (launch effects).map Call.slot }
  | .receive tcp udp =>
      let (manager, _, _) := host.manager.receive tcp udp
      some { host with
        manager
        arrived := host.arrived ++ if tcp.isNone then udp.toList else []
        accepted := host.accepted ++ host.manager.acceptedBy tcp udp }
  | .transmit k completes =>
      match host.calls[k]? with
      | some ⟨slot, .sending destination packet⟩ =>
          if completes then
            some { host with
              calls := host.calls.set k ⟨slot, .scheduled⟩
              transmitted := host.transmitted ++ [(destination, packet)] }
          -- The exception leaves the coroutine before `schedule_retransmission`.
          else some { host with calls := host.calls.eraseIdx k }
      | _ => none
  | .readBudget k =>
      match host.calls[k]? with
      | some ⟨slot, .scheduled⟩ =>
          some { host with calls := host.calls.set k ⟨slot, .sleeping host.manager.retransmitBudget.2⟩ }
      | _ => none
  | .fire k =>
      match host.calls[k]? with
      | some ⟨slot, .sleeping maxAttempts⟩ =>
          let (manager, effects) :=
            host.manager.retransmitAfter slot.endpoint slot.channel slot.sequence maxAttempts
          some { host with manager, calls := host.calls.eraseIdx k ++ launch effects }
      | _ => none
  | .enableUdpReliability channel enabled =>
      some { host with manager := host.manager.enableUdpReliability channel enabled }
  | .configureUdpRetransmission interval maxAttempts =>
      let manager := host.manager.configureUdpRetransmission interval maxAttempts
      some { host with manager, budgets := host.budgets ++ [manager.maxRetransmitAttempts] }

def system : System Host Action where
  step := step

/-- A fresh manager with a configured retransmission; the source's own defaults are
`configured 75 5`. -/
def configured (interval : Int) (maxAttempts : BitVec 8) : Host :=
  let manager := NetworkManager.configureUdpRetransmission {} interval maxAttempts
  { manager, budgets := [manager.maxRetransmitAttempts] }

example : (configured 75 5).manager = {} := rfl

/-- The calls that are about one slot. -/
def callsOf (host : Host) (slot : Slot) : Nat := host.calls.countP (·.slot = slot)

/-- What a step does to the entries, the counters and the calls. -/
inductive Moves (host : Host) : Action → Host → Prop where
  | pass {endpoint : Endpoint} {packet : Packet} : Moves host (.send endpoint packet) host
  | launch {endpoint : Endpoint} {packet datagram : Packet} {manager : NetworkManager}
      (reliable : packet.header.guarantee = .reliable)
      (enabled : host.manager.isUdpReliable packet.header.channel = true)
      (stamped : Slot.ofPacket endpoint datagram = host.manager.nextSlot endpoint packet.header.channel)
      (pending : ∀ slot, manager.pendingAt slot =
        if slot = Slot.ofPacket endpoint datagram then some { endpoint, packet := datagram, attempts := 0 }
        else host.manager.pendingAt slot)
      (next : ∀ destination lane, manager.nextSequence destination lane =
        if destination = endpoint ∧ lane = packet.header.channel then
          host.manager.nextSequence destination lane + 1
        else host.manager.nextSequence destination lane)
      (budget : manager.maxRetransmitAttempts = host.manager.maxRetransmitAttempts) :
      Moves host (.send endpoint packet)
        { host with
          manager
          calls := host.calls ++ [⟨Slot.ofPacket endpoint datagram, .sending endpoint datagram⟩]
          launched := host.launched ++ [Slot.ofPacket endpoint datagram] }
  | receive {tcp udp : Option (Endpoint × Packet)} {manager : NetworkManager}
      {arrived : List (Endpoint × Packet)} {accepted : List Slot}
      (pending : ∀ slot, manager.pendingAt slot = host.manager.pendingAt slot ∨
        manager.pendingAt slot = none ∧ ∃ packet, (slot.endpoint, packet) ∈ arrived ∧
          packet.header.channel = slot.channel ∧
          isSequenceAcked slot.sequence packet.header.acknowledgment packet.header.acknowledgmentMask = true)
      (next : manager.nextSequence = host.manager.nextSequence)
      (budget : manager.maxRetransmitAttempts = host.manager.maxRetransmitAttempts) :
      Moves host (.receive tcp udp)
        { host with
          manager, arrived := host.arrived ++ arrived, accepted := host.accepted ++ accepted }
  | transmit {k : Nat} {slot : Slot} {destination : Endpoint} {packet : Packet} {calls rest : List Call}
      (found : host.calls[k]? = some ⟨slot, .sending destination packet⟩)
      (before : host.calls.Perm (⟨slot, .sending destination packet⟩ :: rest))
      (after : calls.Perm (⟨slot, .scheduled⟩ :: rest)) :
      Moves host (.transmit k true)
        { host with calls, transmitted := host.transmitted ++ [(destination, packet)] }
  | lose {k : Nat} {slot : Slot} {destination : Endpoint} {packet : Packet} {rest : List Call}
      (found : host.calls[k]? = some ⟨slot, .sending destination packet⟩)
      (before : host.calls.Perm (⟨slot, .sending destination packet⟩ :: rest)) :
      Moves host (.transmit k false) { host with calls := rest }
  | read {k : Nat} {slot : Slot} {calls rest : List Call} (found : host.calls[k]? = some ⟨slot, .scheduled⟩)
      (before : host.calls.Perm (⟨slot, .scheduled⟩ :: rest))
      (after : calls.Perm (⟨slot, .sleeping host.manager.maxRetransmitAttempts⟩ :: rest)) :
      Moves host (.readBudget k) { host with calls }
  | idle {k : Nat} {slot : Slot} {maxAttempts : BitVec 8} {rest : List Call}
      (found : host.calls[k]? = some ⟨slot, .sleeping maxAttempts⟩)
      (before : host.calls.Perm (⟨slot, .sleeping maxAttempts⟩ :: rest))
      (absent : host.manager.pendingAt slot = none) :
      Moves host (.fire k) { host with calls := rest }
  | drop {k : Nat} {slot : Slot} {maxAttempts : BitVec 8} {rest : List Call} {entry : PendingPacket}
      {manager : NetworkManager} (found : host.calls[k]? = some ⟨slot, .sleeping maxAttempts⟩)
      (before : host.calls.Perm (⟨slot, .sleeping maxAttempts⟩ :: rest))
      (waiting : host.manager.pendingAt slot = some entry)
      (exhausted : maxAttempts.toNat ≤ entry.attempts.toNat + 1)
      (pending : ∀ other, manager.pendingAt other =
        if other = slot then none else host.manager.pendingAt other)
      (next : manager.nextSequence = host.manager.nextSequence)
      (budget : manager.maxRetransmitAttempts = host.manager.maxRetransmitAttempts) :
      Moves host (.fire k) { host with manager, calls := rest }
  | retry {k : Nat} {slot : Slot} {maxAttempts : BitVec 8} {rest : List Call} {entry again : PendingPacket}
      {manager : NetworkManager} (found : host.calls[k]? = some ⟨slot, .sleeping maxAttempts⟩)
      (before : host.calls.Perm (⟨slot, .sleeping maxAttempts⟩ :: rest))
      (waiting : host.manager.pendingAt slot = some entry)
      (left : entry.attempts.toNat + 1 < maxAttempts.toNat)
      (attempts : again.attempts = entry.attempts + 1)
      (endpoint : again.endpoint = entry.endpoint)
      (sameSlot : Slot.ofPacket again.endpoint again.packet = Slot.ofPacket entry.endpoint entry.packet)
      (pending : ∀ other, manager.pendingAt other =
        if other = slot then some again else host.manager.pendingAt other)
      (next : manager.nextSequence = host.manager.nextSequence)
      (budget : manager.maxRetransmitAttempts = host.manager.maxRetransmitAttempts) :
      Moves host (.fire k)
        { host with manager, calls := rest ++ [⟨slot, .sending again.endpoint again.packet⟩] }
  | enable {channel : BitVec 16} {enabled : Bool} {manager : NetworkManager}
      (pending : manager.pendingAt = host.manager.pendingAt)
      (next : manager.nextSequence = host.manager.nextSequence)
      (budget : manager.maxRetransmitAttempts = host.manager.maxRetransmitAttempts) :
      Moves host (.enableUdpReliability channel enabled) { host with manager }
  | configure {interval : Int} {maxAttempts : BitVec 8} {manager : NetworkManager}
      (pending : manager.pendingAt = host.manager.pendingAt)
      (next : manager.nextSequence = host.manager.nextSequence)
      (positive : 0 < manager.maxRetransmitAttempts.toNat) :
      Moves host (.configureUdpRetransmission interval maxAttempts)
        { host with manager, budgets := host.budgets ++ [manager.maxRetransmitAttempts] }

section Steps

variable {host host' : Host}

private theorem calls_perm {k : Nat} {call : Call} (found : host.calls[k]? = some call) :
    host.calls.Perm (call :: host.calls.eraseIdx k) ∧
      ∀ other, (host.calls.set k other).Perm (other :: host.calls.eraseIdx k) := by
  obtain ⟨bound, rfl⟩ := List.getElem?_eq_some_iff.mp found
  exact ⟨(List.getElem_cons_eraseIdx_perm bound).symm, List.set_perm_cons_eraseIdx bound⟩

theorem moves_send {endpoint : Endpoint} {packet : Packet} (taken : step host (.send endpoint packet) = some host') :
    Moves host (.send endpoint packet) host' := by
  simp only [step, NetworkManager.send, Option.some.injEq] at taken
  split at taken
  · next reliable =>
      subst taken
      have stamped : Slot.ofPacket endpoint (host.manager.sendReliableUdp endpoint packet).2 =
          host.manager.nextSlot endpoint packet.header.channel := rfl
      refine .launch reliable.1 reliable.2 stamped ?_ ?_ rfl
      · intro slot
        rw [NetworkManager.pendingAt_sendReliableUdp, stamped]
      · exact host.manager.nextSequence_sendReliableUdp endpoint packet
  · have same : host' = host := by
      rw [← taken]
      cases packet.header.guarantee <;> simp [launch]
    rw [same]
    exact .pass

theorem moves_receive {tcp udp : Option (Endpoint × Packet)} (taken : step host (.receive tcp udp) = some host') :
    Moves host (.receive tcp udp) host' := by
  simp only [step, Option.some.injEq] at taken
  subst taken
  refine .receive (fun slot => ?_) ?_ (host.manager.maxRetransmitAttempts_receive tcp udp)
  · rcases host.manager.pendingAt_receive tcp udp slot with kept | ⟨erased, rfl, packet, rfl, onChannel, acked⟩
    · exact .inl kept
    · exact .inr ⟨erased, packet, by simp, onChannel, acked⟩
  · funext destination lane
    exact host.manager.nextSequence_receive destination lane tcp udp

theorem moves_fire {k : Nat} (taken : step host (.fire k) = some host') : Moves host (.fire k) host' := by
  simp only [step] at taken
  split at taken
  · next slot maxAttempts found =>
      obtain ⟨before, -⟩ := calls_perm found
      rcases host.manager.retransmitAfter_cases slot.endpoint slot.channel slot.sequence maxAttempts with
        ⟨absent, same⟩ | ⟨entry, waiting, ⟨exhausted, same⟩ | ⟨left, same⟩⟩
      · rw [same] at taken
        simp only [launch, List.append_nil, Option.some.injEq] at taken
        subst taken
        exact .idle found before absent
      · rw [same] at taken
        simp only [launch, List.append_nil, Option.some.injEq] at taken
        subst taken
        refine .drop found before waiting exhausted (fun other => ?_) ?_ rfl
        · exact host.manager.pendingAt_setChannel _ _ _ _ other
        · funext destination lane
          exact host.manager.nextSequence_setChannel _ _ _ _ destination lane
      · rw [same] at taken
        simp only [launch, Option.some.injEq] at taken
        subst taken
        let state := host.manager.channelState (makeConnectionKey slot.endpoint) slot.channel
        have counted : (state.refresh entry).attempts = entry.attempts + 1 := rfl
        refine .retry found before waiting left counted rfl rfl (fun other => ?_) ?_ rfl
        · exact host.manager.pendingAt_setChannel _ _ _ _ other
        · funext destination lane
          exact host.manager.nextSequence_setChannel _ _ _ _ destination lane
  · cases taken

theorem moves_of_step {action : Action} (taken : step host action = some host') : Moves host action host' := by
  cases action with
  | send endpoint packet => exact moves_send taken
  | receive tcp udp => exact moves_receive taken
  | transmit k completes =>
      simp only [step] at taken
      split at taken
      · next slot destination packet found =>
          obtain ⟨before, after⟩ := calls_perm found
          cases completes with
          | true =>
              cases taken
              exact .transmit found before (after _)
          | false =>
              cases taken
              exact .lose found before
      · cases taken
  | readBudget k =>
      simp only [step] at taken
      split at taken
      · next slot found =>
          obtain ⟨before, after⟩ := calls_perm found
          cases taken
          exact .read found before (after _)
      · cases taken
  | fire k => exact moves_fire taken
  | enableUdpReliability channel enabled =>
      cases taken
      exact .enable rfl rfl rfl
  | configureUdpRetransmission interval maxAttempts =>
      cases taken
      refine .configure rfl rfl ?_
      simp only [NetworkManager.configureUdpRetransmission]
      split <;> bv_omega

end Steps

end Host

end SoulLib.Networking
