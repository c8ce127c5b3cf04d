import SoulLib.Networking.Channels

/-! Polling until nothing is returned.

The datagrams that wait are classified as they would be if all of them were handled.
Polling stops at the first that is handled without being returned.
-/

set_option autoImplicit false

namespace SoulLib.Networking

inductive Kind where
  | acknowledgement
  | duplicate
  | data
  deriving DecidableEq, Repr

namespace NetworkManager

/-- Call `receive` until it returns nothing; TCP has nothing, and UDP answers while datagrams wait. -/
def drain (manager : NetworkManager) : List (Endpoint × Packet) → List (Endpoint × Packet)
  | [] => []
  | datagram :: queue =>
      match manager.receive none (some datagram) with
      | (manager, _, some result) => result :: drain manager queue
      | (_, _, none) => []

def kind (manager : NetworkManager) (datagram : Endpoint × Packet) : Kind :=
  if datagram.2.ackOnly then .acknowledgement
  else if manager.isUdpReliable datagram.2.header.channel &&
      (manager.handleIncomingSequence datagram.1 datagram.2.header).2 then .duplicate
  else .data

/-- Each datagram with its kind, where the windows take in every sequence number that waits. -/
def classify (manager : NetworkManager) : List (Endpoint × Packet) → List ((Endpoint × Packet) × Kind)
  | [] => []
  | datagram :: queue =>
      let after :=
        if manager.isUdpReliable datagram.2.header.channel && !datagram.2.ackOnly then
          (manager.handleIncomingSequence datagram.1 datagram.2.header).1
        else manager
      (datagram, manager.kind datagram) :: classify after queue

/-- Everything that is neither an acknowledgement nor a duplicate is returned. -/
def ReturnsData (manager : NetworkManager) (queue : List (Endpoint × Packet)) : Prop :=
  (((manager.classify queue).filter fun entry => entry.2 = .data).map Prod.fst).Sublist (manager.drain queue)

/-- On a reliable channel no acknowledgement and no duplicate waits in front of data. -/
def DataFirst (manager : NetworkManager) (queue : List (Endpoint × Packet)) : Prop :=
  (manager.classify queue).Pairwise fun earlier later =>
    manager.isUdpReliable earlier.1.2.header.channel = true → earlier.2 ≠ .data → later.2 ≠ .data

end NetworkManager

/-- What decides how a sequence number is answered. -/
def ReliableChannelState.received (state : ReliableChannelState) : Bool × BitVec 32 × BitVec 32 :=
  (state.hasReceived, state.lastReceivedSequence, state.receivedMask)

theorem ReliableChannelState.received_handleIncomingSequence {state other : ReliableChannelState}
    (same : state.received = other.received) (sequence : BitVec 32) :
    (state.handleIncomingSequence sequence).2 = (other.handleIncomingSequence sequence).2 ∧
      (state.handleIncomingSequence sequence).1.received = (other.handleIncomingSequence sequence).1.received := by
  obtain ⟨hasReceived, rest⟩ := Prod.mk.inj same
  obtain ⟨last, mask⟩ := Prod.mk.inj rest
  simp only [handleIncomingSequence, hasReceived, last, mask]
  split
  · exact ⟨rfl, rfl⟩
  · split
    · exact ⟨rfl, rfl⟩
    · split
      · exact ⟨rfl, same⟩
      · split
        · exact ⟨rfl, same⟩
        · split
          · exact ⟨rfl, same⟩
          · refine ⟨rfl, ?_⟩
            simp only [received]

namespace NetworkManager

/-- Managers that answer sequence numbers alike. -/
structure SameWindows (manager other : NetworkManager) : Prop where
  reliable : ∀ lane, manager.isUdpReliable lane = other.isUdpReliable lane
  received : ∀ key lane, (manager.channelState key lane).received = (other.channelState key lane).received

namespace SameWindows

variable {manager other another : NetworkManager} {endpoint : Endpoint} {header : PacketHeader}

theorem trans (first : SameWindows manager other) (second : SameWindows other another) : SameWindows manager another where
  reliable := fun lane => (first.reliable lane).trans (second.reliable lane)
  received := fun key lane => (first.received key lane).trans (second.received key lane)

theorem recordAck (manager : NetworkManager) (endpoint : Endpoint) (header : PacketHeader) :
    SameWindows (manager.recordAck endpoint header) manager where
  reliable := fun lane => isUdpReliable_recordAck manager endpoint lane header
  received := by
    intro key lane
    rw [channelState_recordAck]
    split <;> rfl

theorem maybeSendAck (manager : NetworkManager) (endpoint : Endpoint) (channel : BitVec 16) :
    SameWindows (manager.maybeSendAck endpoint channel).1 manager where
  reliable := fun lane => isUdpReliable_maybeSendAck manager endpoint lane channel
  received := by
    intro key lane
    rw [channelState_maybeSendAck]
    split <;> rfl

theorem handleIncomingSequence (same : SameWindows manager other) (endpoint : Endpoint) (header : PacketHeader) :
    (manager.handleIncomingSequence endpoint header).2 = (other.handleIncomingSequence endpoint header).2 ∧
      SameWindows (manager.handleIncomingSequence endpoint header).1 (other.handleIncomingSequence endpoint header).1 := by
  refine ⟨?_, same.reliable, ?_⟩
  · exact (ReliableChannelState.received_handleIncomingSequence (same.received _ _) _).1
  · intro key lane
    rw [channelState_handleIncomingSequence, channelState_handleIncomingSequence]
    split
    · exact (ReliableChannelState.received_handleIncomingSequence (same.received _ _) _).2
    · exact same.received key lane

theorem kind (same : SameWindows manager other) (datagram : Endpoint × Packet) :
    manager.kind datagram = other.kind datagram := by
  rw [NetworkManager.kind, NetworkManager.kind, same.reliable, (same.handleIncomingSequence _ _).1]

theorem classify (same : SameWindows manager other) (queue : List (Endpoint × Packet)) :
    manager.classify queue = other.classify queue := by
  induction queue generalizing manager other with
  | nil => rfl
  | cons datagram queue ih =>
      rw [NetworkManager.classify, NetworkManager.classify, same.kind, same.reliable]
      refine congrArg (_ :: ·) (ih ?_)
      split
      · exact (same.handleIncomingSequence _ _).2
      · exact same

end SameWindows

section Receive

variable {manager : NetworkManager} {datagram : Endpoint × Packet} {queue : List (Endpoint × Packet)}

theorem receive_eq (manager : NetworkManager) (datagram : Endpoint × Packet) :
    (manager.receive none (some datagram)).2.2 =
        (if manager.isUdpReliable datagram.2.header.channel = true ∧ manager.kind datagram ≠ .data then none
          else some datagram) ∧
      SameWindows (manager.receive none (some datagram)).1
        (if manager.isUdpReliable datagram.2.header.channel && !datagram.2.ackOnly then
          (manager.handleIncomingSequence datagram.1 datagram.2.header).1
        else manager) := by
  obtain ⟨endpoint, packet⟩ := datagram
  -- Neither the acknowledgement that is read nor the one that is sent touches the windows.
  have acked : SameWindows (manager.recordAck endpoint packet.header) manager := .recordAck manager endpoint packet.header
  obtain ⟨decided, handled⟩ := acked.handleIncomingSequence endpoint packet.header
  simp only [receive, kind]
  cases reliable : manager.isUdpReliable packet.header.channel with
  | false =>
      simp only [Bool.false_eq_true, if_false, false_and, Bool.false_and]
      exact ⟨trivial, fun _ => rfl, fun _ _ => rfl⟩
  | true =>
      cases bare : packet.ackOnly with
      | true => simpa using acked
      | false =>
          have answered := SameWindows.maybeSendAck ((manager.recordAck endpoint packet.header).handleIncomingSequence
            endpoint packet.header).1 endpoint packet.header.channel
          simp only [if_true, Bool.false_eq_true, if_false, Bool.true_and, decided, Bool.not_false]
          refine ⟨?_, answered.trans handled⟩
          cases (manager.handleIncomingSequence endpoint packet.header).2 <;> rfl

/-- Polling stops at what is taken in silently. -/
theorem drain_stops (reliable : manager.isUdpReliable datagram.2.header.channel = true)
    (control : manager.kind datagram ≠ .data) : manager.drain (datagram :: queue) = [] := by
  have returned := (receive_eq manager datagram).1
  rw [if_pos ⟨reliable, control⟩] at returned
  rw [drain]
  split
  · next result same => simp [same] at returned
  · rfl

theorem drain_goes_on (queue : List (Endpoint × Packet))
    (passes : ¬ (manager.isUdpReliable datagram.2.header.channel = true ∧ manager.kind datagram ≠ .data)) :
    ∃ after : NetworkManager, manager.drain (datagram :: queue) = datagram :: after.drain queue ∧
      (∀ lane, after.isUdpReliable lane = manager.isUdpReliable lane) ∧
      manager.classify (datagram :: queue) = (datagram, manager.kind datagram) :: after.classify queue := by
  obtain ⟨returned, same⟩ := receive_eq manager datagram
  rw [if_neg passes] at returned
  refine ⟨(manager.receive none (some datagram)).1, ?_, isUdpReliable_receive manager none (some datagram), ?_⟩
  · rw [drain]
    split
    · next after _ result received =>
        rw [received] at returned ⊢
        cases returned
        rfl
    · next after _ received => simp [received] at returned
  · rw [classify, same.classify]

theorem not_ackOnly_of_data (data : manager.kind datagram = .data) : datagram.2.ackOnly = false := by
  rw [kind] at data
  split at data
  · cases data
  · next bare => simpa using bare

/-- Nothing else passes that is not data. -/
theorem ackOnly_of_plain
    (passes : ¬ (manager.isUdpReliable datagram.2.header.channel = true ∧ manager.kind datagram ≠ .data))
    (control : manager.kind datagram ≠ .data) : datagram.2.ackOnly = true := by
  have plain : manager.isUdpReliable datagram.2.header.channel = false := by
    rw [← Bool.not_eq_true]
    exact fun reliable => passes ⟨reliable, control⟩
  by_contra bare
  rw [Bool.not_eq_true] at bare
  exact control (by simp [kind, bare, plain])

theorem data_of_classify {entry : (Endpoint × Packet) × Kind} (member : entry ∈ manager.classify queue)
    (data : entry.2 = .data) : entry.1.2.ackOnly = false := by
  induction queue generalizing manager with
  | nil => cases member
  | cons datagram queue ih =>
      rw [classify] at member
      rcases List.mem_cons.mp member with rfl | later
      · exact not_ackOnly_of_data data
      · exact ih later

/-- The data that waits is returned exactly when nothing else comes first. -/
theorem drain_returns_data_iff (manager : NetworkManager) (queue : List (Endpoint × Packet)) :
    manager.ReturnsData queue ↔ manager.DataFirst queue := by
  induction queue generalizing manager with
  | nil => simp [ReturnsData, DataFirst, classify]
  | cons datagram queue ih =>
      by_cases stops : manager.isUdpReliable datagram.2.header.channel = true ∧ manager.kind datagram ≠ .data
      · -- Polling ends here, so all that waits behind must not be data.
        have none : manager.ReturnsData (datagram :: queue) ↔
            ∀ later ∈ (manager.classify (datagram :: queue)).tail, later.2 ≠ .data := by
          rw [ReturnsData, drain_stops stops.1 stops.2, List.sublist_nil, List.map_eq_nil_iff, classify,
            List.filter_cons_of_neg (by simpa using stops.2), List.filter_eq_nil_iff, List.tail_cons]
          simp only [decide_eq_true_eq]
        rw [none, DataFirst, classify, List.tail_cons, List.pairwise_cons]
        constructor
        · intro absent
          refine ⟨fun later member _ _ => absent later member, ?_⟩
          exact List.pairwise_of_forall_mem_list fun _ _ later member _ _ => absent later member
        · intro first later member
          exact first.1 later member stops.1 stops.2
      · -- The rest is polled by a manager that classifies it in the same way.
        obtain ⟨after, drained, reliable, classified⟩ := drain_goes_on queue stops
        have first : manager.DataFirst (datagram :: queue) ↔ after.DataFirst queue := by
          rw [DataFirst, classified, List.pairwise_cons, DataFirst]
          simp only [reliable]
          exact and_iff_right fun later _ isReliable control => absurd ⟨isReliable, control⟩ stops
        rw [first, ← ih, ReturnsData, ReturnsData, drained, classified]
        by_cases data : manager.kind datagram = .data
        · rw [List.filter_cons_of_pos (by simpa using data), List.map_cons, List.cons_sublist_cons]
        · -- on a plain channel an acknowledgement is returned as well
          rw [List.filter_cons_of_neg (by simpa using data), List.sublist_cons_iff]
          constructor
          · rintro (within | ⟨rest, same, -⟩)
            · exact within
            · have member : datagram ∈ ((after.classify queue).filter fun entry => entry.2 = .data).map Prod.fst := by
                rw [same]
                exact List.mem_cons_self
              obtain ⟨⟨_, kind⟩, within, rfl⟩ := List.mem_map.mp member
              rw [List.mem_filter, decide_eq_true_eq] at within
              have bare := data_of_classify within.1 within.2
              rw [ackOnly_of_plain stops data] at bare
              cases bare
          · exact .inl

/-- An acknowledgement that waits in front of data ends the polling. -/
theorem drain_misses_data :
    let manager := NetworkManager.enableUdpReliability {} 1 true
    let acknowledgement : Packet := { header := { channel := 1, flags := .ack, acknowledgment := 1 }, payload := [] }
    let data : Packet := { header := { channel := 1, guarantee := .reliable, sequence := 1 }, payload := [0x2A] }
    let queue := [(⟨0x0100007F, 0x901F⟩, acknowledgement), (⟨0x0100007F, 0x901F⟩, data)]
    (manager.classify queue).map Prod.snd = [.acknowledgement, .data] ∧ manager.drain queue = [] ∧
      ¬ manager.ReturnsData queue := by
  intro manager acknowledgement data queue
  refine ⟨by decide, by decide, ?_⟩
  intro returned
  exact absurd returned.length_le (by decide)

end Receive

end NetworkManager

end SoulLib.Networking
