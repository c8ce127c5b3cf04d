import SoulLib.Networking.Channels
import SoulLib.Networking.ReceiveWindow

/-! What the acknowledgement fields of a receiver cover.

The receive window only looks at differences of sequence numbers, so a span of
fewer than `2 ^ 31` numbers behaves like one that starts at zero.
-/

set_option autoImplicit false

namespace SoulLib.Networking

section Rebasing

variable {base : BitVec 32}

theorem sub_sub_sub (first second base : BitVec 32) : (first - base) - (second - base) = first - second := by
  bv_omega

theorem sequenceGreater_sub (lhs rhs base : BitVec 32) :
    sequenceGreater (lhs - base) (rhs - base) = sequenceGreater lhs rhs := by
  rw [sequenceGreater, sub_sub_sub, sequenceGreater]

theorem isSequenceAcked_sub (sequence ack ackMask base : BitVec 32) :
    isSequenceAcked (sequence - base) (ack - base) ackMask = isSequenceAcked sequence ack ackMask := by
  have same : sequence - base = ack - base ↔ sequence = ack := by
    constructor
    · intro equal
      bv_omega
    · intro equal
      rw [equal]
  simp only [isSequenceAcked, sequenceLessEqual, sub_sub_sub, same]

/-- The second window is the first with all numbers counted from a base. -/
structure Rebased (base : BitVec 32) (state state' : ReliableChannelState) : Prop where
  received : state'.hasReceived = state.hasReceived
  last : state.hasReceived = true → state'.lastReceivedSequence = state.lastReceivedSequence - base
  mask : state.hasReceived = true → state'.receivedMask = state.receivedMask

theorem Rebased.handleIncomingSequence {state state' : ReliableChannelState} (rebased : Rebased base state state')
    (sequence : BitVec 32) :
    (state'.handleIncomingSequence (sequence - base)).2 = (state.handleIncomingSequence sequence).2 ∧
      Rebased base (state.handleIncomingSequence sequence).1 (state'.handleIncomingSequence (sequence - base)).1 := by
  unfold ReliableChannelState.handleIncomingSequence
  cases received : state.hasReceived with
  | false =>
      have received' := rebased.received.trans received
      simp only [received', Bool.not_false, if_true]
      exact ⟨trivial, rfl, fun _ => rfl, fun _ => rfl⟩
  | true =>
      have received' := rebased.received.trans received
      have last := rebased.last received
      have mask := rebased.mask received
      simp only [received', last, mask, sequenceGreater_sub, sub_sub_sub, Bool.not_true, Bool.false_eq_true, if_false]
      split
      · exact ⟨rfl, rfl, fun _ => rfl, fun _ => rfl⟩
      · split
        · exact ⟨rfl, rebased⟩
        · split
          · exact ⟨rfl, rebased⟩
          · split
            · exact ⟨rfl, rebased⟩
            · exact ⟨rfl, rfl, fun _ => rfl, fun _ => rfl⟩

/-- A window whose numbers, counted from the base, are those of a filter of width 32. -/
def RepresentsFrom (base : BitVec 32) (state : ReliableChannelState) (filter : Filter) : Prop :=
  ∃ state', Rebased base state state' ∧ Represents state' filter

theorem representsFrom_of_unreceived {state : ReliableChannelState} (fresh : state.hasReceived = false) :
    RepresentsFrom base state {} := by
  have rebased : Rebased base state {} := by
    constructor
    · exact fresh.symm
    · simp [fresh]
    · simp [fresh]
  have represents : Represents {} {} := by
    constructor <;> simp
  exact ⟨{}, rebased, represents⟩

namespace RepresentsFrom

variable {state : ReliableChannelState} {filter : Filter} {arrivals : List Nat}

theorem handleIncomingSequence (represents : RepresentsFrom base state filter)
    (tracks : Filter.Tracks arrivals filter) (span : ∀ other ∈ arrivals, other < 2 ^ 31) {sequence : BitVec 32}
    (bound : (sequence - base).toNat < 2 ^ 31) :
    (state.handleIncomingSequence sequence).2 = filter.duplicate 32 (sequence - base).toNat ∧
      RepresentsFrom base (state.handleIncomingSequence sequence).1
        (filter.receive 32 (sequence - base).toNat) := by
  obtain ⟨state', rebased, represented⟩ := represents
  have below : ∀ newest, filter.newest = some newest → newest < 2 ^ 31 :=
    fun newest found => span newest (tracks.newest_mem newest found)
  obtain ⟨sameAnswer, rebasedAfter⟩ := rebased.handleIncomingSequence sequence
  obtain ⟨answer, representedAfter⟩ := represented.handleIncomingSequence tracks below bound
  exact ⟨sameAnswer.symm.trans answer, _, rebasedAfter, representedAfter⟩

theorem isSequenceAcked_iff (represents : RepresentsFrom base state filter)
    (tracks : Filter.Tracks arrivals filter) (span : ∀ other ∈ arrivals, other < 2 ^ 31) {newest : Nat}
    (found : filter.newest = some newest) {sequence : BitVec 32}
    (accepted : (sequence - base).toNat ∈ filter.accepted) :
    (state.lastReceivedSequence - sequence).toNat = newest - (sequence - base).toNat ∧
      (isSequenceAcked sequence state.lastReceivedSequence state.receivedMask = true ↔
        (sequence - base).toNat = newest ∨
          newest - (sequence - base).toNat ≤ 32 ∧ (sequence - base).toNat ∈ filter.late) := by
  obtain ⟨state', rebased, represented⟩ := represents
  have received : state.hasReceived = true := by
    rw [← rebased.received, represented.received, found, Option.isSome_some]
  have last : (state.lastReceivedSequence - base).toNat = newest := by
    rw [← rebased.last received]
    exact represented.last newest found
  have arrived := tracks.accepted_mem _ accepted
  have le := tracks.newest_ge newest found _ arrived
  have small := span _ arrived
  have lastSmall := span newest (tracks.newest_mem newest found)
  constructor
  · rw [← sub_sub_sub _ sequence base, toNat_distance (by omega), last]
  · rw [← isSequenceAcked_sub _ _ _ base, SoulLib.Networking.isSequenceAcked_iff small (by omega), last,
      ← rebased.mask received]
    apply or_congr_right
    constructor
    · rintro ⟨lt, near, set⟩
      rw [represented.mask newest found _ (by omega), decide_eq_true_eq] at set
      have recovered : newest - (newest - (sequence - base).toNat - 1 + 1) = (sequence - base).toNat := by omega
      rw [recovered] at set
      exact ⟨near, set.2⟩
    · rintro ⟨near, late⟩
      have lt := tracks.late_lt newest found _ late
      have recovered : newest - (newest - (sequence - base).toNat - 1 + 1) = (sequence - base).toNat := by omega
      refine ⟨lt, near, ?_⟩
      rw [represented.mask newest found _ (by omega), decide_eq_true_eq, recovered]
      exact ⟨by omega, late⟩

end RepresentsFrom

end Rebasing

namespace NetworkManager

/-- `handle_incoming_sequence` on the headers of one connection, with the numbers it accepts. -/
def handleAll (manager : NetworkManager) (endpoint : Endpoint) (headers : List PacketHeader) :
    NetworkManager × List (BitVec 32) :=
  headers.foldl
    (fun (manager, accepted) header =>
      let (manager, duplicate) := manager.handleIncomingSequence endpoint header
      (manager, if duplicate then accepted else accepted ++ [header.sequence]))
    (manager, [])

/-- The acknowledgement fields of the next outgoing packet acknowledge every accepted
number of the window. -/
def Acknowledges (endpoint : Endpoint) (channel : BitVec 16) (reached : NetworkManager × List (BitVec 32)) :
    Prop :=
  let state := reached.1.channelState (makeConnectionKey endpoint) channel
  ∀ sequence ∈ reached.2, state.lastReceivedSequence - sequence ≤ 32 →
    isSequenceAcked sequence state.lastReceivedSequence state.receivedMask = true

section Acknowledging

variable {manager : NetworkManager} {endpoint : Endpoint} {channel : BitVec 16} {base : BitVec 32}
  {headers : List PacketHeader}

theorem handleAll_concat (header : PacketHeader) :
    manager.handleAll endpoint (headers ++ [header]) =
      let (before, accepted) := manager.handleAll endpoint headers
      let (after, duplicate) := before.handleIncomingSequence endpoint header
      (after, if duplicate then accepted else accepted ++ [header.sequence]) := by
  rw [handleAll, List.foldl_append]
  rfl

/-- The numbers of the headers, counted from the base. -/
def offsets (base : BitVec 32) (headers : List PacketHeader) : List Nat :=
  headers.map fun header => (header.sequence - base).toNat

theorem representsFrom_handleAll
    (fresh : (manager.channelState (makeConnectionKey endpoint) channel).hasReceived = false)
    (onChannel : ∀ header ∈ headers, header.channel = channel)
    (span : ∀ header ∈ headers, (header.sequence - base).toNat < 2 ^ 31) :
    RepresentsFrom base
        ((manager.handleAll endpoint headers).1.channelState (makeConnectionKey endpoint) channel)
        (Filter.receiveAll 32 (offsets base headers)) ∧
      (manager.handleAll endpoint headers).2.map (fun sequence => (sequence - base).toNat) =
        (Filter.receiveAll 32 (offsets base headers)).accepted := by
  induction headers using List.reverseRecOn with
  | nil => exact ⟨representsFrom_of_unreceived fresh, rfl⟩
  | append_singleton headers header ih =>
      obtain ⟨represents, accepted⟩ := ih
        (fun other member => onChannel other (List.mem_append_left _ member))
        (fun other member => span other (List.mem_append_left _ member))
      have bound := span header (by simp)
      -- the offsets stay below half of the range, where the comparison is the one of numbers
      have small : ∀ other ∈ offsets base headers, other < 2 ^ 31 := by
        intro other member
        obtain ⟨earlier, inside, rfl⟩ := List.mem_map.mp member
        exact span earlier (List.mem_append_left _ inside)
      obtain ⟨answer, after⟩ := represents.handleIncomingSequence
        (Filter.tracks_receiveAll 32 (offsets base headers)) small bound
      have same : offsets base (headers ++ [header]) = offsets base headers ++ [(header.sequence - base).toNat] := by
        simp [offsets]
      have decided : ((manager.handleAll endpoint headers).1.handleIncomingSequence endpoint header).2 =
          (Filter.receiveAll 32 (offsets base headers)).duplicate 32 (header.sequence - base).toNat := by
        rw [← answer, ← onChannel header (by simp)]
        rfl
      rw [same, Filter.receiveAll_concat, handleAll_concat]
      constructor
      · simp only [channelState_handleIncomingSequence, onChannel header (by simp), and_self, if_true]
        exact after
      · simp only [decided, Filter.accepted_receive]
        split
        · exact accepted
        · rw [List.map_append, accepted]
          rfl

/-- The fields cover what they should as long as the filter remembers what it accepted. -/
theorem acknowledges_handleAll
    (fresh : (manager.channelState (makeConnectionKey endpoint) channel).hasReceived = false)
    (onChannel : ∀ header ∈ headers, header.channel = channel)
    (span : ∀ header ∈ headers, (header.sequence - base).toNat < 2 ^ 31) :
    Acknowledges endpoint channel (manager.handleAll endpoint headers) ↔
      (Filter.receiveAll 32 (offsets base headers)).Remembers 32 := by
  obtain ⟨represents, accepted⟩ := representsFrom_handleAll fresh onChannel span
  have tracks := Filter.tracks_receiveAll 32 (offsets base headers)
  have small : ∀ other ∈ offsets base headers, other < 2 ^ 31 := by
    intro other member
    obtain ⟨earlier, inside, rfl⟩ := List.mem_map.mp member
    exact span earlier inside
  have reading : ∀ newest, (Filter.receiveAll 32 (offsets base headers)).newest = some newest →
      ∀ sequence ∈ (manager.handleAll endpoint headers).2, _ := fun newest found sequence member =>
    represents.isSequenceAcked_iff tracks small found (accepted ▸ List.mem_map_of_mem member)
  constructor
  · intro covered newest found offset member near
    rw [← accepted] at member
    obtain ⟨sequence, inside, rfl⟩ := List.mem_map.mp member
    obtain ⟨distance, acked⟩ := reading newest found sequence inside
    have close := covered sequence inside (by rw [BitVec.le_def, distance]; exact near)
    exact (acked.mp close).imp_right And.right
  · intro remembers sequence inside near
    cases found : (Filter.receiveAll 32 (offsets base headers)).newest with
    | none =>
        rw [(tracks.empty found).2.2, List.map_eq_nil_iff] at accepted
        rw [accepted] at inside
        cases inside
    | some newest =>
        obtain ⟨distance, acked⟩ := reading newest found sequence inside
        rw [BitVec.le_def, distance] at near
        have recognised := remembers newest found _ (accepted ▸ List.mem_map_of_mem inside) near
        exact acked.mpr (recognised.imp_right fun late => ⟨near, late⟩)

/-- The acknowledgement fields cover every accepted number of the window after each packet
exactly when every packet that is newer than all before it is newer by more than 32. -/
theorem acknowledges_iff_spaced
    (fresh : (manager.channelState (makeConnectionKey endpoint) channel).hasReceived = false)
    (onChannel : ∀ header ∈ headers, header.channel = channel)
    (span : ∀ header ∈ headers, (header.sequence - base).toNat < 2 ^ 31) :
    (∀ earlier, earlier <+: headers → Acknowledges endpoint channel (manager.handleAll endpoint earlier)) ↔
      Filter.Spaced 32 (offsets base headers) := by
  rw [← Filter.remembers_iff_spaced]
  have step : ∀ earlier, earlier <+: headers →
      (Acknowledges endpoint channel (manager.handleAll endpoint earlier) ↔
        (Filter.receiveAll 32 (offsets base earlier)).Remembers 32) := fun earlier part =>
    acknowledges_handleAll fresh (fun header member => onChannel header (part.subset member))
      fun header member => span header (part.subset member)
  constructor
  · intro covered numbers part
    obtain ⟨earlier, within, rfl⟩ := List.prefix_map_iff.mp part
    exact (step earlier within).mp (covered earlier within)
  · intro remembers earlier part
    exact (step earlier part).mpr (remembers _ (part.map _))

/-- Number 40 leaves the window of number 1 behind, and 20 then arrives late. -/
theorem acknowledges_spaced :
    Acknowledges ⟨0x0100007f, 0x8813⟩ 0
      (handleAll {} ⟨0x0100007f, 0x8813⟩ [{ sequence := 1 }, { sequence := 40 }, { sequence := 20 }]) := by
  have spaced : Filter.Spaced 32 (offsets 0 [{ sequence := 1 }, { sequence := 40 }, { sequence := 20 }]) := by
    change Filter.Spaced 32 ((([] ++ [1]) ++ [40]) ++ [20])
    simp only [Filter.spaced_concat]
    simp [Filter.Spaced]
  have covered := (@acknowledges_iff_spaced {} ⟨0x0100007f, 0x8813⟩ 0 0 _ rfl (by decide) (by decide)).mpr spaced
  exact covered _ List.prefix_rfl

/-- In-order delivery of two packets already leaves the first one unacknowledged. -/
theorem unacknowledged_in_order :
    ¬ Acknowledges ⟨0x0100007f, 0x8813⟩ 0
      (handleAll {} ⟨0x0100007f, 0x8813⟩ [{ sequence := 1 }, { sequence := 2 }]) := by
  intro covered
  have acked := covered 1 (by decide) (by decide)
  revert acked
  decide

end Acknowledging

end NetworkManager

end SoulLib.Networking
