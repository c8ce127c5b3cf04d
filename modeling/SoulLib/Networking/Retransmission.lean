import SoulLib.Networking.Host

/-! Every pending packet has one call that retransmits or drops it. -/

set_option autoImplicit false

namespace SoulLib.Networking

open SoulLib.Semantics (System)

namespace Host

variable {host host' : Host} {action : Action}

/-- Both an entry and the calls about it concern one slot. -/
structure Chained (host : Host) : Prop where
  single : ∀ slot, host.callsOf slot ≤ 1
  live : ∀ slot entry, host.manager.pendingAt slot = some entry → 0 < host.callsOf slot

/-- A step that concerns one slot only has to be justified there. -/
theorem Chained.change (chained : Chained host) (slot : Slot)
    (calls : ∀ other, other ≠ slot → host'.callsOf other = host.callsOf other)
    (pending : ∀ other, other ≠ slot → host'.manager.pendingAt other = host.manager.pendingAt other)
    (single : host'.callsOf slot ≤ 1)
    (live : ∀ entry, host'.manager.pendingAt slot = some entry → 0 < host'.callsOf slot) : Chained host' := by
  constructor
  · intro other
    by_cases same : other = slot
    · rw [same]
      exact single
    · rw [calls other same]
      exact chained.single other
  · intro other entry waiting
    by_cases same : other = slot
    · rw [same] at waiting ⊢
      exact live entry waiting
    · rw [pending other same] at waiting
      rw [calls other same]
      exact chained.live other entry waiting

section Counting

variable {call : Call} {rest : List Call} {slot : Slot}

theorem callsOf_cons (before : host.calls.Perm (call :: rest)) :
    host.callsOf slot = rest.countP (·.slot = slot) + if call.slot = slot then 1 else 0 := by
  rw [callsOf, before.countP_eq, List.countP_cons]
  simp

theorem Chained.finish (chained : Chained host) (before : host.calls.Perm (call :: host'.calls))
    (pending : ∀ other, other ≠ call.slot → host'.manager.pendingAt other = host.manager.pendingAt other)
    (absent : host'.manager.pendingAt call.slot = none) : Chained host' := by
  have single := chained.single call.slot
  rw [callsOf_cons before, if_pos rfl] at single
  refine chained.change call.slot ?_ pending ?_ ?_
  · intro other ne
    rw [callsOf_cons before, if_neg (Ne.symm ne)]
    rfl
  · exact (Nat.le_of_succ_le_succ single).trans (Nat.zero_le 1)
  · intro entry waiting
    rw [absent] at waiting
    cases waiting

/-- A step that keeps the number of calls about each slot must not add entries. -/
theorem Chained.keep (chained : Chained host) (calls : ∀ slot, host'.callsOf slot = host.callsOf slot)
    (pending : ∀ slot entry, host'.manager.pendingAt slot = some entry →
      ∃ earlier, host.manager.pendingAt slot = some earlier) : Chained host' := by
  constructor
  · intro slot
    rw [calls]
    exact chained.single slot
  · intro slot entry waiting
    obtain ⟨earlier, before⟩ := pending slot entry waiting
    rw [calls]
    exact chained.live slot earlier before

end Counting

/-- A reliable send gets a slot that no call is about any more, and the transport fails
only for packets that are no longer pending. -/
def Undisturbed (host : Host) : Action → Prop
  | .send endpoint packet =>
      packet.header.guarantee = .reliable → host.manager.isUdpReliable packet.header.channel = true →
        ∀ call ∈ host.calls, call.slot ≠ host.manager.nextSlot endpoint packet.header.channel
  | .transmit k false => ∀ call ∈ host.calls[k]?, host.manager.pendingAt call.slot = none
  | _ => True

theorem Chained.moves (chained : Chained host) (allowed : Undisturbed host action)
    (moves : Moves host action host') : Chained host' := by
  cases moves with
  | pass => exact chained
  | @launch endpoint packet datagram manager reliable enabled stamped pending =>
      have counted : ∀ other, callsOf { host with
            manager, calls := host.calls ++ [⟨Slot.ofPacket endpoint datagram, .sending endpoint datagram⟩],
            launched := host.launched ++ [Slot.ofPacket endpoint datagram] } other =
          host.callsOf other + if Slot.ofPacket endpoint datagram = other then 1 else 0 := by
        intro other
        simp [callsOf, List.countP_append, List.countP_singleton]
      -- `allowed` says that no call of an earlier packet with this number is still alive.
      have unused : host.callsOf (Slot.ofPacket endpoint datagram) = 0 := by
        rw [callsOf, List.countP_eq_zero]
        intro call member
        simpa [stamped] using allowed reliable enabled call member
      refine chained.change (Slot.ofPacket endpoint datagram) ?_ ?_ ?_ ?_
      · intro other ne
        rw [counted, if_neg (Ne.symm ne), Nat.add_zero]
      · intro other ne
        rw [pending, if_neg ne]
      · rw [counted, unused, if_pos rfl]
      · intro entry _
        rw [counted, if_pos rfl]
        omega
  -- An ACK only erases entries; the call that waits for one finds it gone and ends.
  | receive pending =>
      refine chained.keep (fun _ => rfl) fun slot entry waiting => ?_
      rcases pending slot with kept | ⟨erased, -⟩
      · exact ⟨entry, kept ▸ waiting⟩
      · rw [erased] at waiting
        cases waiting
  | transmit found before after =>
      refine chained.keep (fun slot => ?_) fun slot entry waiting => ⟨entry, waiting⟩
      rw [callsOf_cons before, callsOf_cons after]
  | lose found before => exact chained.finish before (fun _ _ => rfl) (allowed _ found)
  | read found before after =>
      refine chained.keep (fun slot => ?_) fun slot entry waiting => ⟨entry, waiting⟩
      rw [callsOf_cons before, callsOf_cons after]
  | idle found before absent => exact chained.finish before (fun _ _ => rfl) absent
  -- The call ends and takes its entry with it.
  | drop found before waiting exhausted pending =>
      refine chained.finish before (fun other ne => ?_) ?_
      · rw [pending, if_neg ne]
      · rw [pending, if_pos rfl]
  | @retry k slot maxAttempts rest entry again manager found before waiting left attempts endpoint sameSlot pending =>
      let call : Call := ⟨slot, .sending again.endpoint again.packet⟩
      have after : (rest ++ [call]).Perm (call :: rest) := List.perm_append_singleton _ _
      refine chained.keep (fun other => ?_) fun other next found => ?_
      · rw [callsOf_cons before, callsOf_cons after]
      · by_cases same : other = slot
        · rw [same]
          exact ⟨entry, waiting⟩
        · rw [pending, if_neg same] at found
          exact ⟨next, found⟩
  | enable pending => exact ⟨chained.single, pending ▸ chained.live⟩
  | configure pending => exact ⟨chained.single, pending ▸ chained.live⟩

theorem chained_configured (interval : Int) (maxAttempts : BitVec 8) : Chained (configured interval maxAttempts) := by
  constructor
  · intro slot
    exact Nat.zero_le 1
  · intro slot entry waiting
    cases waiting

theorem chained_of_reaches {interval : Int} {maxAttempts : BitVec 8}
    (reach : system.Reaches Undisturbed (configured interval maxAttempts) host) : Chained host :=
  reach.invariant (chained_configured interval maxAttempts)
    fun _ _ _ _ chained allowed taken => chained.moves allowed (moves_of_step taken)

theorem filed_of_reaches {interval : Int} {maxAttempts : BitVec 8} {admits : Host → Action → Prop}
    (reach : system.Reaches admits (configured interval maxAttempts) host) : host.manager.Filed := by
  induction reach with
  | start =>
      intro key channel sequence entry waiting
      cases waiting
  | @next host host' action earlier allowed taken filed =>
      cases action with
      | send endpoint packet =>
          cases taken
          exact filed.send packet
      | receive tcp udp =>
          cases taken
          exact filed.receive tcp udp
      -- the manager is not touched while a send is under way
      | transmit k completes =>
          simp only [system, step] at taken
          split at taken
          · cases completes <;> cases taken <;> exact filed
          · cases taken
      | readBudget k =>
          simp only [system, step] at taken
          split at taken
          · cases taken
            exact filed
          · cases taken
      | fire k =>
          simp only [system, step] at taken
          split at taken
          · cases taken
            exact filed.retransmitAfter _ _ _ _
          · cases taken
      | enableUdpReliability channel enabled =>
          cases taken
          exact filed
      | configureUdpRetransmission interval maxAttempts =>
          cases taken
          exact filed

/-- Tasks of `retransmit_after` that have yet to look for the entry of a slot. -/
def outstanding (host : Host) (slot : Slot) : Nat :=
  host.calls.countP fun call => !call.stage.isSending && decide (call.slot = slot)

/-- While no reused slot and no failed send disturbs the chains, every pending entry has
exactly one outstanding retransmission whenever no call is in the middle of a send. -/
theorem pending_outstanding_once {interval : Int} {maxAttempts : BitVec 8}
    (reach : system.Reaches Undisturbed (configured interval maxAttempts) host)
    (quiet : ∀ call ∈ host.calls, call.stage.isSending = false) {key : BitVec 64} {channel : BitVec 16}
    {sequence : BitVec 32} {entry : PendingPacket}
    (waiting : (host.manager.channelState key channel).pending sequence = some entry) :
    makeConnectionKey entry.endpoint = key ∧ host.outstanding ⟨entry.endpoint, channel, sequence⟩ = 1 := by
  have chained := chained_of_reaches reach
  obtain ⟨sameKey, -⟩ := filed_of_reaches reach key channel sequence entry waiting
  have here : host.manager.pendingAt ⟨entry.endpoint, channel, sequence⟩ = some entry := by
    rw [NetworkManager.pendingAt, sameKey]
    exact waiting
  have all : host.outstanding ⟨entry.endpoint, channel, sequence⟩ =
      host.callsOf ⟨entry.endpoint, channel, sequence⟩ := by
    apply List.countP_congr
    intro call member
    simp [quiet call member]
  have single := chained.single ⟨entry.endpoint, channel, sequence⟩
  have live := chained.live _ entry here
  exact ⟨sameKey, by omega⟩

instance (host : Host) : (action : Action) → Decidable (Undisturbed host action)
  | .send endpoint packet => inferInstanceAs (Decidable (packet.header.guarantee = .reliable →
      host.manager.isUdpReliable packet.header.channel = true →
        ∀ call ∈ host.calls, call.slot ≠ host.manager.nextSlot endpoint packet.header.channel))
  | .transmit k false =>
      inferInstanceAs (Decidable (∀ call ∈ host.calls[k]?, host.manager.pendingAt call.slot = none))
  | .transmit _ true | .receive .. | .readBudget _ | .fire _ | .enableUdpReliability .. |
    .configureUdpRetransmission .. => inferInstanceAs (Decidable True)

/-- A reliable packet on channel 0. -/
def reliablePacket : Packet where
  header := { guarantee := .reliable }
  payload := [7]

def remote : Endpoint := ⟨0x0100007f, 0x8913⟩

/-- The first transmission of one packet completes. -/
def transmittedOnce : Host :=
  system.after Undisturbed (configured 75 5)
    [.enableUdpReliability 0 true, .send remote reliablePacket, .transmit 0 true] (by decide)

theorem pending_outstanding_after_transmit :
    (∀ call ∈ transmittedOnce.calls, call.stage.isSending = false) ∧
      ∃ entry, (transmittedOnce.manager.channelState (makeConnectionKey remote) 0).pending 1 = some entry ∧
        transmittedOnce.outstanding ⟨entry.endpoint, 0, 1⟩ = 1 := by
  have quiet : ∀ call ∈ transmittedOnce.calls, call.stage.isSending = false := by decide
  have waiting : ((transmittedOnce.manager.channelState (makeConnectionKey remote) 0).pending 1).isSome := by
    decide
  obtain ⟨entry, found⟩ := Option.isSome_iff_exists.mp waiting
  exact ⟨quiet, entry, found, (pending_outstanding_once (System.reaches_after _) quiet found).2⟩

/-- When the transport fails the first send, the entry stays without a task. -/
theorem pending_without_task :
    (system.run (fun _ _ => True) (configured 75 5)
        [.enableUdpReliability 0 true, .send remote reliablePacket, .transmit 0 false]).map
      (fun host => (host.calls, (host.manager.pendingAt ⟨remote, 0, 1⟩).isSome,
        host.outstanding ⟨remote, 0, 1⟩)) = some ([], true, 0) := by
  decide

end Host

end SoulLib.Networking
