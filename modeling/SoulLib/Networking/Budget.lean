import SoulLib.Networking.Retransmission

/-! How often a reliable packet is transmitted.

Transmissions are counted together with the sends in progress. The sum only
grows when a call passes the test of its budget, and the attempts field follows it.
-/

set_option autoImplicit false

namespace SoulLib.Networking

open SoulLib.Semantics (System)

/-- A call in the middle of a send sends the packet of its slot. -/
def Call.Fits (call : Call) : Prop :=
  match call.stage with
  | .sending destination packet => Slot.ofPacket destination packet = call.slot
  | .scheduled | .sleeping _ => True

namespace Host

variable {host host' : Host} {action : Action}

/-- Datagrams sent for a slot. -/
def transmissions (host : Host) (slot : Slot) : Nat :=
  host.transmitted.countP fun (endpoint, packet) => Slot.ofPacket endpoint packet = slot

def sends (host : Host) (slot : Slot) : Nat :=
  host.calls.countP fun call => call.stage.isSending && decide (call.slot = slot)

/-- Reliable sends of one connection and channel. -/
def launches (host : Host) (endpoint : Endpoint) (channel : BitVec 16) : Nat :=
  host.launched.countP fun slot => slot.endpoint = endpoint ∧ slot.channel = channel

/-- The transport completes every send, and fewer than `2 ^ 32` reliable packets go out
on a connection and channel. -/
def Completing (host : Host) : Action → Prop
  | .send endpoint packet =>
      packet.header.guarantee = .reliable → host.manager.isUdpReliable packet.header.channel = true →
        host.launches endpoint packet.header.channel + 1 < 2 ^ 32
  | .transmit _ completes => completes = true
  | _ => True

/-- Everything in the host is about a slot that was given out. -/
structure Ledger (host : Host) : Prop where
  counted : ∀ endpoint channel, (host.manager.nextSequence endpoint channel).toNat = host.launches endpoint channel
  assigned : ∀ slot ∈ host.launched,
    slot.sequence.toNat ≤ (host.manager.nextSequence slot.endpoint slot.channel).toNat
  calls : ∀ call ∈ host.calls, call.slot ∈ host.launched ∧ call.Fits
  entries : ∀ slot entry, host.manager.pendingAt slot = some entry →
    slot ∈ host.launched ∧ Slot.ofPacket entry.endpoint entry.packet = slot
  transmitted : ∀ endpoint packet, (endpoint, packet) ∈ host.transmitted →
    Slot.ofPacket endpoint packet ∈ host.launched

namespace Ledger

theorem next_toNat (ledger : Ledger host) {endpoint : Endpoint} {channel : BitVec 16}
    (room : host.launches endpoint channel + 1 < 2 ^ 32) :
    (host.manager.nextSequence endpoint channel + 1).toNat = host.launches endpoint channel + 1 := by
  rw [BitVec.toNat_add, ledger.counted]
  exact Nat.mod_eq_of_lt room

theorem fresh (ledger : Ledger host) {endpoint : Endpoint} {channel : BitVec 16}
    (room : host.launches endpoint channel + 1 < 2 ^ 32) :
    host.manager.nextSlot endpoint channel ∉ host.launched := by
  intro member
  have assigned := ledger.assigned _ member
  simp only [NetworkManager.nextSlot, ledger.next_toNat room, ledger.counted] at assigned
  omega

theorem undisturbed (ledger : Ledger host) (allowed : Completing host action) : Undisturbed host action := by
  cases action with
  | send endpoint packet =>
      intro reliable enabled call member same
      exact ledger.fresh (allowed reliable enabled) (same ▸ (ledger.calls call member).1)
  | transmit k completes =>
      cases completes with
      | true => trivial
      | false => cases allowed
  | receive tcp udp => trivial
  | readBudget k => trivial
  | fire k => trivial
  | enableUdpReliability channel enabled => trivial
  | configureUdpRetransmission interval maxAttempts => trivial

theorem change (ledger : Ledger host) (launched : host'.launched = host.launched)
    (next : host'.manager.nextSequence = host.manager.nextSequence)
    (calls : ∀ call ∈ host'.calls, call ∈ host.calls ∨ call.slot ∈ host.launched ∧ call.Fits)
    (entries : ∀ slot entry, host'.manager.pendingAt slot = some entry →
      host.manager.pendingAt slot = some entry ∨
        slot ∈ host.launched ∧ Slot.ofPacket entry.endpoint entry.packet = slot)
    (transmitted : ∀ endpoint packet, (endpoint, packet) ∈ host'.transmitted →
      (endpoint, packet) ∈ host.transmitted ∨ Slot.ofPacket endpoint packet ∈ host.launched) : Ledger host' := by
  constructor
  · intro endpoint channel
    rw [next, launches, launched]
    exact ledger.counted endpoint channel
  · rw [next, launched]
    exact ledger.assigned
  · intro call member
    rw [launched]
    exact (calls call member).elim (ledger.calls call) id
  · intro slot entry waiting
    rw [launched]
    exact (entries slot entry waiting).elim (ledger.entries slot entry) id
  · intro endpoint packet member
    rw [launched]
    exact (transmitted endpoint packet member).elim (ledger.transmitted endpoint packet) id

theorem launch (ledger : Ledger host) {endpoint : Endpoint} {packet datagram : Packet} {manager : NetworkManager}
    (room : host.launches endpoint packet.header.channel + 1 < 2 ^ 32)
    (stamped : Slot.ofPacket endpoint datagram = host.manager.nextSlot endpoint packet.header.channel)
    (pending : ∀ slot, manager.pendingAt slot =
      if slot = Slot.ofPacket endpoint datagram then some { endpoint, packet := datagram, attempts := 0 }
      else host.manager.pendingAt slot)
    (next : ∀ destination lane, manager.nextSequence destination lane =
      if destination = endpoint ∧ lane = packet.header.channel then host.manager.nextSequence destination lane + 1
      else host.manager.nextSequence destination lane) :
    Ledger { host with
      manager
      calls := host.calls ++ [⟨Slot.ofPacket endpoint datagram, .sending endpoint datagram⟩]
      launched := host.launched ++ [Slot.ofPacket endpoint datagram] } := by
  have onChannel : datagram.header.channel = packet.header.channel := congrArg Slot.channel stamped
  -- below 2 ^ 32 launches the counter does not wrap
  have advanced : ∀ destination lane, (manager.nextSequence destination lane).toNat =
      host.launches destination lane + if destination = endpoint ∧ lane = packet.header.channel then 1 else 0 := by
    intro destination lane
    rw [next]
    split
    · next here =>
        obtain ⟨rfl, rfl⟩ := here
        exact ledger.next_toNat room
    · exact ledger.counted destination lane
  have grown : ∀ {slot : Slot}, slot ∈ host.launched → slot ∈ host.launched ++ [Slot.ofPacket endpoint datagram] :=
    fun member => List.mem_append_left _ member
  constructor
  · intro destination lane
    rw [advanced]
    simp only [launches, List.countP_append, List.countP_singleton, Slot.ofPacket, onChannel, decide_eq_true_eq]
    congr 1
    simp only [eq_comm]
  · intro slot member
    rw [advanced]
    rcases List.mem_append.mp member with old | last
    · have assigned := ledger.assigned slot old
      rw [ledger.counted] at assigned
      omega
    · rw [List.mem_singleton.mp last, stamped]
      simp only [NetworkManager.nextSlot, and_self, if_true, ledger.next_toNat room, le_refl]
  · intro call member
    rcases List.mem_append.mp member with old | last
    · exact (ledger.calls call old).imp_left grown
    · rw [List.mem_singleton.mp last]
      exact ⟨by simp, rfl⟩
  · intro slot entry waiting
    -- the new entry belongs to the launch, the others were there before
    rw [pending] at waiting
    split at waiting
    · next same =>
        cases waiting
        exact ⟨by simp [same], same.symm⟩
    · exact (ledger.entries slot entry waiting).imp_left grown
  · intro destination sent member
    exact grown (ledger.transmitted destination sent member)

theorem transmit (ledger : Ledger host) {slot : Slot} {destination : Endpoint} {packet : Packet}
    {calls rest : List Call} (before : host.calls.Perm (⟨slot, .sending destination packet⟩ :: rest))
    (after : calls.Perm (⟨slot, .scheduled⟩ :: rest)) :
    Ledger { host with calls, transmitted := host.transmitted ++ [(destination, packet)] } := by
  have known := ledger.calls _ (before.symm.subset List.mem_cons_self)
  refine ledger.change rfl rfl ?_ (fun _ _ waiting => .inl waiting) ?_
  · intro call member
    rcases List.mem_cons.mp (after.subset member) with rfl | other
    · exact .inr ⟨known.1, trivial⟩
    · exact .inl (before.symm.subset (List.mem_cons_of_mem _ other))
  · intro endpoint sent member
    rcases List.mem_append.mp member with old | last
    · exact .inl old
    · cases List.mem_singleton.mp last
      have fits : Slot.ofPacket destination packet = slot := known.2
      exact .inr (fits ▸ known.1)

theorem retry (ledger : Ledger host) {slot : Slot} {maxAttempts : BitVec 8} {rest : List Call}
    {entry again : PendingPacket} {manager : NetworkManager}
    (before : host.calls.Perm (⟨slot, .sleeping maxAttempts⟩ :: rest))
    (waiting : host.manager.pendingAt slot = some entry)
    (sameSlot : Slot.ofPacket again.endpoint again.packet = Slot.ofPacket entry.endpoint entry.packet)
    (pending : ∀ other, manager.pendingAt other = if other = slot then some again else host.manager.pendingAt other)
    (next : manager.nextSequence = host.manager.nextSequence) :
    Ledger { host with manager, calls := rest ++ [⟨slot, .sending again.endpoint again.packet⟩] } := by
  obtain ⟨given, fits⟩ := ledger.entries slot entry waiting
  refine ledger.change rfl next ?_ ?_ fun _ _ member => .inl member
  · intro call member
    rcases List.mem_append.mp member with old | last
    · exact .inl (before.symm.subset (List.mem_cons_of_mem _ old))
    · rw [List.mem_singleton.mp last]
      exact .inr ⟨given, sameSlot.trans fits⟩
  · intro other newer here
    rw [pending] at here
    split at here
    · next same =>
        cases here
        exact .inr ⟨same ▸ given, same ▸ sameSlot.trans fits⟩
    · exact .inl here

theorem moves (ledger : Ledger host) (allowed : Completing host action) (moves : Moves host action host') :
    Ledger host' := by
  cases moves with
  | pass => exact ledger
  | launch reliable enabled stamped pending next => exact ledger.launch (allowed reliable enabled) stamped pending next
  | receive pending next =>
      refine ledger.change rfl next (fun call member => .inl member) ?_ fun _ _ member => .inl member
      intro slot entry waiting
      rcases pending slot with kept | ⟨erased, -⟩
      · exact .inl (kept ▸ waiting)
      · rw [erased] at waiting
        cases waiting
  | transmit found before after => exact ledger.transmit before after
  -- a send that throws is excluded by Completing
  | lose => cases allowed
  | read found before after =>
      have known := ledger.calls _ (before.symm.subset List.mem_cons_self)
      refine ledger.change rfl rfl ?_ (fun _ _ waiting => .inl waiting) fun _ _ member => .inl member
      intro call member
      rcases List.mem_cons.mp (after.subset member) with rfl | other
      · exact .inr ⟨known.1, trivial⟩
      · exact .inl (before.symm.subset (List.mem_cons_of_mem _ other))
  | idle found before =>
      exact ledger.change rfl rfl (fun call member => .inl (before.symm.subset (List.mem_cons_of_mem _ member)))
        (fun _ _ waiting => .inl waiting) fun _ _ member => .inl member
  | drop found before waiting exhausted pending next =>
      refine ledger.change rfl next (fun call member => .inl (before.symm.subset (List.mem_cons_of_mem _ member)))
        ?_ fun _ _ member => .inl member
      intro slot entry waiting
      rw [pending] at waiting
      split at waiting
      · cases waiting
      · exact .inl waiting
  | retry found before waiting left attempts endpoint sameSlot pending next =>
      exact ledger.retry before waiting sameSlot pending next
  | enable pending next =>
      exact ledger.change rfl next (fun _ member => .inl member) (fun _ _ waiting => .inl (pending ▸ waiting))
        fun _ _ member => .inl member
  | configure pending next =>
      exact ledger.change rfl next (fun _ member => .inl member) (fun _ _ waiting => .inl (pending ▸ waiting))
        fun _ _ member => .inl member

end Ledger

theorem attempts_succ {attempts budget : BitVec 8} (left : attempts.toNat + 1 < budget.toNat) :
    (attempts + 1).toNat = attempts.toNat + 1 := by
  rw [BitVec.toNat_add]
  exact Nat.mod_eq_of_lt (left.trans budget.isLt)

/-- Transmissions that happened or are under way. -/
def spent (host : Host) (slot : Slot) : Nat := host.transmissions slot + host.sends slot

/-- An acknowledgement that covers the slot arrived. -/
def Acked (host : Host) (slot : Slot) : Prop :=
  ∃ packet, (slot.endpoint, packet) ∈ host.arrived ∧ packet.header.channel = slot.channel ∧
    isSequenceAcked slot.sequence packet.header.acknowledgment packet.header.acknowledgmentMask = true

structure Spent (host : Host) : Prop where
  attempts : ∀ slot entry, host.manager.pendingAt slot = some entry → entry.attempts.toNat + 1 = host.spent slot
  bounded : ∀ slot, ∃ budget ∈ host.budgets, host.spent slot ≤ budget.toNat
  inForce : host.manager.maxRetransmitAttempts ∈ host.budgets
  positive : ∀ budget ∈ host.budgets, 0 < budget.toNat
  sleeping : ∀ slot maxAttempts, ⟨slot, .sleeping maxAttempts⟩ ∈ host.calls → maxAttempts ∈ host.budgets
  dropped : ∀ slot ∈ host.launched, host.manager.pendingAt slot = none →
    host.Acked slot ∨ ∃ budget ∈ host.budgets, budget.toNat ≤ host.transmissions slot

section Counting

variable {call : Call} {rest : List Call} {slot : Slot}

theorem sends_cons (before : host.calls.Perm (call :: rest)) :
    host.sends slot = rest.countP (fun call => call.stage.isSending && decide (call.slot = slot)) +
      if call.stage.isSending = true ∧ call.slot = slot then 1 else 0 := by
  rw [sends, before.countP_eq, List.countP_cons]
  simp

theorem transmissions_concat (calls : List Call) (endpoint : Endpoint) (packet : Packet) :
    transmissions { host with calls, transmitted := host.transmitted ++ [(endpoint, packet)] } slot =
      host.transmissions slot + if Slot.ofPacket endpoint packet = slot then 1 else 0 := by
  simp [transmissions, List.countP_append, List.countP_singleton]

theorem Ledger.spent_unlaunched (ledger : Ledger host) (unlaunched : slot ∉ host.launched) : host.spent slot = 0 := by
  have none : host.transmissions slot = 0 := by
    rw [transmissions, List.countP_eq_zero]
    rintro ⟨endpoint, packet⟩ member same
    exact unlaunched (of_decide_eq_true same ▸ ledger.transmitted endpoint packet member)
  have idle : host.sends slot = 0 := by
    rw [sends, List.countP_eq_zero]
    intro call member same
    simp only [Bool.and_eq_true, decide_eq_true_eq] at same
    exact unlaunched (same.2 ▸ (ledger.calls call member).1)
  rw [spent, none, idle]

theorem Chained.sends_zero (chained : Chained host) (before : host.calls.Perm (call :: rest))
    (resting : call.stage.isSending = false) : host.sends call.slot = 0 := by
  have single := chained.single call.slot
  rw [callsOf_cons before, if_pos rfl] at single
  have fewer : rest.countP (fun other => other.stage.isSending && decide (other.slot = call.slot)) ≤
      rest.countP (·.slot = call.slot) := by
    apply List.countP_mono_left
    intro other _ both
    exact (Bool.and_eq_true _ _ ▸ both).2
  rw [sends_cons before]
  simp only [resting, Bool.false_eq_true, false_and, if_false]
  omega

end Counting

namespace Spent

/-- A step that transmits nothing new keeps the accounts if it justifies the entries it removes. -/
theorem keep (accounts : Spent host) (amount : ∀ slot, host'.spent slot = host.spent slot)
    (more : ∀ slot, host.transmissions slot ≤ host'.transmissions slot)
    (launched : host'.launched = host.launched) (arrived : host.arrived ⊆ host'.arrived)
    (budgets : host.budgets ⊆ host'.budgets) (positive : ∀ budget ∈ host'.budgets, 0 < budget.toNat)
    (inForce : host'.manager.maxRetransmitAttempts ∈ host'.budgets)
    (sleeping : ∀ slot maxAttempts, ⟨slot, .sleeping maxAttempts⟩ ∈ host'.calls → maxAttempts ∈ host'.budgets)
    (entries : ∀ slot entry, host'.manager.pendingAt slot = some entry → host.manager.pendingAt slot = some entry)
    (dropped : ∀ slot, host'.manager.pendingAt slot = none → host.manager.pendingAt slot = none ∨
      host'.Acked slot ∨ ∃ budget ∈ host'.budgets, budget.toNat ≤ host'.transmissions slot) : Spent host' := by
  refine ⟨?_, ?_, inForce, positive, sleeping, ?_⟩
  · intro slot entry waiting
    rw [amount]
    exact accounts.attempts slot entry (entries slot entry waiting)
  · intro slot
    obtain ⟨budget, member, bound⟩ := accounts.bounded slot
    exact ⟨budget, budgets member, by rw [amount]; exact bound⟩
  · intro slot member absent
    rcases dropped slot absent with before | now
    · rw [launched] at member
      rcases accounts.dropped slot member before with ⟨packet, came, covers⟩ | ⟨budget, known, reached⟩
      · exact .inl ⟨packet, arrived came, covers⟩
      · exact .inr ⟨budget, budgets known, reached.trans (more slot)⟩
    · exact now

/-- One more transmission of a slot, allowed by a budget that was in force. -/
theorem grow (accounts : Spent host) (slot : Slot) (amount : ∀ other, host'.spent other =
      host.spent other + if slot = other then 1 else 0)
    (same : host'.transmitted = host.transmitted) (arrived : host'.arrived = host.arrived)
    (budgets : host'.budgets = host.budgets)
    (inForce : host'.manager.maxRetransmitAttempts = host.manager.maxRetransmitAttempts)
    (sleeping : ∀ other maxAttempts, ⟨other, .sleeping maxAttempts⟩ ∈ host'.calls →
      ⟨other, .sleeping maxAttempts⟩ ∈ host.calls)
    (launched : ∀ other ∈ host'.launched, other = slot ∨ other ∈ host.launched)
    (others : ∀ other, other ≠ slot → host'.manager.pendingAt other = host.manager.pendingAt other)
    (room : ∃ budget ∈ host.budgets, host.spent slot + 1 ≤ budget.toNat) {entry : PendingPacket}
    (waiting : host'.manager.pendingAt slot = some entry) (attempts : entry.attempts.toNat = host.spent slot) :
    Spent host' := by
  have sent : ∀ other, host'.transmissions other = host.transmissions other := by
    intro other
    rw [transmissions, same]
    rfl
  refine ⟨?_, ?_, ?_, ?_, ?_, ?_⟩
  · intro other found here
    rw [amount]
    -- Only the slot that retries spends; every other slot keeps its entry and its count.
    by_cases equal : other = slot
    · rw [equal] at here ⊢
      cases waiting.symm.trans here
      rw [attempts, if_pos rfl]
    · rw [others other equal] at here
      rw [if_neg (Ne.symm equal)]
      exact accounts.attempts other found here
  · intro other
    rw [amount, budgets]
    split
    · next equal =>
        rw [← equal]
        exact room
    · exact accounts.bounded other
  · rw [inForce, budgets]
    exact accounts.inForce
  · rw [budgets]
    exact accounts.positive
  · intro other maxAttempts member
    rw [budgets]
    exact accounts.sleeping other maxAttempts (sleeping other maxAttempts member)
  · intro other member absent
    have ne : other ≠ slot := by
      rintro rfl
      rw [waiting] at absent
      cases absent
    rw [others other ne] at absent
    rw [Acked, arrived, budgets, sent]
    exact accounts.dropped other ((launched other member).resolve_left ne) absent

section Operations

variable {slot : Slot} {calls rest : List Call} {entry : PendingPacket} {manager : NetworkManager}
  {maxAttempts : BitVec 8}

private theorem mem_calls {call : Call} (before : host.calls.Perm (call :: rest)) :
    ∀ other ∈ rest, other ∈ host.calls :=
  fun _ member => before.symm.subset (List.mem_cons_of_mem _ member)

theorem launch (accounts : Spent host) {endpoint : Endpoint} {datagram : Packet}
    (unspent : host.spent (Slot.ofPacket endpoint datagram) = 0)
    (pending : ∀ slot, manager.pendingAt slot =
      if slot = Slot.ofPacket endpoint datagram then some { endpoint, packet := datagram, attempts := 0 }
      else host.manager.pendingAt slot)
    (budget : manager.maxRetransmitAttempts = host.manager.maxRetransmitAttempts) :
    Spent { host with
      manager
      calls := host.calls ++ [⟨Slot.ofPacket endpoint datagram, .sending endpoint datagram⟩]
      launched := host.launched ++ [Slot.ofPacket endpoint datagram] } := by
  have waiting : manager.pendingAt (Slot.ofPacket endpoint datagram) =
      some { endpoint, packet := datagram, attempts := 0 } := by
    rw [pending, if_pos rfl]
  refine accounts.grow (Slot.ofPacket endpoint datagram) ?_ rfl rfl rfl budget ?_ ?_ ?_ ?_ waiting unspent.symm
  · intro other
    simp [spent, transmissions, sends, List.countP_append, List.countP_singleton, Stage.isSending, Nat.add_assoc]
  · intro other maxAttempts member
    simpa using member
  · intro other member
    simpa [or_comm] using member
  · intro other ne
    rw [pending, if_neg ne]
  · rw [unspent]
    exact ⟨_, accounts.inForce, accounts.positive _ accounts.inForce⟩

theorem receive (accounts : Spent host) {arrived : List (Endpoint × Packet)} {accepted : List Slot}
    (pending : ∀ slot, manager.pendingAt slot = host.manager.pendingAt slot ∨
      manager.pendingAt slot = none ∧ ∃ packet, (slot.endpoint, packet) ∈ arrived ∧
        packet.header.channel = slot.channel ∧
        isSequenceAcked slot.sequence packet.header.acknowledgment packet.header.acknowledgmentMask = true)
    (budget : manager.maxRetransmitAttempts = host.manager.maxRetransmitAttempts) :
    Spent { host with manager, arrived := host.arrived ++ arrived, accepted := host.accepted ++ accepted } := by
  refine accounts.keep (fun _ => rfl) (fun _ => le_rfl) rfl (List.subset_append_left _ _) (fun _ => id)
    accounts.positive (budget ▸ accounts.inForce) accounts.sleeping ?_ ?_
  · intro slot entry waiting
    rcases pending slot with kept | ⟨erased, -⟩
    · rw [← kept]
      exact waiting
    · rw [erased] at waiting
      cases waiting
  · intro slot absent
    rcases pending slot with kept | ⟨-, packet, came, covers⟩
    · rw [kept] at absent
      exact .inl absent
    · exact .inr (.inl ⟨packet, List.mem_append_right _ came, covers⟩)

/-- A completed send was already counted while it was under way. -/
theorem transmit (accounts : Spent host) (ledger : Ledger host) {destination : Endpoint} {packet : Packet}
    (before : host.calls.Perm (⟨slot, .sending destination packet⟩ :: rest))
    (after : calls.Perm (⟨slot, .scheduled⟩ :: rest)) :
    Spent { host with calls, transmitted := host.transmitted ++ [(destination, packet)] } := by
  have fits : Slot.ofPacket destination packet = slot :=
    (ledger.calls _ (before.symm.subset List.mem_cons_self)).2
  refine accounts.keep ?_ ?_ rfl (fun _ => id) (fun _ => id) accounts.positive accounts.inForce ?_
    (fun _ _ => id) (fun _ => .inl)
  · intro other
    rw [spent, spent, transmissions_concat, fits, sends_cons before, sends_cons after]
    simp [Stage.isSending]
    omega
  · intro other
    rw [transmissions_concat]
    exact Nat.le_add_right _ _
  · intro other maxAttempts member
    rcases List.mem_cons.mp (after.subset member) with same | behind
    · cases same
    · exact accounts.sleeping other maxAttempts (mem_calls before _ behind)

theorem read (accounts : Spent host) (before : host.calls.Perm (⟨slot, .scheduled⟩ :: rest))
    (after : calls.Perm (⟨slot, .sleeping host.manager.maxRetransmitAttempts⟩ :: rest)) :
    Spent { host with calls } := by
  refine accounts.keep ?_ (fun _ => le_rfl) rfl (fun _ => id) (fun _ => id) accounts.positive accounts.inForce ?_
    (fun _ _ => id) (fun _ => .inl)
  · intro other
    rw [spent, spent, sends_cons before, sends_cons after]
    rfl
  · intro other maxAttempts member
    rcases List.mem_cons.mp (after.subset member) with same | behind
    · cases same
      exact accounts.inForce
    · exact accounts.sleeping other maxAttempts (mem_calls before _ behind)

theorem idle (accounts : Spent host) (before : host.calls.Perm (⟨slot, .sleeping maxAttempts⟩ :: rest)) :
    Spent { host with calls := rest } := by
  refine accounts.keep ?_ (fun _ => le_rfl) rfl (fun _ => id) (fun _ => id) accounts.positive accounts.inForce ?_
    (fun _ _ => id) (fun _ => .inl)
  · intro other
    rw [spent, spent, sends_cons before]
    rfl
  · intro other maxAttempts member
    exact accounts.sleeping other maxAttempts (mem_calls before _ member)

theorem drop (accounts : Spent host) (chained : Chained host)
    (before : host.calls.Perm (⟨slot, .sleeping maxAttempts⟩ :: rest))
    (waiting : host.manager.pendingAt slot = some entry) (exhausted : maxAttempts.toNat ≤ entry.attempts.toNat + 1)
    (pending : ∀ other, manager.pendingAt other = if other = slot then none else host.manager.pendingAt other)
    (budget : manager.maxRetransmitAttempts = host.manager.maxRetransmitAttempts) :
    Spent { host with manager, calls := rest } := by
  refine accounts.keep ?_ (fun _ => le_rfl) rfl (fun _ => id) (fun _ => id) accounts.positive
    (budget ▸ accounts.inForce) ?_ ?_ ?_
  · intro other
    rw [spent, spent, sends_cons before]
    rfl
  · intro other maxAttempts member
    exact accounts.sleeping other maxAttempts (mem_calls before _ member)
  · intro other found here
    rw [pending] at here
    split at here
    · cases here
    · exact here
  · intro other absent
    rw [pending] at absent
    split at absent
    · next same =>
        -- The dropped entry has no send in progress, so its attempts count transmissions.
        have idle := chained.sends_zero before rfl
        have attempts := accounts.attempts _ _ waiting
        have inForce := accounts.sleeping _ _ (before.symm.subset List.mem_cons_self)
        rw [spent, idle] at attempts
        rw [same]
        exact .inr (.inr ⟨_, inForce, exhausted.trans attempts.le⟩)
    · exact .inl absent

theorem retry (accounts : Spent host) {again : PendingPacket}
    (before : host.calls.Perm (⟨slot, .sleeping maxAttempts⟩ :: rest))
    (waiting : host.manager.pendingAt slot = some entry) (left : entry.attempts.toNat + 1 < maxAttempts.toNat)
    (attempts : again.attempts = entry.attempts + 1)
    (pending : ∀ other, manager.pendingAt other = if other = slot then some again else host.manager.pendingAt other)
    (budget : manager.maxRetransmitAttempts = host.manager.maxRetransmitAttempts) :
    Spent { host with manager, calls := rest ++ [⟨slot, .sending again.endpoint again.packet⟩] } := by
  have counted := accounts.attempts slot entry waiting
  have inForce := accounts.sleeping slot maxAttempts (before.symm.subset List.mem_cons_self)
  have unwrapped : again.attempts.toNat = entry.attempts.toNat + 1 := by
    rw [attempts]
    exact attempts_succ left
  have renewed : manager.pendingAt slot = some again := by
    rw [pending, if_pos rfl]
  refine accounts.grow slot ?_ rfl rfl rfl budget ?_ (fun _ => .inr) ?_ ?_ renewed (unwrapped.trans counted)
  · intro other
    rw [spent, spent, sends_cons before]
    simp [transmissions, sends, List.countP_append, List.countP_singleton, Stage.isSending, Nat.add_assoc]
  · intro other budget member
    rcases List.mem_append.mp member with behind | last
    · exact mem_calls before _ behind
    · cases List.mem_singleton.mp last
  · intro other ne
    rw [pending, if_neg ne]
  · exact ⟨maxAttempts, inForce, by omega⟩

theorem enable (accounts : Spent host) (pending : manager.pendingAt = host.manager.pendingAt)
    (budget : manager.maxRetransmitAttempts = host.manager.maxRetransmitAttempts) : Spent { host with manager } := by
  refine accounts.keep (fun _ => rfl) (fun _ => le_rfl) rfl (fun _ => id) (fun _ => id) accounts.positive
    (budget ▸ accounts.inForce) accounts.sleeping ?_ ?_
  · rw [pending]
    exact fun _ _ => id
  · rw [pending]
    exact fun _ => .inl

theorem configure (accounts : Spent host) (pending : manager.pendingAt = host.manager.pendingAt)
    (positive : 0 < manager.maxRetransmitAttempts.toNat) :
    Spent { host with manager, budgets := host.budgets ++ [manager.maxRetransmitAttempts] } := by
  refine accounts.keep (fun _ => rfl) (fun _ => le_rfl) rfl (fun _ => id) (List.subset_append_left _ _) ?_
    (by simp) ?_ ?_ ?_
  · intro other member
    rcases List.mem_append.mp member with known | last
    · exact accounts.positive other known
    · rw [List.mem_singleton.mp last]
      exact positive
  · intro slot maxAttempts member
    exact List.mem_append_left _ (accounts.sleeping slot maxAttempts member)
  · rw [pending]
    exact fun _ _ => id
  · rw [pending]
    exact fun _ => .inl

end Operations

theorem moves (accounts : Spent host) (ledger : Ledger host) (chained : Chained host)
    (allowed : Completing host action) (moves : Moves host action host') : Spent host' := by
  cases moves with
  | pass => exact accounts
  | launch reliable enabled stamped pending _ budget =>
      have fresh := ledger.fresh (allowed reliable enabled)
      exact accounts.launch (stamped ▸ ledger.spent_unlaunched fresh) pending budget
  | receive pending _ budget => exact accounts.receive pending budget
  | transmit _ before after => exact accounts.transmit ledger before after
  | lose => cases allowed
  | read _ before after => exact accounts.read before after
  | idle _ before => exact accounts.idle before
  | drop _ before waiting exhausted pending _ budget =>
      exact accounts.drop chained before waiting exhausted pending budget
  | retry _ before waiting left attempts _ _ pending _ budget =>
      exact accounts.retry before waiting left attempts pending budget
  | enable pending _ budget => exact accounts.enable pending budget
  | configure pending _ positive => exact accounts.configure pending positive

end Spent

section Runs

variable {interval : Int} {maxAttempts : BitVec 8}

theorem ledger_configured : Ledger (configured interval maxAttempts) := by
  constructor
  · intro endpoint channel
    rfl
  · intro slot member
    cases member
  · intro call member
    cases member
  · intro slot entry waiting
    cases waiting
  · intro endpoint packet member
    cases member

theorem spent_configured : Spent (configured interval maxAttempts) := by
  constructor
  · intro slot entry waiting
    cases waiting
  · intro slot
    exact ⟨_, List.mem_singleton_self _, Nat.zero_le _⟩
  · exact List.mem_singleton_self _
  · intro budget member
    rw [List.mem_singleton.mp member]
    simp only [NetworkManager.configureUdpRetransmission]
    split <;> bv_omega
  · intro slot budget member
    cases member
  · intro slot member
    cases member

theorem accounts_of_reaches (reach : system.Reaches Completing (configured interval maxAttempts) host) :
    Ledger host ∧ Chained host ∧ Spent host := by
  induction reach with
  | start => exact ⟨ledger_configured, chained_configured interval maxAttempts, spent_configured⟩
  | next _ allowed taken ih =>
      obtain ⟨ledger, chained, accounts⟩ := ih
      have moves := moves_of_step taken
      exact ⟨ledger.moves allowed moves, chained.moves (ledger.undisturbed allowed) moves,
        accounts.moves ledger chained allowed moves⟩

end Runs

section Progress

variable {slot : Slot} {entry : PendingPacket} {k : Nat}

/-- What the steps of one call leave alone. -/
structure Apart (host host' : Host) : Prop where
  launched : host'.launched = host.launched
  arrived : host'.arrived = host.arrived
  budgets : host'.budgets = host.budgets

theorem Apart.trans {host'' : Host} (first : Apart host host') (rest : Apart host' host'') : Apart host host'' :=
  ⟨rest.launched.trans first.launched, rest.arrived.trans first.arrived, rest.budgets.trans first.budgets⟩

/-- The entry of the slot is dropped or was sent again. -/
def Advanced (slot : Slot) (entry : PendingPacket) (host host' : Host) : Prop :=
  system.Reaches Completing host host' ∧ Apart host host' ∧
    ∀ again, host'.manager.pendingAt slot = some again → again.attempts.toNat = entry.attempts.toNat + 1

theorem advanced_of_sleeping {budget : BitVec 8} (found : host.calls[k]? = some ⟨slot, .sleeping budget⟩)
    (waiting : host.manager.pendingAt slot = some entry) : ∃ after, Advanced slot entry host after := by
  have taken : ∃ after, step host (.fire k) = some after := by
    simp only [step, found]
    exact ⟨_, rfl⟩
  obtain ⟨after, taken⟩ := taken
  have allowed : Completing host (.fire k) := trivial
  have reach : system.Reaches Completing host after := .next .start allowed taken
  cases moves_of_step taken with
  | idle again _ absent =>
      cases found.symm.trans again
      rw [waiting] at absent
      cases absent
  | drop again _ _ _ pending =>
      cases found.symm.trans again
      refine ⟨_, reach, ⟨rfl, rfl, rfl⟩, fun later here => ?_⟩
      rw [pending, if_pos rfl] at here
      cases here
  | @retry _ _ _ _ earlier next _ again _ present left attempts _ _ pending =>
      cases found.symm.trans again
      cases waiting.symm.trans present
      refine ⟨_, reach, ⟨rfl, rfl, rfl⟩, fun later here => ?_⟩
      rw [pending, if_pos rfl] at here
      cases here
      rw [attempts]
      exact attempts_succ left

theorem Advanced.after_step (reach : system.Reaches Completing host host') (apart : Apart host host')
    (advanced : ∃ after, Advanced slot entry host' after) : ∃ after, Advanced slot entry host after := by
  obtain ⟨after, rest, apart', counted⟩ := advanced
  exact ⟨after, reach.trans rest, apart.trans apart', counted⟩

theorem advanced_of_scheduled (found : host.calls[k]? = some ⟨slot, .scheduled⟩)
    (waiting : host.manager.pendingAt slot = some entry) : ∃ after, Advanced slot entry host after := by
  obtain ⟨bound, -⟩ := List.getElem?_eq_some_iff.mp found
  let budget := host.manager.retransmitBudget.2
  let middle : Host := { host with calls := host.calls.set k ⟨slot, .sleeping budget⟩ }
  have allowed : Completing host (.readBudget k) := trivial
  have taken : step host (.readBudget k) = some middle := by
    simp only [step, found, middle, budget]
  have sleeping : middle.calls[k]? = some ⟨slot, .sleeping budget⟩ := List.getElem?_set_self bound
  exact Advanced.after_step (.next .start allowed taken) ⟨rfl, rfl, rfl⟩ (advanced_of_sleeping sleeping waiting)

theorem advanced_of_sending {destination : Endpoint} {packet : Packet}
    (found : host.calls[k]? = some ⟨slot, .sending destination packet⟩)
    (waiting : host.manager.pendingAt slot = some entry) : ∃ after, Advanced slot entry host after := by
  obtain ⟨bound, -⟩ := List.getElem?_eq_some_iff.mp found
  let middle : Host := { host with
    calls := host.calls.set k ⟨slot, .scheduled⟩
    transmitted := host.transmitted ++ [(destination, packet)] }
  have allowed : Completing host (.transmit k true) := rfl
  have taken : step host (.transmit k true) = some middle := by
    simp only [step, found, if_true, middle]
  have scheduled : middle.calls[k]? = some ⟨slot, .scheduled⟩ := List.getElem?_set_self bound
  exact Advanced.after_step (.next .start allowed taken) ⟨rfl, rfl, rfl⟩ (advanced_of_scheduled scheduled waiting)

theorem Chained.advanced (chained : Chained host) (waiting : host.manager.pendingAt slot = some entry) :
    ∃ after, Advanced slot entry host after := by
  have live := chained.live slot entry waiting
  obtain ⟨call, member, same⟩ := List.countP_pos_iff.mp live
  obtain ⟨k, found⟩ := List.getElem?_of_mem member
  obtain ⟨other, stage⟩ := call
  obtain rfl : other = slot := of_decide_eq_true same
  cases stage with
  | sending destination packet => exact advanced_of_sending found waiting
  | scheduled => exact advanced_of_scheduled found waiting
  | sleeping budget => exact advanced_of_sleeping found waiting

/-- Going on, the call drops the entry after finitely many steps: the attempts count up. -/
theorem drop_reached {interval : Int} {maxAttempts : BitVec 8}
    (reach : system.Reaches Completing (configured interval maxAttempts) host) (slot : Slot) :
    ∃ after, system.Reaches Completing host after ∧ Apart host after ∧ after.manager.pendingAt slot = none := by
  cases waiting : host.manager.pendingAt slot with
  | none => exact ⟨host, .start, ⟨rfl, rfl, rfl⟩, waiting⟩
  | some entry =>
      induction left : 256 - entry.attempts.toNat generalizing host entry with
      | zero =>
          have small := entry.attempts.isLt
          omega
      | succ left ih =>
          obtain ⟨middle, step, apart, counted⟩ := (accounts_of_reaches reach).2.1.advanced waiting
          cases again : middle.manager.pendingAt slot with
          | none => exact ⟨middle, step, apart, again⟩
          | some next =>
              have more := counted next again
              obtain ⟨after, rest, apart', absent⟩ := ih (reach.trans step) next again (by omega)
              exact ⟨after, step.trans rest, apart.trans apart', absent⟩

end Progress

/-- Transmissions of a packet stay within a budget that was in force, the attempts field
counts them without wrapping, a timer that fires for a removed entry does nothing, and
under a constant budget an unacknowledged packet is dropped after exactly that many
transmissions, which the timers always get to. -/
theorem transmissions_within_budget {interval : Int} {maxAttempts : BitVec 8}
    (reach : system.Reaches Completing (configured interval maxAttempts) host) (slot : Slot) :
    (∃ budget ∈ host.budgets, host.transmissions slot ≤ budget.toNat) ∧
      (∀ entry, host.manager.pendingAt slot = some entry →
        entry.attempts.toNat + 1 = host.transmissions slot + host.sends slot) ∧
      (∀ k budget, host.calls[k]? = some ⟨slot, .sleeping budget⟩ → host.manager.pendingAt slot = none →
        step host (.fire k) = some { host with calls := host.calls.eraseIdx k }) ∧
      ∀ budget, (∀ other ∈ host.budgets, other = budget) → slot ∈ host.launched → ¬ host.Acked slot →
        (host.manager.pendingAt slot = none → host.transmissions slot = budget.toNat) ∧
          ∃ after, system.Reaches Completing host after ∧ Apart host after ∧
            after.manager.pendingAt slot = none ∧ after.transmissions slot = budget.toNat := by
  obtain ⟨-, -, accounts⟩ := accounts_of_reaches reach
  have within : ∀ {host : Host}, Spent host → ∃ budget ∈ host.budgets, host.transmissions slot ≤ budget.toNat := by
    intro host accounts
    obtain ⟨budget, member, bound⟩ := accounts.bounded slot
    exact ⟨budget, member, (Nat.le_add_right _ _).trans bound⟩
  -- a dropped entry used up its budget, and with one budget only that is the bound too
  have exact_drop : ∀ {host : Host} {budget : BitVec 8}, Spent host → (∀ other ∈ host.budgets, other = budget) →
      slot ∈ host.launched → ¬ host.Acked slot → host.manager.pendingAt slot = none →
        host.transmissions slot = budget.toNat := by
    intro host budget accounts constant given unacked absent
    obtain ⟨upper, member, bound⟩ := within accounts
    obtain ⟨lower, known, reached⟩ := (accounts.dropped slot given absent).resolve_left unacked
    rw [constant upper member] at bound
    rw [constant lower known] at reached
    exact Nat.le_antisymm bound reached
  refine ⟨within accounts, accounts.attempts slot, ?_, ?_⟩
  · intro k budget found absent
    rcases host.manager.retransmitAfter_cases slot.endpoint slot.channel slot.sequence budget with
      ⟨-, same⟩ | ⟨entry, waiting, -⟩
    · simp [step, found, same, launch]
    · cases absent.symm.trans waiting
  · intro budget constant given unacked
    refine ⟨exact_drop accounts constant given unacked, ?_⟩
    -- let the timers of this entry fire until it is dropped
    obtain ⟨after, rest, apart, absent⟩ := drop_reached reach slot
    have accounts' := (accounts_of_reaches (reach.trans rest)).2.2
    refine ⟨after, rest, apart, absent, exact_drop accounts' ?_ ?_ ?_ absent⟩
    · rw [apart.budgets]
      exact constant
    · rw [apart.launched]
      exact given
    · rw [Acked, apart.arrived]
      exact unacked

instance (host : Host) : (action : Action) → Decidable (Completing host action)
  | .send endpoint packet => inferInstanceAs (Decidable (packet.header.guarantee = .reliable →
      host.manager.isUdpReliable packet.header.channel = true →
        host.launches endpoint packet.header.channel + 1 < 2 ^ 32))
  | .transmit _ completes => inferInstanceAs (Decidable (completes = true))
  | .receive .. | .readBudget _ | .fire _ | .enableUdpReliability .. | .configureUdpRetransmission .. =>
      inferInstanceAs (Decidable True)

/-- One packet under a budget of two, never acknowledged. -/
def droppedAfterTwo : Host :=
  system.after Completing (configured 75 2)
    [.enableUdpReliability 0 true, .send remote reliablePacket, .transmit 0 true, .readBudget 0, .fire 0,
      .transmit 0 true, .readBudget 0, .fire 0] (by decide)

theorem transmissions_within_two :
    droppedAfterTwo.manager.pendingAt ⟨remote, 0, 1⟩ = none ∧ droppedAfterTwo.transmissions ⟨remote, 0, 1⟩ = 2 := by
  have absent : droppedAfterTwo.manager.pendingAt ⟨remote, 0, 1⟩ = none := by decide
  have silent : droppedAfterTwo.arrived = [] := by decide
  have unacked : ¬ droppedAfterTwo.Acked ⟨remote, 0, 1⟩ := by
    rintro ⟨packet, member, -⟩
    rw [silent] at member
    cases member
  obtain ⟨-, -, -, constant⟩ := transmissions_within_budget (System.reaches_after _) ⟨remote, 0, 1⟩
  exact ⟨absent, (constant 2 (by decide) (by decide) unacked).1 absent⟩

end Host

end SoulLib.Networking
