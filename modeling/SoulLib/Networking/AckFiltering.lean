import SoulLib.Networking.Peers
import SoulLib.Networking.Receipts

/-! Whether the datagrams of `maybe_send_ack` stay inside the managers.

A datagram is known by its position on the network, since an application may
send a packet that looks like an internal acknowledgement. A call of `receive`
is suspended between the answer of the transport and its test of the flag, so
the two are steps of their own and anything may happen in between.
-/

set_option autoImplicit false

namespace SoulLib.Networking

open SoulLib.Semantics (System)

structure Trace where
  world : World
  /-- Positions that calls of `receive` have polled, before their test of the flag. -/
  polled : Peer → List Nat := fun _ => []
  /-- Positions of the datagrams that `maybe_send_ack` sent. -/
  acks : List Nat := []
  /-- Positions of those that `receive` returned. -/
  leaked : List Nat := []

/-- The transport hands a datagram to a call of `receive`, or the managers act. The call goes on
in the `receive` of its datagram, which begins with the test of the flag. -/
inductive Turn where
  | poll (peer : Peer) (k : Nat)
  | act (action : Action)

/-- The datagram that the action takes from a suspended call. -/
def Action.resumes : Action → Option (Peer × Nat)
  | .receive peer none (some k) => some (peer, k)
  | _ => none

namespace Trace

/-- All that `receive` sends comes from `maybe_send_ack`. -/
def sentAcks (before after : World) : Action → List Nat
  | .receive .. => (List.range after.udp.length).drop before.udp.length
  | _ => []

/-- The polled acknowledgement, if the call of `receive` returned it. -/
def leaks (trace : Trace) (after : World) : Action → List Nat
  | .receive peer none (some k) =>
      if k ∈ trace.acks ∧ after.delivered peer ≠ trace.world.delivered peer then [k] else []
  | _ => []

/-- The call goes on with the datagram in hand. -/
def resume (trace : Trace) (action : Action) : Option Trace :=
  match action.resumes with
  | none => some trace
  | some (peer, k) =>
      if k ∈ trace.polled peer then
        some { trace with polled := Function.update trace.polled peer ((trace.polled peer).erase k) }
      else none

def step (link : Link) (trace : Trace) : Turn → Option Trace
  | .poll peer k => do
      let _ ← World.poll trace.world.udp (link.endpoint peer) (some k)
      some { trace with polled := Function.update trace.polled peer (trace.polled peer ++ [k]) }
  | .act action => do
      let resumed ← trace.resume action
      let world ← trace.world.step link action
      some { resumed with
        world
        acks := trace.acks ++ sentAcks trace.world world action
        leaked := trace.leaked ++ trace.leaks world action }

/-- Fresh managers with any channels enabled on either side. -/
def initial (enabled : Peer → BitVec 16 → Option Bool) : Trace where
  world := { manager := fun peer => { udpReliableChannels := enabled peer } }

/-- When a call tests the flag for an internal acknowledgement, the flag is on. -/
def Filtered (trace : Trace) : Turn → Prop
  | .act (.receive peer none (some k)) => k ∈ trace.acks →
      ∀ datagram ∈ trace.world.udp[k]?, (trace.world.manager peer).isUdpReliable datagram.packet.header.channel = true
  | _ => True

end Trace

def traced (link : Link) : System Trace Turn where
  step := Trace.step link

section Positions

variable {link : Link} {world world' : World} {action : Action}

theorem World.udp_grows (taken : World.step link world action = some world') :
    ∃ more, world'.udp = world.udp ++ more := by
  cases action with
  | send peer packet =>
      cases taken
      exact ⟨_, rfl⟩
  | receive peer tcpChoice udpChoice =>
      simp only [World.step, Option.bind_eq_bind, Option.bind_eq_some_iff, Option.some.injEq] at taken
      obtain ⟨tcp, -, udp, -, rfl⟩ := taken
      exact ⟨_, rfl⟩
  | readBudget k =>
      simp only [World.step, Option.bind_eq_bind, Option.bind_eq_some_iff] at taken
      obtain ⟨timer, -, taken⟩ := taken
      split at taken
      · cases taken
      · cases taken
        exact ⟨[], (List.append_nil _).symm⟩
  | fire k =>
      simp only [World.step, Option.bind_eq_bind, Option.bind_eq_some_iff, Option.some.injEq] at taken
      obtain ⟨timer, -, budget, -, rfl⟩ := taken
      exact ⟨_, rfl⟩
  | enableUdpReliability peer channel enabled =>
      cases taken
      exact ⟨_, rfl⟩
  | configureUdpRetransmission peer interval maxAttempts =>
      cases taken
      exact ⟨_, rfl⟩

/-- Everything a call of `receive` puts on the network is a bare acknowledgement. -/
theorem World.udp_receive {peer : Peer} {tcpChoice udpChoice : Option Nat}
    (taken : World.step link world (.receive peer tcpChoice udpChoice) = some world') :
    ∃ more, world'.udp = world.udp ++ more ∧ ∀ datagram ∈ more, datagram.packet.ackOnly = true := by
  simp only [World.step, Option.bind_eq_bind, Option.bind_eq_some_iff, Option.some.injEq] at taken
  obtain ⟨tcp, -, udp, -, rfl⟩ := taken
  refine ⟨_, rfl, fun datagram member => ?_⟩
  obtain ⟨effect, sent, shown⟩ := List.mem_filterMap.mp member
  obtain ⟨endpoint, state, channel, rfl⟩ := NetworkManager.effect_receive _ tcp udp effect sent
  cases shown
  exact NetworkManager.ackOnly_ackPacket state channel

end Positions

namespace Trace

variable {link : Link} {trace trace' : Trace} {action : Action} {turn : Turn}

theorem step_cases (taken : step link trace turn = some trace') :
    ((∃ peer k, turn = .poll peer k) ∧ trace'.world = trace.world ∧ trace'.acks = trace.acks ∧
      trace'.leaked = trace.leaked) ∨
    ∃ action, turn = .act action ∧ trace.world.step link action = some trace'.world ∧
      trace'.acks = trace.acks ++ sentAcks trace.world trace'.world action ∧
      trace'.leaked = trace.leaked ++ trace.leaks trace'.world action := by
  cases turn with
  | poll peer k =>
      simp only [step, Option.bind_eq_bind, Option.bind_eq_some_iff, Option.some.injEq] at taken
      obtain ⟨answer, -, rfl⟩ := taken
      exact .inl ⟨⟨peer, k, rfl⟩, rfl, rfl, rfl⟩
  | act action =>
      simp only [step, Option.bind_eq_bind, Option.bind_eq_some_iff, Option.some.injEq] at taken
      obtain ⟨resumed, -, world, moved, rfl⟩ := taken
      exact .inr ⟨action, rfl, moved, rfl, rfl⟩

/-- The recorded positions hold bare acknowledgements. -/
def Recorded (trace : Trace) : Prop :=
  ∀ k ∈ trace.acks, ∃ datagram, trace.world.udp[k]? = some datagram ∧ datagram.packet.ackOnly = true

theorem mem_sentAcks {before after : World} {peer : Peer} {tcpChoice udpChoice : Option Nat} {k : Nat}
    (member : k ∈ sentAcks before after (.receive peer tcpChoice udpChoice)) :
    before.udp.length ≤ k ∧ k < after.udp.length := by
  obtain ⟨i, bound, same⟩ := List.mem_iff_getElem.mp member
  simp only [sentAcks, List.length_drop, List.length_range, List.getElem_drop, List.getElem_range] at bound same
  omega

theorem Recorded.step (recorded : Recorded trace) (taken : step link trace turn = some trace') :
    Recorded trace' := by
  rcases step_cases taken with ⟨-, world, acks, -⟩ | ⟨action, rfl, moved, acks, -⟩
  · intro k member
    rw [world]
    exact recorded k (acks ▸ member)
  intro k member
  rw [acks] at member
  rcases List.mem_append.mp member with old | new
  · obtain ⟨more, grown⟩ := World.udp_grows moved
    obtain ⟨datagram, found, only⟩ := recorded k old
    refine ⟨datagram, ?_, only⟩
    obtain ⟨bound, -⟩ := List.getElem?_eq_some_iff.mp found
    simp only [grown, List.getElem?_append_left bound, found]
  · cases action with
    | receive peer tcpChoice udpChoice =>
        obtain ⟨more, grown, bare⟩ := World.udp_receive moved
        obtain ⟨start, bound⟩ := mem_sentAcks new
        obtain ⟨datagram, found⟩ : ∃ datagram, trace'.world.udp[k]? = some datagram :=
          ⟨_, List.getElem?_eq_getElem bound⟩
        refine ⟨datagram, found, bare datagram ?_⟩
        rw [grown, List.getElem?_append_right start] at found
        exact List.mem_of_getElem? found
    | send peer packet => cases new
    | readBudget j => cases new
    | fire j => cases new
    | enableUdpReliability peer channel enabled => cases new
    | configureUdpRetransmission peer interval maxAttempts => cases new

theorem recorded_of_reaches {admits : Trace → Turn → Prop} {enabled : Peer → BitVec 16 → Option Bool}
    (reach : (traced link).Reaches admits (initial enabled) trace) : Recorded trace := by
  induction reach with
  | start =>
      intro k member
      cases member
  | next _ _ taken recorded => exact recorded.step taken

theorem delivered_ack {world world' : World} {peer : Peer} {k : Nat} {datagram : Datagram}
    (taken : World.step link world (.receive peer none (some k)) = some world')
    (found : world.udp[k]? = some datagram) (only : datagram.packet.ackOnly = true) :
    world'.delivered peer = world.delivered peer ↔
      (world.manager peer).isUdpReliable datagram.packet.header.channel = true := by
  simp only [World.step, World.poll, found, Option.bind_eq_bind, Option.bind_some, Option.bind_eq_some_iff,
    Option.some.injEq] at taken
  obtain ⟨udp, polled, rfl⟩ := taken
  split at polled
  · cases polled
    simp only [Function.update_self, List.append_right_eq_self, NetworkManager.receive, only, if_true]
    cases reliable : (world.manager peer).isUdpReliable datagram.packet.header.channel <;> simp
  · cases polled

theorem leaks_nil_iff (recorded : Recorded trace) {world : World}
    (taken : trace.world.step link action = some world) :
    trace.leaks world action = [] ↔ Filtered trace (.act action) := by
  cases action with
  | receive peer tcpChoice udpChoice =>
      cases tcpChoice with
      | some j => simp [leaks, Filtered]
      | none =>
          cases udpChoice with
          | none => simp [leaks, Filtered]
          | some k =>
              by_cases internal : k ∈ trace.acks
              · obtain ⟨datagram, found, only⟩ := recorded k internal
                simp [leaks, Filtered, internal, found, delivered_ack taken found only]
              · simp [leaks, Filtered, internal]
  | send peer packet => simp [leaks, Filtered]
  | readBudget j => simp [leaks, Filtered]
  | fire j => simp [leaks, Filtered]
  | enableUdpReliability peer channel enabled => simp [leaks, Filtered]
  | configureUdpRetransmission peer interval maxAttempts => simp [leaks, Filtered]

/-- The positions leaked by a filtered step, and by no other, are those before it. -/
theorem leaked_step_iff (recorded : Recorded trace) (taken : step link trace turn = some trace') :
    trace'.leaked = trace.leaked ↔ Filtered trace turn := by
  rcases step_cases taken with ⟨⟨peer, k, rfl⟩, -, -, same⟩ | ⟨action, rfl, moved, -, leaked⟩
  · exact ⟨fun _ => trivial, fun _ => same⟩
  · rw [leaked, List.append_right_eq_self]
    exact leaks_nil_iff recorded moved

/-- In runs whose steps are all filtered no internal acknowledgement reaches an application,
and a step of any run lets one through exactly when it is not filtered. -/
theorem leaked_nil_of_filtered (link : Link) (enabled : Peer → BitVec 16 → Option Bool) :
    (∀ trace, (traced link).Reaches Filtered (initial enabled) trace → trace.leaked = []) ∧
      ∀ trace turn trace', (traced link).Reaches (fun _ _ => True) (initial enabled) trace →
        (traced link).step trace turn = some trace' →
          (trace'.leaked = trace.leaked ↔ Filtered trace turn) := by
  constructor
  · intro trace reach
    induction reach with
    | start => rfl
    | next earlier allowed taken ih =>
        exact ((leaked_step_iff (recorded_of_reaches earlier) taken).mpr allowed).trans ih
  · intro trace turn trace' reach taken
    exact leaked_step_iff (recorded_of_reaches reach) taken

instance (trace : Trace) : (turn : Turn) → Decidable (Filtered trace turn)
  | .act (.receive peer none (some k)) => inferInstanceAs (Decidable (k ∈ trace.acks → ∀ datagram ∈ trace.world.udp[k]?,
      (trace.world.manager peer).isUdpReliable datagram.packet.header.channel = true))
  | .poll .. | .act (.receive _ (some _) _) | .act (.receive _ none none) | .act (.send ..) | .act (.readBudget _) |
    .act (.fire _) | .act (.enableUdpReliability ..) | .act (.configureUdpRetransmission ..) =>
      inferInstanceAs (Decidable True)

/-- A call of `receive` that polls a datagram and goes on with it. -/
def received (peer : Peer) (k : Nat) : List Turn := [.poll peer k, .act (.receive peer none (some k))]

/-- Both peers have every channel enabled, and the acknowledgement of a packet comes back. -/
def acknowledged : Trace :=
  (traced localLink).after Filtered (initial fun _ _ => some true)
    (.act (.send .a Host.reliablePacket) :: received .b 0 ++ received .a 1) (by decide)

theorem acknowledged_filtered : acknowledged.acks = [1] ∧ acknowledged.leaked = [] :=
  ⟨by decide, (leaked_nil_of_filtered localLink fun _ _ => some true).1 _ (System.reaches_after _)⟩

/-- Only the second peer has the channel enabled. -/
def oneSided : Peer → BitVec 16 → Option Bool
  | .a, _ => none
  | .b, _ => some true

/-- The second peer acknowledges an unreliable packet, and the first peer's application
gets the acknowledgement. -/
theorem ack_leaked :
    ((traced localLink).run (fun _ _ => True) (initial oneSided)
        (.act (.send .a { payload := [7] }) :: received .b 0 ++ received .a 1)).map
      (fun trace => (trace.acks, trace.leaked, (trace.world.delivered .a).map (·.2.header.flags))) =
        some ([1], [1], [.ack]) := by
  decide

end Trace

end SoulLib.Networking
