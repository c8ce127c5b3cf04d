import SoulLib.Networking.Connections

/-! Which sockets are open while TCP transports and their jobs run.

A transport owns its listening socket, a job the socket of its connection. What a call
does to the sockets is one of three things: it opens one for the party that makes the
call, closes one of that party, or leaves owners and sockets as they are. A job that
throws is the exception: nobody owns its socket any more, and it stays open.
-/

set_option autoImplicit false

namespace SoulLib.Networking.Tcp

open SoulLib.Semantics (System)
open SoulLib.Semantics.Ownership (Exclusive Owned)

variable {Socket : Type} {order : ByteOrder} {answers : Endpoint → Endpoint → Bool}

inductive Owner where
  | transport (id : Nat)
  | sender (id : Nat)
  | receiver (id : Nat)
  deriving DecidableEq, Repr

def SendState.owned : SendState Socket → Option Socket
  | created socket | refused socket | connected socket _ => some socket
  | start | done => none

def ReceiveState.owned : ReceiveState Socket → Option Socket
  | accepted peer | sized peer _ | headed peer _ _ => some peer.socket
  | closing socket _ => some socket
  | start | ready | done _ | thrown => none

/-- Who makes the call. -/
def Call.actor : Call Socket → Option Owner
  | bind transport _ _ _ _ | close transport | receive _ transport _ => some (.transport transport)
  | send id _ _ | socket id _ | connect id _ _ | write id _ | closeSender id => some (.sender id)
  | select id _ | accept id _ | recv id _ | resizeThrows id | closeReceiver id => some (.receiver id)
  | openOther _ | closeOther _ => none

namespace Network

def owns (network : Network Socket) : Owner → Option Socket
  | .transport id => network.transports id
  | .sender id => (network.senders id).bind fun job => job.state.owned
  | .receiver id => (network.receivers id).bind fun job => job.state.owned

/-- The socket is open, and not one of other code. -/
def Ours (network : Network Socket) (socket : Socket) : Prop :=
  ∃ descriptor, network.descriptors socket = some descriptor ∧ descriptor ≠ .other

structure Ledger (network : Network Socket) : Prop where
  exclusive : Exclusive network.owns
  ours : ∀ {owner socket}, network.owns owner = some socket → network.Ours socket

/-- The sockets that are open have one owner each, and what is owned is open. -/
def Balanced (network : Network Socket) : Prop :=
  ∀ socket, network.Ours socket ↔ ∃! owner, network.owns owner = some socket

/-- What a call of a transport or of a job passes to `close_socket`. -/
def closing (network : Network Socket) : Call Socket → Option Socket
  | .close transport => network.transports transport
  | .closeSender id => (network.senders id).bind fun job =>
      match job.state with
      | .refused socket | .connected socket [] => some socket
      | _ => none
  | .closeReceiver id => (network.receivers id).bind fun job =>
      match job.state with
      | .closing socket _ => some socket
      | _ => none
  | _ => none

/-- Sockets of other code stay as they are. -/
def Spares (network network' : Network Socket) : Prop :=
  ∀ socket, network.descriptors socket = some .other → network'.descriptors socket = some .other

/-- What a call does that does not throw: who makes it, and what it closes. -/
inductive Effect (network network' : Network Socket) : Option Owner → Option Socket → Prop where
  | kept {actor : Option Owner} (owners : network'.owns = network.owns)
      (sockets : ∀ other, network'.Ours other ↔ network.Ours other) (spares : Spares network network') :
      Effect network network' actor none
  | opened (owner : Owner) (socket : Socket) (idle : network.owns owner = none)
      (free : network.descriptors socket = none)
      (owners : network'.owns = Function.update network.owns owner (some socket))
      (sockets : ∀ other, network'.Ours other ↔ other = socket ∨ network.Ours other) (spares : Spares network network') :
      Effect network network' (some owner) none
  | closed (owner : Owner) (socket : Socket) (mine : network.owns owner = some socket)
      (owners : network'.owns = Function.update network.owns owner none)
      (sockets : ∀ other, network'.Ours other ↔ network.Ours other ∧ other ≠ socket) (spares : Spares network network')
      (gone : network'.descriptors socket = none) : Effect network network' (some owner) (some socket)
  | foreign (owners : network'.owns = network.owns) (sockets : ∀ other, network'.Ours other ↔ network.Ours other) :
      Effect network network' none none

/-- What a call does that throws: a socket loses its owner. -/
structure Dropped (network network' : Network Socket) (owner : Owner) (socket : Socket) : Prop where
  mine : network.owns owner = some socket
  owners : network'.owns = Function.update network.owns owner none
  descriptors : network'.descriptors = network.descriptors

variable {network network' : Network Socket} {id : Nat} {socket other : Socket} {call : Call Socket}

theorem Ours.not_other (ours : network.Ours socket) : network.descriptors socket ≠ some .other := by
  obtain ⟨descriptor, found, differs⟩ := ours
  rw [found]
  exact fun same => differs (Option.some.inj same)

theorem spares_of_eq (same : network'.descriptors = network.descriptors) : Spares network network' := by
  intro socket other
  rw [same]
  exact other

theorem Spares.trans {middle : Network Socket} (first : Spares network middle) (rest : Spares middle network') :
    Spares network network' := fun socket other => rest socket (first socket other)

theorem Dropped.sockets {owner : Owner} (dropped : Dropped network network' owner socket) :
    network'.Ours other ↔ network.Ours other := by rw [Ours, dropped.descriptors, ← Ours]

theorem Ledger.effect {actor : Option Owner} {closes : Option Socket} (ledger : Ledger network)
    (effect : Effect network network' actor closes) : Ledger network' := by
  have same (owners : network'.owns = network.owns) (sockets : ∀ other, network'.Ours other ↔ network.Ours other) :
      Ledger network' := by
    refine ⟨owners ▸ ledger.exclusive, fun {owner socket} owned => (sockets socket).mpr ?_⟩
    rw [owners] at owned
    exact ledger.ours owned
  cases effect with
  | kept owners sockets => exact same owners sockets
  | foreign owners sockets => exact same owners sockets
  | opened owner socket idle free owners sockets =>
      -- a descriptor that is free is nobody's, as owners hold open ones
      have unowned : ¬Owned network.owns socket := by
        rintro ⟨other, owned⟩
        obtain ⟨descriptor, found, -⟩ := ledger.ours owned
        cases free.symm.trans found
      constructor
      · rw [owners]
        refine ledger.exclusive.update ?_
        rintro _ ⟨⟩
        exact unowned
      · intro holder held owned
        rw [owners, Function.update_apply] at owned
        split at owned
        · exact (sockets held).mpr (.inl (Option.some.inj owned).symm)
        · exact (sockets held).mpr (.inr (ledger.ours owned))
  | closed owner socket mine owners sockets =>
      constructor
      · rw [owners]
        exact ledger.exclusive.empty
      · intro holder held owned
        rw [owners, Function.update_apply] at owned
        split at owned
        · cases owned
        · next differs =>
            refine (sockets held).mpr ⟨ledger.ours owned, ?_⟩
            -- nobody else holds the one that is closed
            rintro rfl
            exact differs (ledger.exclusive _ _ _ owned mine)

theorem Ledger.dropped {owner : Owner} (ledger : Ledger network) (dropped : Dropped network network' owner socket) :
    Ledger network' := by
  constructor
  · rw [dropped.owners]
    exact ledger.exclusive.empty
  · intro holder held owned
    rw [dropped.owners, Function.update_apply] at owned
    split at owned
    · cases owned
    · exact dropped.sockets.mpr (ledger.ours owned)

theorem Ledger.balanced_iff (ledger : Ledger network) :
    network.Balanced ↔ ∀ socket, network.Ours socket → Owned network.owns socket := by
  refine forall_congr' fun socket => ?_
  rw [ledger.exclusive.existsUnique_iff]
  refine ⟨Iff.mp, fun owned => ⟨owned, ?_⟩⟩
  rintro ⟨owner, mine⟩
  exact ledger.ours mine

/-- Nothing is lost by a call that does not throw. -/
theorem Ledger.balanced_effect {actor : Option Owner} {closes : Option Socket} (ledger : Ledger network)
    (effect : Effect network network' actor closes) (balanced : network.Balanced) : network'.Balanced := by
  rw [(ledger.effect effect).balanced_iff]
  rw [ledger.balanced_iff] at balanced
  intro held ours
  cases effect with
  | kept owners sockets =>
      rw [owners]
      exact balanced held ((sockets held).mp ours)
  | foreign owners sockets =>
      rw [owners]
      exact balanced held ((sockets held).mp ours)
  | opened owner socket idle free owners sockets =>
      rw [owners, ledger.exclusive.owned_update, idle]
      rcases (sockets held).mp ours with rfl | before
      · exact .inl rfl
      · exact .inr ⟨balanced held before, by simp⟩
  | closed owner socket mine owners sockets =>
      obtain ⟨before, differs⟩ := (sockets held).mp ours
      rw [owners, ledger.exclusive.owned_empty, mine]
      exact ⟨balanced held before, fun same => differs (Option.some.inj same).symm⟩

theorem Ledger.unbalanced_dropped {owner : Owner} (ledger : Ledger network)
    (dropped : Dropped network network' owner socket) : ¬network'.Balanced := by
  rw [(ledger.dropped dropped).balanced_iff]
  intro balanced
  have owned := balanced socket (dropped.sockets.mpr (ledger.ours dropped.mine))
  rw [dropped.owners, ledger.exclusive.owned_empty] at owned
  exact owned.2 dropped.mine

section Parts

@[simp] theorem owns_setSender (job : SendJob Socket) (state : SendState Socket) :
    (network.setSender id job state).owns = Function.update network.owns (.sender id) state.owned := by
  funext owner
  cases owner with
  | transport index => rfl
  | receiver index => rfl
  | sender index =>
      by_cases same : index = id
      · subst same
        simp [owns, setSender]
      · simp [owns, setSender, same]

@[simp] theorem owns_setReceiver (job : ReceiveJob Socket) :
    (network.setReceiver id job).owns = Function.update network.owns (.receiver id) job.state.owned := by
  funext owner
  cases owner with
  | transport index => rfl
  | sender index => rfl
  | receiver index =>
      by_cases same : index = id
      · subst same
        simp [owns, setReceiver]
      · simp [owns, setReceiver, same]

theorem owns_transports (transport : Nat) (given : Option Socket) :
    owns { network with transports := Function.update network.transports transport given } =
      Function.update network.owns (.transport transport) given := by
  funext owner
  cases owner with
  | sender index => rfl
  | receiver index => rfl
  | transport index =>
      by_cases same : index = transport
      · subst same
        simp [owns]
      · simp [owns, same]

variable [DecidableEq Socket]

theorem ours_setDescriptor {descriptor : Descriptor} (ours : descriptor ≠ .other) :
    (network.setDescriptor socket (some descriptor)).Ours other ↔ other = socket ∨ network.Ours other := by
  unfold Ours setDescriptor
  by_cases same : other = socket
  · subst same
    simp [ours]
  · simp [same]

theorem ours_setDescriptor_none :
    (network.setDescriptor socket none).Ours other ↔ network.Ours other ∧ other ≠ socket := by
  unfold Ours setDescriptor
  by_cases same : other = socket
  · subst same
    simp
  · simp [same]

theorem spares_setDescriptor (descriptor : Option Descriptor) (before : network.descriptors socket ≠ some .other) :
    Spares network (network.setDescriptor socket descriptor) := by
  intro other foreign
  have differs : other ≠ socket := by
    rintro rfl
    exact before foreign
  exact (Function.update_of_ne differs _ _).trans foreign

theorem ours_changed {descriptor : Descriptor} (ours : descriptor ≠ .other) (before : network.Ours socket) :
    (network.setDescriptor socket (some descriptor)).Ours other ↔ network.Ours other := by
  rw [ours_setDescriptor ours]
  constructor
  · rintro (rfl | already)
    · exact before
    · exact already
  · exact .inr

end Parts

/-- A call goes on without a change of owners or open sockets. -/
theorem Effect.andKept {middle : Network Socket} {owner : Owner} (effect : Effect network middle (some owner) none)
    (owners : network'.owns = middle.owns) (sockets : ∀ other, network'.Ours other ↔ middle.Ours other)
    (spares : Spares middle network') : Effect network network' (some owner) none := by
  cases effect with
  | kept before same spared =>
      exact .kept (owners.trans before) (fun other => (sockets other).trans (same other)) (spared.trans spares)
  | opened _ socket idle free before same spared =>
      exact .opened owner socket idle free (owners.trans before) (fun other => (sockets other).trans (same other))
        (spared.trans spares)

section Effects

theorem effect_sender_kept {job : SendJob Socket} {state : SendState Socket} (connections : Nat → Option Connection)
    (here : network.senders id = some job) (same : state.owned = job.state.owned) :
    Effect network (setSender { network with connections } id job state) (some (.sender id)) none := by
  have mine : network.owns (.sender id) = state.owned := by rw [owns, here, Option.bind_some, same]
  refine .kept ?_ (fun _ => Iff.rfl) (spares_of_eq rfl)
  rw [owns_setSender, ← mine]
  exact Function.update_eq_self _ _

theorem effect_receiver_kept {job after : ReceiveJob Socket} (connections : Nat → Option Connection)
    (here : network.receivers id = some job) (same : after.state.owned = job.state.owned) :
    Effect network (setReceiver { network with connections } id after) (some (.receiver id)) none := by
  have mine : network.owns (.receiver id) = after.state.owned := by rw [owns, here, Option.bind_some, same]
  refine .kept ?_ (fun _ => Iff.rfl) (spares_of_eq rfl)
  rw [owns_setReceiver, ← mine]
  exact Function.update_eq_self _ _

theorem owned_next {state : ReceiveState Socket} {peer : Accepted Socket} {count : Int}
    {next : List Byte → ReceiveState Socket} (reading : state.reading order = some (peer, count, next))
    (bytes : List Byte) : state.owned = some peer.socket ∧ (next bytes).owned = some peer.socket := by
  cases state with
  | accepted other =>
      cases reading
      unfold ReceiveState.afterSize
      split <;> exact ⟨rfl, rfl⟩
  | sized other payloadSize =>
      cases reading
      unfold ReceiveState.afterHeader
      split_ifs <;> exact ⟨rfl, rfl⟩
  | headed other payloadSize header =>
      cases reading
      unfold ReceiveState.afterBody
      split <;> exact ⟨rfl, rfl⟩
  | start => cases reading
  | ready => cases reading
  | closing socket result => cases reading
  | done result => cases reading
  | thrown => cases reading

variable [DecidableEq Socket]

theorem effect_ensure {transport : Nat} {created listenSocket : Option Socket}
    (ensured : network.ensureSocketCreated transport created = some (network', listenSocket)) :
    Effect network network' (some (.transport transport)) none := by
  unfold ensureSocketCreated at ensured
  split at ensured
  · cases ensured
    exact .kept rfl (fun _ => Iff.rfl) (spares_of_eq rfl)
  · cases ensured
    exact .kept rfl (fun _ => Iff.rfl) (spares_of_eq rfl)
  · next socket unset =>
      obtain ⟨opened, opens, same⟩ := Option.map_eq_some_iff.mp ensured
      cases same
      obtain ⟨free, rfl⟩ := of_openSocket opens
      exact .opened (.transport transport) socket unset free (owns_transports _ _)
        (fun other => ours_setDescriptor (by simp)) (spares_setDescriptor _ (by simp [free]))

theorem effect_bind {transport : Nat} {endpoint : Endpoint} {created : Option Socket} {binds listens result : Bool}
    (bound : network.bind transport endpoint created binds listens = some (network', result)) :
    Effect network network' (some (.transport transport)) none := by
  obtain ⟨⟨opened, listenSocket⟩, ensured, rest⟩ := Option.bind_eq_some_iff.mp bound
  cases listenSocket with
  | none =>
      cases rest
      exact effect_ensure ensured
  | some socket =>
      simp only at rest
      split at rest
      · next stream =>
          cases rest
          have ours : opened.Ours socket := ⟨_, stream.1, by simp⟩
          have kind : (if listens then Descriptor.listening endpoint [] else .bound) ≠ .other := by
            cases listens <;> simp
          exact (effect_ensure ensured).andKept rfl (fun other => ours_changed kind ours)
            (spares_setDescriptor _ ours.not_other)
      · cases rest
        exact effect_ensure ensured

theorem effect_connect (ledger : Ledger network) {job : SendJob Socket} {listener : Socket} {client : Endpoint}
    {chunks : List (List Byte)} (here : network.senders id = some job) (created : job.state = .created socket)
    (connected : network.connect answers id job socket listener client chunks = some network') :
    Effect network network' (some (.sender id)) none := by
  have mine : network.owns (.sender id) = some socket := by
    rw [owns, here, Option.bind_some, created]
    rfl
  simp only [connect] at connected
  split at connected
  · next endpoint backlog listening =>
      obtain ⟨-, same⟩ := Option.ite_none_right_eq_some.mp connected
      cases same
      have listener : network.Ours listener := ⟨_, listening, by simp⟩
      have listens (other : Socket) :
          (network.setDescriptor _ (some (.listening endpoint (backlog ++ [id])))).Ours other ↔
            network.Ours other := ours_changed (by simp) listener
      have own := (listens socket).mpr (ledger.ours mine)
      refine .kept ?_ (fun other => (ours_changed (by simp) own).trans (listens other)) ?_
      · rw [owns_setSender]
        exact (congrArg _ mine.symm).trans (Function.update_eq_self _ _)
      · exact (spares_setDescriptor _ listener.not_other).trans (spares_setDescriptor _ own.not_other)
  · cases connected

theorem effect_sender_closed (ledger : Ledger network) {job : SendJob Socket} (connections : Nat → Option Connection)
    (here : network.senders id = some job) (holds : job.state.owned = some socket) :
    Effect network (setSender { network.setDescriptor socket none with connections } id job .done)
      (some (.sender id)) (some socket) := by
  have mine : network.owns (.sender id) = some socket := by rw [owns, here, Option.bind_some, holds]
  exact .closed (.sender id) socket mine (owns_setSender _ _) (fun other => ours_setDescriptor_none)
    (spares_setDescriptor _ (ledger.ours mine).not_other) (Function.update_self _ _ _)

theorem effect_stepSender (ledger : Ledger network) {job : SendJob Socket} (here : network.senders id = some job)
    (own : call.actor = some (.sender id)) (done : network.stepSender order answers id job call = some network') :
    Effect network network' (some (.sender id)) (network.closing call) := by
  cases call <;> simp only [stepSender] at done <;> try cases done
  case socket created =>
    split at done
    · next state =>
        cases done
        exact effect_sender_kept _ here (by rw [state]; rfl)
    · next socket state =>
        obtain ⟨opened, opens, rfl⟩ := Option.map_eq_some_iff.mp done
        obtain ⟨free, rfl⟩ := of_openSocket opens
        -- the system picks a free descriptor, so the job becomes its only owner
        refine .opened (.sender id) socket ?_ free (owns_setSender _ _) (fun other => ours_setDescriptor (by simp))
          (spares_setDescriptor _ (by simp [free]))
        rw [owns, here, Option.bind_some, state]
        rfl
    · cases done
  case connect listener client =>
    split at done
    · next socket state =>
        cases done
        exact effect_sender_kept _ here (by rw [state]; rfl)
    · next socket listener state => exact effect_connect ledger here state done
    · cases done
  case write count =>
    split at done
    · next socket chunk chunks state =>
        obtain ⟨connection, found, rest⟩ := Option.bind_eq_some_iff.mp done
        obtain ⟨after, written, same⟩ := Option.bind_eq_some_iff.mp rest
        cases same
        exact effect_sender_kept _ here (by rw [state]; rfl)
    · cases done
  case closeSender index =>
    cases own
    split at done
    · next socket state =>
        cases done
        -- both ways to the end close the socket that the job holds
        have closes : network.closing (.closeSender id) = some socket := by
          rw [closing, here, Option.bind_some, state]
        rw [closes]
        exact effect_sender_closed ledger _ here (by rw [state]; rfl)
    · next socket state =>
        obtain ⟨connection, found, same⟩ := Option.bind_eq_some_iff.mp done
        cases same
        have closes : network.closing (.closeSender id) = some socket := by
          rw [closing, here, Option.bind_some, state]
        rw [closes]
        exact effect_sender_closed ledger _ here (by rw [state]; rfl)
    · cases done

theorem effect_accept {job : ReceiveJob Socket} (here : network.receivers id = some job) (ready : job.state = .ready)
    (accepted : network.accept id job socket = some network') :
    Effect network network' (some (.receiver id)) none := by
  simp only [accept] at accepted
  split at accepted
  · next endpoint head backlog listening =>
      obtain ⟨connection, connected, rest⟩ := Option.bind_eq_some_iff.mp accepted
      obtain ⟨opened, opens, same⟩ := Option.bind_eq_some_iff.mp rest
      cases same
      obtain ⟨free, rfl⟩ := of_openSocket opens
      have idle : network.owns (.receiver id) = none := by
        rw [owns, here, Option.bind_some, ready]
        rfl
      -- accept() opens one descriptor and only shortens the backlog of the listener
      have added (other : Socket) : (network.setDescriptor socket (some (.server head))).Ours other ↔
          other = socket ∨ network.Ours other := ours_setDescriptor (by simp)
      have listener := (added _).mpr (.inr ⟨_, listening, by simp⟩)
      exact .opened (.receiver id) socket idle free (owns_setReceiver _)
        (fun other => (ours_changed (by simp) listener).trans (added other))
        ((spares_setDescriptor _ (by simp [free])).trans (spares_setDescriptor _ listener.not_other))
  · cases accepted

theorem effect_stepReceiver (ledger : Ledger network) {job : ReceiveJob Socket} (here : network.receivers id = some job)
    (own : call.actor = some (.receiver id)) (returns : call ≠ .resizeThrows id)
    (done : network.stepReceiver order id job call = some network') :
    Effect network network' (some (.receiver id)) (network.closing call) := by
  cases call <;> simp only [stepReceiver] at done <;> try cases done
  case select isReady =>
    split at done
    · next state =>
        cases done
        refine effect_receiver_kept _ here ?_
        rw [state]
        cases isReady <;> rfl
    · cases done
  case accept socket =>
    split at done
    · next state =>
        cases done
        exact effect_receiver_kept _ here (by rw [state]; rfl)
    · next state => exact effect_accept here state done
    · cases done
  case recv error =>
    obtain ⟨⟨peer, count, next⟩, reading, rest⟩ := Option.bind_eq_some_iff.mp done
    simp only at rest
    split at rest
    · cases rest
      exact effect_receiver_kept _ here (owned_next reading []).1.symm
    · obtain ⟨found, there, rest⟩ := Option.bind_eq_some_iff.mp rest
      obtain ⟨⟨bytes, after⟩, read, taken⟩ := Option.bind_eq_some_iff.mp rest
      cases taken
      -- reading bytes leaves the accepted socket with the job
      obtain ⟨before, later⟩ := owned_next reading bytes
      exact effect_receiver_kept _ here (later.trans before.symm)
  case resizeThrows index =>
    cases own
    exact absurd rfl returns
  case closeReceiver index =>
    cases own
    split at done
    · next socket result state =>
        cases done
        have mine : network.owns (.receiver id) = some socket := by
          rw [owns, here, Option.bind_some, state]
          rfl
        have closes : network.closing (.closeReceiver id) = some socket := by
          rw [closing, here, Option.bind_some, state]
        rw [closes]
        exact .closed (.receiver id) socket mine (owns_setReceiver _) (fun other => ours_setDescriptor_none)
          (spares_setDescriptor _ (ledger.ours mine).not_other) (Function.update_self _ _ _)
    · cases done

theorem dropped_step (done : network.step order answers (.resizeThrows id) = some network') :
    ∃ socket, Dropped network network' (.receiver id) socket := by
  obtain ⟨job, here, done⟩ := Option.bind_eq_some_iff.mp done
  simp only [stepReceiver] at done
  split at done
  · next peer payloadSize header state =>
      cases done
      refine ⟨peer.socket, ?_, owns_setReceiver _, rfl⟩
      rw [owns, here, Option.bind_some, state]
      rfl
  · cases done

theorem effect_step (ledger : Ledger network) (returns : ∀ id, call ≠ .resizeThrows id)
    (done : network.step order answers call = some network') :
    Effect network network' call.actor (network.closing call) := by
  cases call with
  | bind transport endpoint created binds listens =>
      obtain ⟨⟨after, result⟩, bound, rfl⟩ := Option.map_eq_some_iff.mp done
      exact effect_bind bound
  | close transport =>
      cases done
      have closes : network.closing (.close transport) = network.transports transport := rfl
      rw [closes]
      unfold Network.close
      split
      · next unset =>
          rw [unset]
          exact .kept rfl (fun _ => Iff.rfl) (spares_of_eq rfl)
      · next socket held =>
          -- `close` forgets the socket that it closes.
          have mine : network.owns (.transport transport) = some socket := held
          rw [held]
          exact .closed (.transport transport) socket mine (owns_transports _ _) (fun other => ours_setDescriptor_none)
            (spares_setDescriptor _ (ledger.ours mine).not_other) (Function.update_self _ _ _)
  | send index endpoint packet =>
      obtain ⟨fresh, same⟩ := Option.ite_none_right_eq_some.mp done
      cases same
      have idle : network.owns (.sender index) = none := by rw [owns, fresh, Option.bind_none]
      refine .kept ?_ (fun _ => Iff.rfl) (spares_of_eq rfl)
      rw [owns_setSender]
      exact (congrArg _ idle.symm).trans (Function.update_eq_self _ _)
  | receive index transport created =>
      obtain ⟨fresh, rest⟩ := Option.ite_none_right_eq_some.mp done
      obtain ⟨⟨opened, listenSocket⟩, ensured, same⟩ := Option.bind_eq_some_iff.mp rest
      cases same
      cases listenSocket with
      | none => exact effect_ensure ensured
      | some socket =>
          have fresh : opened.receivers index = none := by
            unfold ensureSocketCreated at ensured
            split at ensured
            · cases ensured
              exact fresh
            · cases ensured
            · obtain ⟨middle, opens, same⟩ := Option.map_eq_some_iff.mp ensured
              cases same
              obtain ⟨-, rfl⟩ := of_openSocket opens
              exact fresh
          have idle : opened.owns (.receiver index) = none := by rw [owns, fresh, Option.bind_none]
          refine (effect_ensure ensured).andKept ?_ (fun _ => Iff.rfl) (spares_of_eq rfl)
          rw [Option.elim_some, owns_setReceiver]
          exact (congrArg _ idle.symm).trans (Function.update_eq_self _ _)
  | openOther socket =>
      obtain ⟨free, rfl⟩ := of_openSocket done
      refine .foreign rfl fun other => ?_
      unfold Ours setDescriptor
      by_cases same : other = socket
      · subst same
        simp [free]
      · simp [same]
  | closeOther socket =>
      obtain ⟨foreign, same⟩ := Option.ite_none_right_eq_some.mp done
      cases same
      refine .foreign rfl fun other => ?_
      unfold Ours setDescriptor
      by_cases same : other = socket
      · subst same
        simp [foreign]
      · simp [same]
  | socket index created =>
      obtain ⟨job, here, done⟩ := Option.bind_eq_some_iff.mp done
      exact effect_stepSender ledger here rfl done
  | connect index listener client =>
      obtain ⟨job, here, done⟩ := Option.bind_eq_some_iff.mp done
      exact effect_stepSender ledger here rfl done
  | write index count =>
      obtain ⟨job, here, done⟩ := Option.bind_eq_some_iff.mp done
      exact effect_stepSender ledger here rfl done
  | closeSender index =>
      obtain ⟨job, here, done⟩ := Option.bind_eq_some_iff.mp done
      exact effect_stepSender ledger here rfl done
  | select index isReady =>
      obtain ⟨job, here, done⟩ := Option.bind_eq_some_iff.mp done
      exact effect_stepReceiver ledger here rfl (returns index) done
  | accept index socket =>
      obtain ⟨job, here, done⟩ := Option.bind_eq_some_iff.mp done
      exact effect_stepReceiver ledger here rfl (returns index) done
  | recv index error =>
      obtain ⟨job, here, done⟩ := Option.bind_eq_some_iff.mp done
      exact effect_stepReceiver ledger here rfl (returns index) done
  | resizeThrows index => exact absurd rfl (returns index)
  | closeReceiver index =>
      obtain ⟨job, here, done⟩ := Option.bind_eq_some_iff.mp done
      exact effect_stepReceiver ledger here rfl (returns index) done

end Effects

section Runs

variable [DecidableEq Socket] {used : Socket → Bool}

omit [DecidableEq Socket] in
theorem ledger_begin : Ledger (begin used) where
  exclusive owner other socket owned := by cases owner <;> cases owned
  ours {owner socket} owned := by cases owner <;> cases owned

omit [DecidableEq Socket] in
theorem balanced_begin : Balanced (begin used) := by
  rw [ledger_begin.balanced_iff]
  rintro socket ⟨descriptor, found, differs⟩
  simp only [begin, Option.ite_none_right_eq_some, Option.some.injEq] at found
  exact absurd found.2.symm differs

theorem Ledger.step (ledger : Ledger network) (done : network.step order answers call = some network') :
    Ledger network' := by
  by_cases throws : ∃ id, call = .resizeThrows id
  · obtain ⟨id, rfl⟩ := throws
    obtain ⟨socket, dropped⟩ := dropped_step done
    exact ledger.dropped dropped
  · exact ledger.effect (effect_step ledger (fun id same => throws ⟨id, same⟩) done)

theorem Reachable.ledger (reach : Reachable order answers used network) : Ledger network :=
  reach.invariant ledger_begin fun _ _ _ _ ledger _ done => ledger.step done

/-- Along a run the sockets that are open and not of other code always have one owner each, and what is owned is open,
exactly if no payload throws. -/
theorem owned_throughout_iff (calls : List (Call Socket)) :
    (system order answers).Throughout Balanced (begin used) calls ↔
      (system order answers).Admitted (fun _ call => ∀ id, call ≠ .resizeThrows id) (begin used) calls := by
  refine System.throughout_iff_admitted (fun _ _ _ ledger done => ledger.step done) ?_ ledger_begin
    balanced_begin calls
  intro network call network' ledger balanced done
  constructor
  · rintro still id rfl
    have throws : network.step order answers (.resizeThrows id) = some network' := done
    obtain ⟨socket, dropped⟩ := dropped_step throws
    exact ledger.unbalanced_dropped dropped still
  · exact fun returns => ledger.balanced_effect (effect_step ledger returns done) balanced

/-- A payload without memory leaves the socket that was accepted to nobody. -/
example : ∃ network, (system .bigEndian (· == ·)).run (fun _ _ => True) (begin fun _ => false)
    [.bind 0 ⟨1, 2⟩ (some 3) true true, .send 7 ⟨1, 2⟩ { payload := [9] }, .socket 7 (some 4),
      .connect 7 (some 3) ⟨5, 6⟩, .receive 8 0 none, .select 8 true, .accept 8 (some 5), .write 7 4, .recv 8 false,
      .write 7 16, .recv 8 false, .resizeThrows 8] = some network ∧
    network.descriptors 5 = some (.server 7) ∧ network.owns (.receiver 8) = none := ⟨_, rfl, rfl, rfl⟩

/-- Whatever a call of a transport or a job closes is open, its own and nobody else's, and nothing else goes. -/
theorem closed_by_owner (reach : Reachable order answers used network) {owner : Owner}
    (acts : call.actor = some owner) (done : network.step order answers call = some network') (socket : Socket) :
    (network.closing call = some socket →
      network.Ours socket ∧ ∀ other, network.owns other = some socket ↔ other = owner) ∧
    (network.descriptors socket ≠ none →
      (network'.descriptors socket = none ↔ network.closing call = some socket)) := by
  have ledger := reach.ledger
  by_cases throws : ∃ id, call = .resizeThrows id
  · obtain ⟨id, rfl⟩ := throws
    obtain ⟨held, dropped⟩ := dropped_step done
    refine ⟨nofun, fun was => ?_⟩
    rw [dropped.descriptors]
    exact ⟨fun gone => absurd gone was, nofun⟩
  have effect := effect_step ledger (fun id same => throws ⟨id, same⟩) done
  rw [acts] at effect
  generalize network.closing call = closes at effect ⊢
  -- What stays one of ours or of other code does not go.
  have stays (spares : Spares network network') (ours : network.Ours socket → network'.Ours socket)
      (was : network.descriptors socket ≠ none) : network'.descriptors socket ≠ none := by
    obtain ⟨descriptor, found⟩ := Option.ne_none_iff_exists'.mp was
    by_cases foreign : descriptor = .other
    · rw [spares socket (foreign ▸ found)]
      exact Option.some_ne_none _
    · obtain ⟨after, now, -⟩ := ours ⟨descriptor, found, foreign⟩
      rw [now]
      exact Option.some_ne_none _
  cases effect with
  | kept owners sockets spares =>
      refine ⟨nofun, fun was => ⟨fun gone => ?_, nofun⟩⟩
      exact absurd gone (stays spares (sockets socket).mpr was)
  | opened _ other idle free owners sockets spares =>
      refine ⟨nofun, fun was => ⟨fun gone => ?_, nofun⟩⟩
      exact absurd gone (stays spares (fun ours => (sockets socket).mpr (.inr ours)) was)
  | closed _ other mine owners sockets spares shut =>
      constructor
      · intro same
        cases same
        refine ⟨ledger.ours mine, fun holder => ⟨fun held => ledger.exclusive _ _ _ held mine, ?_⟩⟩
        rintro rfl
        exact mine
      · refine fun was => ⟨fun gone => ?_, fun same => Option.some.inj same ▸ shut⟩
        by_contra differ
        have apart : socket ≠ other := fun same => differ (same ▸ rfl)
        exact stays spares (fun ours => (sockets socket).mpr ⟨ours, apart⟩) was gone

/-- The socket of a refused connection. -/
theorem refused_socket_closed :
    ∃ network, (system .bigEndian (· == ·)).run (fun _ _ => True) (begin fun socket => decide (socket < 3))
        [.send 7 ⟨1, 2⟩ {}, .socket 7 (some 4), .connect 7 none ⟨5, 6⟩] = some network ∧
      network.Ours 4 ∧ ∀ other, network.owns other = some 4 ↔ other = .sender 7 := by
  obtain ⟨network, ran, after, done, closes⟩ :
      ∃ network, (system .bigEndian (· == ·)).run (fun _ _ => True) (begin fun socket => decide (socket < 3))
          [.send 7 ⟨1, 2⟩ {}, .socket 7 (some 4), .connect 7 none ⟨5, 6⟩] = some network ∧
        ∃ after, network.step .bigEndian (· == ·) (.closeSender 7) = some after ∧
          network.closing (.closeSender 7) = some 4 := ⟨_, rfl, _, rfl, rfl⟩
  exact ⟨network, ran, (closed_by_owner (System.reaches_of_run ran) rfl done 4).1 closes⟩

end Runs

end Network

end SoulLib.Networking.Tcp
