import SoulLib.Semantics.Ownership
import SoulLib.Semantics.Runs

/-! The sockets of clients and time servers, and how often Winsock is started.

A connected client owns its socket and one start of Winsock, a server its listening
socket and one start, and the thread of a connection the socket of that connection.
Other code has sockets and starts of its own, and a number that was closed may be
given to any of them again.
-/

set_option autoImplicit false

namespace SoulLib.Network

open SoulLib.Semantics (System)
open SoulLib.Semantics.Ownership (Exclusive Owned)

/-- A client. Without a socket `clientSocket` is `INVALID_SOCKET` or not initialized. -/
structure ClientState (Socket : Type) where
  connected : Bool := false
  clientSocket : Option Socket := none
  deriving DecidableEq, Repr

def ClientState.owned {Socket : Type} (client : ClientState Socket) : Option Socket :=
  if client.connected then client.clientSocket else none

/-- Where `connectToServer` ends. -/
inductive Connect (Socket : Type) where
  | startupFails
  | socketFails
  | connectFails (socket : Socket)
  | connects (socket : Socket)
  deriving DecidableEq, Repr

/-- Where `start` ends, or that it comes to its accept loop. -/
inductive Start (Socket : Type) where
  | startupFails
  | socketFails
  | bindFails (socket : Socket)
  | listenFails (socket : Socket)
  | listens (socket : Socket)
  deriving DecidableEq, Repr

inductive SocketCall (Socket : Type) where
  | construct
  | connectToServer (client : Nat) (outcome : Connect Socket)
  | requestServerTime (client : Nat) (outcome : Connect Socket)
  | disconnectFromServer (client : Nat)
  | destroy (client : Nat)
  | start (outcome : Start Socket)
  | accept (socket : Socket)
  | handleClientDisconnection (handler : Nat)
  | openOther (socket : Socket)
  | closeOther (socket : Socket)
  | startOther
  | cleanupOther
  deriving DecidableEq, Repr

/-- A destroyed client and a connection that was closed are `none`. `foreign` and `theirs` record what other code has
started and opened and not yet given back. -/
structure Process (Socket : Type) where
  clients : List (Option (ClientState Socket)) := []
  servers : List Socket := []
  handlers : List (Option Socket) := []
  opened : Socket → Bool := fun _ => false
  startups : Nat := 0
  foreign : Nat := 0
  theirs : List Socket := []

namespace Process

variable {Socket : Type} (process : Process Socket)

section Calls

variable [DecidableEq Socket]

def wsaStartup : Process Socket := { process with startups := process.startups + 1 }

/-- The last one closes all sockets. -/
def wsaCleanup : Process Socket :=
  { process with
    startups := process.startups - 1
    opened := if process.startups ≤ 1 then fun _ => false else process.opened }

/-- The system gives a number that is not in use. -/
def socket (given : Socket) : Option (Process Socket) :=
  if process.opened given then none else some { process with opened := Function.update process.opened given true }

/-- Closing `INVALID_SOCKET` only fails. -/
def closesocket : Option Socket → Process Socket
  | none => process
  | some socket => { process with opened := Function.update process.opened socket false }

def setClient (index : Nat) (client : Option (ClientState Socket)) : Process Socket :=
  { process with clients := process.clients.set index client }

def connectToServer (index : Nat) (client : ClientState Socket) : Connect Socket → Option (Process Socket)
  | .startupFails => some process
  | .socketFails => some ((process.wsaStartup.setClient index (some { client with clientSocket := none })).wsaCleanup)
  | .connectFails clientSocket => do
      let process ← process.wsaStartup.socket clientSocket
      let process := process.setClient index (some { client with clientSocket := some clientSocket })
      return (process.closesocket (some clientSocket)).wsaCleanup
  | .connects clientSocket => do
      let process ← process.wsaStartup.socket clientSocket
      return process.setClient index (some { connected := true, clientSocket := some clientSocket })

def disconnectFromServer (index : Nat) (client : ClientState Socket) : Process Socket :=
  if client.connected then
    ((process.setClient index (some { client with connected := false })).closesocket client.clientSocket).wsaCleanup
  else process

def start : Start Socket → Option (Process Socket)
  | .startupFails => some process
  | .socketFails => some process.wsaStartup.wsaCleanup
  | .bindFails serverSocket | .listenFails serverSocket => do
      let process ← process.wsaStartup.socket serverSocket
      return (process.closesocket (some serverSocket)).wsaCleanup
  | .listens serverSocket => do
      let process ← process.wsaStartup.socket serverSocket
      return { process with servers := process.servers ++ [serverSocket] }

/-- A call is made on a client that is there, and a connection is accepted where a server listens. Other code has
started Winsock as long as it has sockets. -/
def step (process : Process Socket) : SocketCall Socket → Option (Process Socket)
  | .construct => some { process with clients := process.clients ++ [some {}] }
  | .connectToServer index outcome => do
      let client ← process.clients[index]?.join
      process.connectToServer index client outcome
  | .requestServerTime index outcome => do
      let client ← process.clients[index]?.join
      if client.connected then return process
      else process.connectToServer index client outcome
  | .disconnectFromServer index => process.clients[index]?.join.map (process.disconnectFromServer index)
  | .destroy index => process.clients[index]?.join.map fun _ => process.setClient index none
  | .start outcome => process.start outcome
  | .accept clientSocket =>
      if process.servers = [] then none
      else (process.socket clientSocket).map fun accepted =>
        { accepted with handlers := process.handlers ++ [some clientSocket] }
  | .handleClientDisconnection index =>
      process.handlers[index]?.join.map fun clientSocket =>
        { process with handlers := process.handlers.set index none }.closesocket (some clientSocket)
  | .openOther socket =>
      if process.foreign = 0 then none
      else (process.socket socket).map fun opened => { opened with theirs := socket :: process.theirs }
  | .closeOther socket =>
      if socket ∈ process.theirs then
        some { process.closesocket (some socket) with theirs := process.theirs.filter (· ≠ socket) }
      else none
  | .startOther => some { process.wsaStartup with foreign := process.foreign + 1 }
  | .cleanupOther =>
      if process.foreign = 0 ∨ process.foreign = 1 ∧ process.theirs ≠ [] then none
      else some { process.wsaCleanup with foreign := process.foreign - 1 }

def system : System (Process Socket) (SocketCall Socket) where
  step := step

/-- No client is connected again, or destroyed, while it is connected. -/
def Orderly : SocketCall Socket → Prop
  | .connectToServer index outcome =>
      outcome = .startupFails ∨ ∀ client, process.clients[index]? = some (some client) → client.connected = false
  | .destroy index => ∀ client, process.clients[index]? = some (some client) → client.connected = false
  | _ => True

end Calls

section Ledger

inductive Owner where
  | client (index : Nat)
  | server (index : Nat)
  | handler (index : Nat)
  deriving DecidableEq, Repr

def owns : Owner → Option Socket
  | .client index => process.clients[index]?.join.bind ClientState.owned
  | .server index => process.servers[index]?
  | .handler index => process.handlers[index]?.join

/-- How many clients are connected. -/
def connections : Nat := process.clients.countP fun client => client.any ClientState.connected

/-- Every open socket has one owner or is of other code. -/
structure Ledger : Prop where
  exclusive : Exclusive process.owns
  opened : ∀ socket, process.opened socket = true ↔ Owned process.owns socket ∨ socket ∈ process.theirs
  apart : ∀ socket, Owned process.owns socket → socket ∉ process.theirs

/-- And so has every start of Winsock. -/
structure Balanced : Prop where
  ledger : process.Ledger
  connected : ∀ (index : Nat) (client : ClientState Socket), process.clients[index]? = some (some client) →
    client.connected = true → client.clientSocket.isSome = true
  served : process.servers = [] → process.handlers = []
  hosted : process.foreign = 0 → process.theirs = []
  startups : process.startups = process.foreign + process.connections + process.servers.length

variable {process} {process' : Process Socket} {owner : Owner} {given : Socket}

theorem Ledger.same (ledger : process.Ledger) (owns : process'.owns = process.owns)
    (opened : process'.opened = process.opened) (theirs : process'.theirs = process.theirs) : process'.Ledger := by
  obtain ⟨exclusive, opens, apart⟩ := ledger
  constructor
  · rw [owns]
    exact exclusive
  · rw [owns, opened, theirs]
    exact opens
  · rw [owns, theirs]
    exact apart

/-- A socket that somebody loses without closing it belongs to nobody. -/
theorem Ledger.lost {taken : Option Socket} (ledger : process.Ledger) (after : process'.Ledger)
    (mine : process.owns owner = some given) (owns : process'.owns = Function.update process.owns owner taken)
    (differs : taken ≠ some given) (opened : process'.opened given = true)
    (theirs : process'.theirs = process.theirs) : False := by
  rcases (after.opened given).mp opened with owned | foreign
  · rw [owns, ledger.exclusive.owned_update] at owned
    rcases owned with now | ⟨-, other⟩
    · exact differs now
    · exact other mine
  · rw [theirs] at foreign
    exact ledger.apart given ⟨owner, mine⟩ foreign

variable [DecidableEq Socket]

theorem Ledger.opens (ledger : process.Ledger) (idle : process.owns owner = none) (free : process.opened given = false)
    (owns : process'.owns = Function.update process.owns owner (some given))
    (opened : process'.opened = Function.update process.opened given true) (theirs : process'.theirs = process.theirs) :
    process'.Ledger := by
  have closed : ¬(Owned process.owns given ∨ given ∈ process.theirs) := by
    rw [← ledger.opened, free]
    exact Bool.false_ne_true
  have exclusive := ledger.exclusive
  constructor
  · rw [owns]
    refine exclusive.update ?_
    rintro _ ⟨⟩
    exact fun owned => closed (.inl owned)
  · intro socket
    rw [owns, opened, theirs, exclusive.owned_update, idle]
    by_cases same : socket = given
    · simp [same]
    · simp [same, Ne.symm same, ledger.opened socket]
  · intro socket
    rw [owns, theirs, exclusive.owned_update, Option.some.injEq]
    rintro (rfl | ⟨owned, -⟩)
    · exact fun foreign => closed (.inr foreign)
    · exact ledger.apart socket owned

theorem Ledger.closes (ledger : process.Ledger) (mine : process.owns owner = some given)
    (owns : process'.owns = Function.update process.owns owner none)
    (opened : process'.opened = Function.update process.opened given false)
    (theirs : process'.theirs = process.theirs) : process'.Ledger := by
  have exclusive := ledger.exclusive
  constructor
  · rw [owns]
    exact exclusive.empty
  · intro socket
    rw [owns, opened, theirs, exclusive.owned_empty, mine]
    by_cases same : socket = given
    · subst same
      simp [ledger.apart socket ⟨owner, mine⟩]
    · simp [same, Ne.symm same, ledger.opened socket]
  · intro socket
    rw [owns, theirs, exclusive.owned_empty]
    exact fun owned => ledger.apart socket owned.1

end Ledger

section Effects

variable {process process' : Process Socket} {index : Nat} {client : ClientState Socket}

theorem owns_setClient (inside : index < process.clients.length) (client : Option (ClientState Socket)) :
    (process.setClient index client).owns =
      Function.update process.owns (.client index) (client.bind ClientState.owned) := by
  funext owner
  cases owner with
  | server other => rfl
  | handler other => rfl
  | client other =>
      by_cases same : other = index
      · subst same
        simp [owns, setClient, inside]
      · simp [owns, setClient, same, Ne.symm same]

theorem owns_client (there : process.clients[index]? = some (some client)) :
    process.owns (.client index) = client.owned := by
  simp [owns, there]

theorem connections_setClient (there : process.clients[index]? = some (some client))
    (next : Option (ClientState Socket)) : (process.setClient index next).connections + (if client.connected then 1 else 0) =
      process.connections + if next.any ClientState.connected then 1 else 0 := by
  obtain ⟨inside, here⟩ := List.getElem?_eq_some_iff.mp there
  have counted : (if client.connected then 1 else 0) ≤ process.connections := by
    split
    · next connected =>
        refine List.countP_pos_iff.mpr ⟨some client, ?_, connected⟩
        exact List.mem_of_getElem? there
    · exact Nat.zero_le _
  rw [connections, setClient, List.countP_set inside, here]
  simp only [Option.any_some]
  rw [connections] at counted ⊢
  omega

theorem wsaCleanup_eq (quiet : process.startups ≤ 1 → process.opened = fun _ => false) :
    process.wsaCleanup = { process with startups := process.startups - 1 } := by
  unfold wsaCleanup
  split
  · next last => rw [quiet last]
  · rfl

/-- Nothing is open before Winsock is started. -/
theorem Balanced.quiet (balanced : process.Balanced) (none : process.startups = 0) :
    process.opened = fun _ => false := by
  have startups := balanced.startups
  have noServer : process.servers = [] := List.eq_nil_of_length_eq_zero (by omega)
  funext socket
  rw [Bool.eq_false_iff]
  intro opened
  rcases (balanced.ledger.opened socket).mp opened with ⟨owner, mine⟩ | foreign
  · cases owner with
    | server index => simp [owns, noServer] at mine
    | handler index => simp [owns, balanced.served noServer] at mine
    | client index =>
        obtain ⟨client, there, owned⟩ := Option.bind_eq_some_iff.mp mine
        have here := Option.join_eq_some_iff.mp there
        have connected : client.connected = true := by
          by_contra idle
          simp [ClientState.owned, idle] at owned
        have counted : 0 < process.connections :=
          List.countP_pos_iff.mpr ⟨some client, List.mem_of_getElem? here, connected⟩
        omega
  · rw [balanced.hosted (by omega)] at foreign
    cases foreign

theorem Balanced.cleanup (balanced : Balanced { process with startups := process.startups - 1 }) :
    process.wsaCleanup.Balanced := by
  rw [wsaCleanup_eq]
  · exact balanced
  · intro last
    exact balanced.quiet (Nat.sub_eq_zero_of_le last)

theorem owned_of_idle (idle : client.connected = false) : client.owned = none := by
  simp [ClientState.owned, idle]

theorem Balanced.connected_set (balanced : process.Balanced) {next : Option (ClientState Socket)}
    (here : ∀ client, next = some client → client.connected = true → client.clientSocket.isSome = true) (index other : Nat)
    (client : ClientState Socket) (there : (process.clients.set index next)[other]? = some (some client))
    (connected : client.connected = true) : client.clientSocket.isSome = true := by
  by_cases same : index = other
  · subst same
    rw [List.getElem?_set_self'] at there
    obtain ⟨_, -, rfl⟩ := Option.map_eq_some_iff.mp there
    exact here client rfl connected
  · rw [List.getElem?_set_ne same] at there
    exact balanced.connected other client there connected

theorem Balanced.setClient (balanced : process.Balanced) (there : process.clients[index]? = some (some client))
    (idle : client.connected = false) {next : Option (ClientState Socket)}
    (asleep : next.any ClientState.connected = false) : (process.setClient index next).Balanced := by
  have inside := (List.getElem?_eq_some_iff.mp there).1
  have nothing : next.bind ClientState.owned = none := by
    rw [Option.bind_eq_none_iff]
    rintro client rfl
    exact owned_of_idle asleep
  have owns : (process.setClient index next).owns = process.owns := by
    rw [owns_setClient inside, nothing, ← owned_of_idle idle, ← owns_client there, Function.update_eq_self]
  have count := connections_setClient there next
  rw [idle, asleep] at count
  refine ⟨balanced.ledger.same owns rfl rfl, ?_, balanced.served, balanced.hosted, ?_⟩
  · apply balanced.connected_set
    rintro client rfl connected
    rw [Option.any_some, connected] at asleep
    cases asleep
  · have startups := balanced.startups
    exact startups.trans (by simpa [Process.setClient] using count.symm)

theorem getElem?_concat {α : Type} (list : List α) (last : α) (index : Nat) :
    (list ++ [last])[index]? = if index = list.length then some last else list[index]? := by
  by_cases same : index = list.length
  · simp [same]
  · rw [if_neg same, List.getElem?_append]
    split
    · rfl
    · next outside =>
        rw [List.getElem?_eq_none (by simp; omega), List.getElem?_eq_none (by omega)]

theorem Balanced.constructs (balanced : process.Balanced) :
    Balanced { process with clients := process.clients ++ [some {}] } := by
  refine ⟨balanced.ledger.same ?_ rfl rfl, ?_, balanced.served, balanced.hosted, ?_⟩
  · funext owner
    cases owner with
    | server other => rfl
    | handler other => rfl
    | client other =>
        simp only [owns, getElem?_concat]
        by_cases same : other = process.clients.length
        · simp [same, ClientState.owned]
        · rw [if_neg same]
  · intro index client there connected
    rw [getElem?_concat] at there
    split at there
    · cases there
      cases connected
    · exact balanced.connected index client there connected
  · have startups := balanced.startups
    simpa [connections] using startups

section Opening

variable [DecidableEq Socket] {given : Socket}

theorem socket_eq_some : process.socket given = some process' ↔ process.opened given = false ∧
    process' = { process with opened := Function.update process.opened given true } := by
  unfold socket
  by_cases used : process.opened given = true
  · simp [used]
  · simp [used, eq_comm]

theorem update_opened (free : process.opened given = false) :
    Function.update (Function.update process.opened given true) given false = process.opened := by
  rw [Function.update_idem, ← free, Function.update_eq_self]

/-- What `connectToServer` leaves behind. -/
inductive Connected (process : Process Socket) (index : Nat) (client : ClientState Socket) :
    Connect Socket → Process Socket → Prop where
  | unchanged : Connected process index client .startupFails process
  | failed {outcome : Connect Socket} (differs : outcome ≠ .startupFails) (clientSocket : Option Socket)
      (free : ∀ socket, clientSocket = some socket → process.opened socket = false) :
      Connected process index client outcome (process.setClient index (some { client with clientSocket }))
  | connected {clientSocket : Socket} (free : process.opened clientSocket = false) :
      Connected process index client (.connects clientSocket)
        ({ process with
          opened := Function.update process.opened clientSocket true
          startups := process.startups + 1 }.setClient index (some ⟨true, some clientSocket⟩))

theorem connectToServer_cases {outcome : Connect Socket} (quiet : process.startups = 0 → process.opened = fun _ => false)
    (taken : process.connectToServer index client outcome = some process') :
    Connected process index client outcome process' := by
  -- The clean-up is that of the start at the beginning of the call.
  have cleaned (changed : Process Socket) (opened : changed.opened = process.opened)
      (startups : changed.startups = process.startups + 1) :
      changed.wsaCleanup = { changed with startups := process.startups } := by
    rw [wsaCleanup_eq, startups, Nat.add_sub_cancel]
    intro last
    rw [opened]
    exact quiet (by omega)
  cases outcome with
  | startupFails =>
      cases taken
      exact .unchanged
  | socketFails =>
      cases taken
      have same := cleaned (process.wsaStartup.setClient index (some { client with clientSocket := none })) rfl rfl
      rw [same]
      exact .failed (by simp) none fun _ nothing => by cases nothing
  | connectFails clientSocket =>
      obtain ⟨opened, called, taken⟩ := Option.bind_eq_some_iff.mp taken
      obtain ⟨free, rfl⟩ := socket_eq_some.mp called
      cases taken
      rw [cleaned]
      · have same : Function.update (Function.update process.opened clientSocket true) clientSocket false =
            process.opened := update_opened free
        simp only [closesocket, Process.setClient, wsaStartup, same]
        refine .failed ?_ (some clientSocket) ?_
        · exact fun impossible => by cases impossible
        · rintro _ ⟨⟩
          exact free
      · exact update_opened free
      · rfl
  | connects clientSocket =>
      obtain ⟨opened, called, taken⟩ := Option.bind_eq_some_iff.mp taken
      obtain ⟨free, rfl⟩ := socket_eq_some.mp called
      cases taken
      exact .connected free

theorem Balanced.connects (balanced : process.Balanced) (there : process.clients[index]? = some (some client))
    (idle : client.connected = false) (free : process.opened given = false) :
    ({ process with
      opened := Function.update process.opened given true
      startups := process.startups + 1 }.setClient index (some ⟨true, some given⟩)).Balanced := by
  have inside := (List.getElem?_eq_some_iff.mp there).1
  have count := connections_setClient there (some ⟨true, some given⟩)
  rw [idle] at count
  refine ⟨balanced.ledger.opens ?_ free (owns_setClient inside _) rfl rfl, ?_, balanced.served, balanced.hosted, ?_⟩
  · rw [owns_client there, owned_of_idle idle]
  · apply balanced.connected_set
    rintro _ ⟨⟩ -
    rfl
  · have startups := balanced.startups
    simp only [Process.setClient, connections] at count startups ⊢
    simp at count
    omega

theorem Balanced.disconnects (balanced : process.Balanced) (there : process.clients[index]? = some (some client)) :
    (process.disconnectFromServer index client).Balanced := by
  unfold disconnectFromServer
  split
  · next connected =>
      have inside := (List.getElem?_eq_some_iff.mp there).1
      obtain ⟨mine, held⟩ := Option.isSome_iff_exists.mp (balanced.connected index client there connected)
      have count := connections_setClient there (some ⟨false, some mine⟩)
      rw [connected] at count
      rw [held]
      refine Balanced.cleanup ⟨balanced.ledger.closes ?_ (owns_setClient inside _) rfl rfl, ?_, balanced.served,
        balanced.hosted, ?_⟩
      · rw [owns_client there, ClientState.owned, if_pos connected, held]
      · apply balanced.connected_set
        rintro _ ⟨⟩ impossible
        cases impossible
      · have startups := balanced.startups
        simp only [closesocket, Process.setClient, connections] at count startups ⊢
        simp at count
        omega
  · exact balanced

/-- `start` cleans up what it has opened, unless it comes to its accept loop. -/
theorem Balanced.starts (balanced : process.Balanced) {outcome : Start Socket}
    (taken : process.start outcome = some process') : process'.Balanced := by
  -- after a failed bind or listen both calls are undone
  have refused {serverSocket : Socket}
      (taken : ((process.wsaStartup.socket serverSocket).bind fun process =>
        some (process.closesocket (some serverSocket)).wsaCleanup) = some process') : process'.Balanced := by
    obtain ⟨opened, called, taken⟩ := Option.bind_eq_some_iff.mp taken
    obtain ⟨free, rfl⟩ := socket_eq_some.mp called
    cases taken
    have same : Function.update (Function.update process.opened serverSocket true) serverSocket false =
        process.opened := update_opened free
    apply Balanced.cleanup
    simp only [closesocket, wsaStartup, same, Nat.add_sub_cancel]
    exact balanced
  cases outcome with
  | startupFails =>
      cases taken
      exact balanced
  | socketFails =>
      cases taken
      exact Balanced.cleanup balanced
  | bindFails serverSocket => exact refused taken
  | listenFails serverSocket => exact refused taken
  | listens serverSocket =>
      obtain ⟨opened, called, taken⟩ := Option.bind_eq_some_iff.mp taken
      obtain ⟨free, rfl⟩ := socket_eq_some.mp called
      cases taken
      have idle : process.owns (.server process.servers.length) = none := by simp [owns]
      refine ⟨balanced.ledger.opens idle free ?_ rfl rfl, balanced.connected, ?_, balanced.hosted, ?_⟩
      -- the new server owns the listening socket, and nobody else changed
      · funext owner
        cases owner with
        | client other => simp [owns, wsaStartup]
        | handler other => simp [owns, wsaStartup]
        | server other =>
            simp only [owns, wsaStartup, getElem?_concat]
            by_cases same : other = process.servers.length <;> simp [same, owns]
      · exact fun none => by simp at none
      · have startups := balanced.startups
        simp only [wsaStartup, connections, List.length_append, List.length_singleton] at startups ⊢
        omega

theorem Balanced.accepts (balanced : process.Balanced) (listening : process.servers ≠ [])
    (free : process.opened given = false) :
    Balanced { process with
      opened := Function.update process.opened given true
      handlers := process.handlers ++ [some given] } := by
  have idle : process.owns (.handler process.handlers.length) = none := by simp [owns]
  refine ⟨balanced.ledger.opens idle free ?_ rfl rfl, balanced.connected, ?_, balanced.hosted, balanced.startups⟩
  · funext owner
    cases owner with
    | client other => simp [owns]
    | server other => simp [owns]
    | handler other =>
        simp only [owns, getElem?_concat]
        by_cases same : other = process.handlers.length <;> simp [same, owns]
  · exact fun none => absurd none listening

theorem Balanced.handles (balanced : process.Balanced) (there : process.handlers[index]? = some (some given)) :
    ({ process with handlers := process.handlers.set index none }.closesocket (some given)).Balanced := by
  have mine : process.owns (.handler index) = some given := by simp [owns, there]
  refine ⟨balanced.ledger.closes mine ?_ rfl rfl, balanced.connected, ?_, balanced.hosted, balanced.startups⟩
  · funext owner
    cases owner with
    | client other => simp [owns, closesocket]
    | server other => simp [owns, closesocket]
    | handler other =>
        by_cases same : other = index
        · subst same
          simp [owns, closesocket, List.getElem?_set_self', there]
        · simp [owns, closesocket, same, Ne.symm same]
  · intro none
    simp [closesocket, balanced.served none]

theorem Balanced.opensOther (balanced : process.Balanced) (started : process.foreign ≠ 0)
    (free : process.opened given = false) :
    Balanced { process with
      opened := Function.update process.opened given true
      theirs := given :: process.theirs } := by
  have closed : ¬(Owned process.owns given ∨ given ∈ process.theirs) := by
    rw [← balanced.ledger.opened, free]
    exact Bool.false_ne_true
  refine ⟨⟨balanced.ledger.exclusive, ?_, ?_⟩, balanced.connected, balanced.served, ?_, balanced.startups⟩
  · intro socket
    change Function.update process.opened given true socket = true ↔
      Owned process.owns socket ∨ socket ∈ given :: process.theirs
    by_cases same : socket = given
    · simp [same]
    · simp [same, balanced.ledger.opened socket]
  · intro socket (owned : Owned process.owns socket) member
    rcases List.mem_cons.mp member with rfl | before
    · exact closed (.inl owned)
    · exact balanced.ledger.apart socket owned before
  · exact fun none => absurd none started

theorem Balanced.closesOther (balanced : process.Balanced) (theirs : given ∈ process.theirs) :
    Balanced { process.closesocket (some given) with theirs := process.theirs.filter (· ≠ given) } := by
  refine ⟨⟨balanced.ledger.exclusive, ?_, ?_⟩, balanced.connected, balanced.served, ?_, balanced.startups⟩
  · intro socket
    change Function.update process.opened given false socket = true ↔
      Owned process.owns socket ∨ socket ∈ process.theirs.filter (· ≠ given)
    by_cases same : socket = given
    · subst same
      have unowned : ¬Owned process.owns socket := fun owned => balanced.ledger.apart socket owned theirs
      simp [unowned]
    · simp [same, balanced.ledger.opened socket]
  · intro socket (owned : Owned process.owns socket) member
    exact balanced.ledger.apart socket owned (List.mem_of_mem_filter member)
  · intro none
    rw [balanced.hosted none]
    rfl

theorem Balanced.step {call : SocketCall Socket} (balanced : process.Balanced) (orderly : process.Orderly call)
    (taken : process.step call = some process') : process'.Balanced := by
  -- `requestServerTime` connects as well, but only a client that is not connected.
  have connects {index : Nat} {client : ClientState Socket} {outcome : Connect Socket}
      (there : process.clients[index]? = some (some client))
      (orderly : outcome = .startupFails ∨ client.connected = false)
      (taken : process.connectToServer index client outcome = some process') : process'.Balanced := by
    cases connectToServer_cases balanced.quiet taken with
    | unchanged => exact balanced
    | failed differs clientSocket free =>
        exact balanced.setClient there (orderly.resolve_left differs) (orderly.resolve_left differs)
    | connected free => exact balanced.connects there (orderly.resolve_left fun same => by cases same) free
  cases call with
  | construct =>
      cases taken
      exact balanced.constructs
  | connectToServer index outcome =>
      obtain ⟨client, found, taken⟩ := Option.bind_eq_some_iff.mp taken
      have there := Option.join_eq_some_iff.mp found
      exact connects there (orderly.imp_right fun idle => idle client there) taken
  | requestServerTime index outcome =>
      obtain ⟨client, found, taken⟩ := Option.bind_eq_some_iff.mp taken
      have there := Option.join_eq_some_iff.mp found
      split at taken
      · cases taken
        exact balanced
      · next idle => exact connects there (.inr (Bool.eq_false_iff.mpr idle)) taken
  | disconnectFromServer index =>
      obtain ⟨client, found, rfl⟩ := Option.map_eq_some_iff.mp taken
      exact balanced.disconnects (Option.join_eq_some_iff.mp found)
  | destroy index =>
      obtain ⟨client, found, rfl⟩ := Option.map_eq_some_iff.mp taken
      have there := Option.join_eq_some_iff.mp found
      exact balanced.setClient there (orderly client there) rfl
  | start outcome => exact balanced.starts taken
  | accept clientSocket =>
      simp only [Process.step] at taken
      split at taken
      · cases taken
      · next listening =>
          obtain ⟨accepted, called, rfl⟩ := Option.map_eq_some_iff.mp taken
          obtain ⟨free, rfl⟩ := socket_eq_some.mp called
          exact balanced.accepts listening free
  | handleClientDisconnection index =>
      obtain ⟨clientSocket, found, rfl⟩ := Option.map_eq_some_iff.mp taken
      exact balanced.handles (Option.join_eq_some_iff.mp found)
  | openOther socket =>
      simp only [Process.step] at taken
      split at taken
      · cases taken
      · next started =>
          obtain ⟨opened, called, rfl⟩ := Option.map_eq_some_iff.mp taken
          obtain ⟨free, rfl⟩ := socket_eq_some.mp called
          exact balanced.opensOther started free
  | closeOther socket =>
      simp only [Process.step] at taken
      split at taken
      · next theirs =>
          cases taken
          exact balanced.closesOther theirs
      · cases taken
  | startOther =>
      cases taken
      refine ⟨balanced.ledger.same rfl rfl rfl, balanced.connected, balanced.served, ?_, ?_⟩
      · exact fun none => absurd none (Nat.succ_ne_zero _)
      · have startups := balanced.startups
        simp only [wsaStartup, connections] at startups ⊢
        omega
  | cleanupOther =>
      simp only [Process.step] at taken
      split at taken
      · cases taken
      · next allowed =>
          cases taken
          obtain ⟨started, hosted⟩ := not_or.mp allowed
          change Balanced (wsaCleanup { process with foreign := process.foreign - 1 })
          apply Balanced.cleanup
          refine ⟨balanced.ledger.same rfl rfl rfl, balanced.connected, balanced.served, ?_, ?_⟩
          · intro (last : process.foreign - 1 = 0)
            by_contra some
            exact hosted ⟨by omega, some⟩
          · have startups := balanced.startups
            simp only [connections] at startups ⊢
            omega

theorem Balanced.orderly {call : SocketCall Socket} (balanced : process.Balanced)
    (taken : process.step call = some process') (after : process'.Balanced) : process.Orderly call := by
  have mine {index : Nat} {client : ClientState Socket} (there : process.clients[index]? = some (some client))
      (connected : client.connected = true) : ∃ socket, process.owns (.client index) = some socket ∧
        process.opened socket = true := by
    obtain ⟨socket, held⟩ := Option.isSome_iff_exists.mp (balanced.connected index client there connected)
    have owned : process.owns (.client index) = some socket := by
      rw [owns_client there, ClientState.owned, if_pos connected, held]
    exact ⟨socket, owned, (balanced.ledger.opened socket).mpr (.inl ⟨_, owned⟩)⟩
  cases call with
  | connectToServer index outcome =>
      obtain ⟨client, found, taken⟩ := Option.bind_eq_some_iff.mp taken
      have there := Option.join_eq_some_iff.mp found
      have inside := (List.getElem?_eq_some_iff.mp there).1
      refine or_iff_not_imp_left.mpr fun started other otherThere => ?_
      obtain rfl : client = other := Option.some.inj (Option.some.inj (there.symm.trans otherThere))
      by_contra connected
      rw [Bool.not_eq_false] at connected
      obtain ⟨socket, owned, opened⟩ := mine there connected
      -- A socket that was not in use is not the one that the client has.
      have differs {given : Socket} (free : process.opened given = false) : given ≠ socket := by
        rintro rfl
        rw [opened] at free
        cases free
      cases connectToServer_cases balanced.quiet taken with
      | unchanged => exact started rfl
      | failed _ clientSocket free =>
          refine balanced.ledger.lost after.ledger owned (owns_setClient inside _) ?_ opened rfl
          intro same
          have kept : clientSocket = some socket := by simpa [ClientState.owned, connected] using same
          exact differs (free socket kept) rfl
      | @connected given free =>
          refine balanced.ledger.lost after.ledger owned (owns_setClient inside _) ?_ ?_ rfl
          · intro same
            exact differs free (by simpa [ClientState.owned] using same)
          · exact (Function.update_of_ne (differs free).symm _ _).trans opened
  | destroy index =>
      obtain ⟨client, found, rfl⟩ := Option.map_eq_some_iff.mp taken
      have there := Option.join_eq_some_iff.mp found
      have inside := (List.getElem?_eq_some_iff.mp there).1
      intro other otherThere
      obtain rfl : client = other := Option.some.inj (Option.some.inj (there.symm.trans otherThere))
      by_contra connected
      rw [Bool.not_eq_false] at connected
      obtain ⟨socket, owned, opened⟩ := mine there connected
      exact balanced.ledger.lost after.ledger owned (owns_setClient inside none) (by simp) opened rfl
  | _ => trivial

/-- Along a run every open socket and every start of Winsock has an owner who will give it back exactly if no client
is connected again, or destroyed, while it is connected. -/
theorem balanced_throughout_iff (calls : List (SocketCall Socket)) :
    system.Throughout Balanced ({} : Process Socket) calls ↔ system.Admitted Orderly ({} : Process Socket) calls := by
  have empty : ∀ owner, ({} : Process Socket).owns owner = none := by
    intro owner
    cases owner <;> rfl
  have initial : ({} : Process Socket).Balanced := by
    refine ⟨⟨?_, ?_, ?_⟩, ?_, fun _ => rfl, fun _ => rfl, rfl⟩
    · intro slot other socket mine
      cases (empty slot).symm.trans mine
    · intro socket
      have unowned : ¬Owned ({} : Process Socket).owns socket := by
        rintro ⟨owner, mine⟩
        cases (empty owner).symm.trans mine
      simp [unowned]
    · intro socket _ theirs
      cases theirs
    · intro index client there
      cases there
  have kept (before : Process Socket) (call : SocketCall Socket) (after : Process Socket) (_ : True)
      (_ : system.step before call = some after) : True := trivial
  refine System.throughout_iff_admitted kept ?_ trivial initial calls
  intro process call after _ balanced taken
  exact ⟨balanced.orderly taken, fun orderly => balanced.step orderly taken⟩

end Opening

end Effects

end Process

end SoulLib.Network
