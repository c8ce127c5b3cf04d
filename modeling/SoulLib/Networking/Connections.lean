import SoulLib.Networking.Transport
import SoulLib.Semantics.Ownership
import SoulLib.Semantics.Runs

/-! TCP transports with their sockets, and the jobs that send and receive.

Every socket call of a job is a step of its own, and what the call returns is a choice
of the step. A job connects once, so connections are known by the job that sends. A
socket is a descriptor of some process; what closes it frees its number for others.
-/

set_option autoImplicit false

namespace SoulLib.Networking.Tcp

open SoulLib.Semantics (System)

/-- The stream from the client to the server, of which the server has taken some bytes. `broken` records that a call
of `send` did not take all of its data, and `torn` that a later one took some all the same. -/
structure Connection where
  client : Endpoint
  written : List Byte := []
  taken : Nat := 0
  broken : Bool := false
  torn : Bool := false
  finished : Bool := false
  deriving DecidableEq, Repr

namespace Connection

variable (connection : Connection)

/-- `send` takes some of the data, or fails and takes none. -/
def write (data : List Byte) (count : Nat) : Option Connection :=
  if count ≤ data.length then
    some { connection with
      written := connection.written ++ data.take count
      broken := connection.broken || decide (count < data.length)
      torn := connection.torn || (connection.broken && decide (0 < count)) }
  else none

/-- `recv` with `MSG_WAITALL` waits for all that it was asked for, unless the connection ends or breaks. -/
def read (count : Int) : Option (List Byte × Connection) :=
  let unread := connection.written.drop connection.taken
  if count.toNat ≤ unread.length ∨ connection.finished = true ∨ connection.broken = true then
    let (bytes, _) := recv unread count
    some (bytes, { connection with taken := connection.taken + bytes.length })
  else none

end Connection

/-- What a socket is. `bound` is one that was bound but could not listen, `other` one of other code. -/
inductive Descriptor where
  | stream
  | bound
  | listening (endpoint : Endpoint) (backlog : List Nat)
  | client (connection : Nat)
  | server (connection : Nat)
  | other
  deriving DecidableEq, Repr

variable {Socket : Type}

inductive SendState (Socket : Type) where
  | start
  | created (socket : Socket)
  | refused (socket : Socket)
  | connected (socket : Socket) (chunks : List (List Byte))
  | done
  deriving DecidableEq, Repr

structure SendJob (Socket : Type) where
  endpoint : Endpoint
  packet : Packet
  state : SendState Socket := .start
  deriving DecidableEq, Repr

/-- What `accept` has returned. -/
structure Accepted (Socket : Type) where
  socket : Socket
  connection : Nat
  client : Endpoint
  deriving DecidableEq, Repr

inductive ReceiveState (Socket : Type) where
  | start
  | ready
  | accepted (peer : Accepted Socket)
  | sized (peer : Accepted Socket) (payloadSize : BitVec 32)
  | headed (peer : Accepted Socket) (payloadSize : BitVec 32) (header : PacketHeader)
  | closing (socket : Socket) (result : Option (Endpoint × Packet))
  | done (result : Option (Endpoint × Packet))
  | thrown
  deriving DecidableEq, Repr

/-- Where an accepted connection comes from: its sender, and the address that was listened on. -/
structure Origin where
  connection : Nat
  endpoint : Endpoint
  deriving DecidableEq, Repr

/-- `origin` records which connection was accepted, and `failed` whether `recv` has reported an error or there was no
memory for the payload. -/
structure ReceiveJob (Socket : Type) where
  listenSocket : Socket
  state : ReceiveState Socket := .start
  origin : Option Origin := none
  failed : Bool := false
  deriving DecidableEq, Repr

/-- The transports are known by what they have in `m_listenSocket`. -/
structure Network (Socket : Type) where
  descriptors : Socket → Option Descriptor := fun _ => none
  transports : Nat → Option Socket := fun _ => none
  senders : Nat → Option (SendJob Socket) := fun _ => none
  receivers : Nat → Option (ReceiveJob Socket) := fun _ => none
  connections : Nat → Option Connection := fun _ => none

/-- The data of the three calls of `send`. -/
def chunks (order : ByteOrder) (packet : Packet) : List (List Byte) :=
  let size := BitVec.ofNat 32 packet.payload.length
  order.encode32 size :: packet.header.encode order ::
    if 0 < size then [packet.payload.take size.toInt.toNat] else []

namespace ReceiveState

variable (order : ByteOrder) (peer : Accepted Socket)

/-- What follows the first `recv`, of the payload size. -/
def afterSize (bytes : List Byte) : ReceiveState Socket :=
  if bytes.length ≤ 0 then .closing peer.socket none
  else .sized peer (order.decode32 (bytes ++ List.replicate (4 - bytes.length) 0))

def afterHeader (payloadSize : BitVec 32) (bytes : List Byte) : ReceiveState Socket :=
  if bytes.length ≤ 0 then .closing peer.socket none
  else if bytes.length ≠ PacketHeader.size then .closing peer.socket none
  else
    let header := PacketHeader.decode order bytes
    if 0 < payloadSize then .headed peer payloadSize header
    else .closing peer.socket (some (peer.client, { header, payload := [] }))

def afterBody (payloadSize : BitVec 32) (header : PacketHeader) (body : List Byte) : ReceiveState Socket :=
  if body.length ≤ 0 ∨ BitVec.ofNat 32 body.length ≠ payloadSize then .closing peer.socket none
  else .closing peer.socket (some (peer.client, { header, payload := body }))

/-- The connection that is read, how many bytes are asked for, and what follows. -/
def reading : ReceiveState Socket → Option (Accepted Socket × Int × (List Byte → ReceiveState Socket))
  | accepted peer => some (peer, 4, afterSize order peer)
  | sized peer payloadSize => some (peer, PacketHeader.size, afterHeader order peer payloadSize)
  | headed peer payloadSize header => some (peer, payloadSize.toInt, afterBody peer payloadSize header)
  | start | ready | closing _ _ | done _ | thrown => none

end ReceiveState

/-- What the program and its jobs do, with what their calls return, and after them what other code does. -/
inductive Call (Socket : Type) where
  | bind (transport : Nat) (endpoint : Endpoint) (created : Option Socket) (binds listens : Bool)
  | close (transport : Nat)
  | send (id : Nat) (endpoint : Endpoint) (packet : Packet)
  | receive (id transport : Nat) (created : Option Socket)
  | socket (id : Nat) (created : Option Socket)
  | connect (id : Nat) (listener : Option Socket) (client : Endpoint)
  | write (id count : Nat)
  | closeSender (id : Nat)
  | select (id : Nat) (isReady : Bool)
  | accept (id : Nat) (socket : Option Socket)
  | recv (id : Nat) (error : Bool)
  | resizeThrows (id : Nat)
  | closeReceiver (id : Nat)
  | openOther (socket : Socket)
  | closeOther (socket : Socket)
  deriving DecidableEq, Repr

namespace Network

variable [DecidableEq Socket] (network : Network Socket)

def setDescriptor (socket : Socket) (descriptor : Option Descriptor) : Network Socket :=
  { network with descriptors := Function.update network.descriptors socket descriptor }

def setSender (id : Nat) (job : SendJob Socket) (state : SendState Socket) : Network Socket :=
  { network with senders := Function.update network.senders id (some { job with state }) }

def setReceiver (id : Nat) (job : ReceiveJob Socket) : Network Socket :=
  { network with receivers := Function.update network.receivers id (some job) }

def setConnection (id : Nat) (connection : Connection) : Network Socket :=
  { network with connections := Function.update network.connections id (some connection) }

/-- A new descriptor has a number that is not in use. -/
def openSocket (socket : Socket) (descriptor : Descriptor) : Option (Network Socket) :=
  if network.descriptors socket = none then some (network.setDescriptor socket (some descriptor)) else none

def ensureSocketCreated (transport : Nat) (created : Option Socket) : Option (Network Socket × Option Socket) :=
  match network.transports transport, created with
  | some socket, _ => some (network, some socket)
  | none, none => some (network, none)
  | none, some socket =>
      (network.openSocket socket .stream).map fun opened =>
        ({ opened with transports := Function.update network.transports transport (some socket) }, some socket)

/-- A socket that is bound cannot be bound again. -/
def bind (transport : Nat) (endpoint : Endpoint) (created : Option Socket) (binds listens : Bool) :
    Option (Network Socket × Bool) := do
  let (network, listenSocket) ← network.ensureSocketCreated transport created
  match listenSocket with
  | none => return (network, false)
  | some socket =>
      if network.descriptors socket = some .stream ∧ binds = true then
        return (network.setDescriptor socket (some (if listens then .listening endpoint [] else .bound)), listens)
      else return (network, false)

def close (transport : Nat) : Network Socket :=
  match network.transports transport with
  | none => network
  | some socket =>
      { network.setDescriptor socket none with transports := Function.update network.transports transport none }

/-- `answers` tells for which destinations connections come to a socket that listens on an address. -/
def connect (answers : Endpoint → Endpoint → Bool) (id : Nat) (job : SendJob Socket) (socket listener : Socket)
    (client : Endpoint) (chunks : List (List Byte)) : Option (Network Socket) :=
  match network.descriptors listener with
  | some (.listening endpoint backlog) =>
      if answers endpoint job.endpoint then
        some ((((network.setDescriptor listener (some (.listening endpoint (backlog ++ [id])))).setDescriptor socket
          (some (.client id))).setConnection id { client }).setSender id job (.connected socket chunks))
      else none
  | _ => none

def accept (id : Nat) (job : ReceiveJob Socket) (socket : Socket) : Option (Network Socket) :=
  match network.descriptors job.listenSocket with
  | some (.listening endpoint (head :: backlog)) => do
      let connection ← network.connections head
      let opened ← network.openSocket socket (.server head)
      return (opened.setDescriptor job.listenSocket (some (.listening endpoint backlog))).setReceiver id
        { job with state := .accepted ⟨socket, head, connection.client⟩, origin := some ⟨head, endpoint⟩ }
  | _ => none

def recv (order : ByteOrder) (id : Nat) (job : ReceiveJob Socket) (error : Bool) : Option (Network Socket) := do
  let (peer, count, next) ← job.state.reading order
  if error then return network.setReceiver id { job with state := .closing peer.socket none, failed := true }
  else
    let connection ← network.connections peer.connection
    let (bytes, after) ← connection.read count
    return (network.setConnection peer.connection after).setReceiver id { job with state := next bytes }

variable (order : ByteOrder) (answers : Endpoint → Endpoint → Bool)

def stepSender (id : Nat) (job : SendJob Socket) : Call Socket → Option (Network Socket)
  | .socket _ created =>
      match job.state, created with
      | .start, none => some (network.setSender id job .done)
      | .start, some socket =>
          (network.openSocket socket .stream).map fun opened => opened.setSender id job (.created socket)
      | _, _ => none
  | .connect _ listener client =>
      match job.state, listener with
      | .created socket, none => some (network.setSender id job (.refused socket))
      | .created socket, some listener =>
          network.connect answers id job socket listener client (chunks order job.packet)
      | _, _ => none
  | .write _ count =>
      match job.state with
      | .connected socket (chunk :: chunks) => do
          let connection ← network.connections id
          let after ← connection.write chunk count
          return (network.setConnection id after).setSender id job (.connected socket chunks)
      | _ => none
  | .closeSender _ =>
      match job.state with
      | .refused socket => some ((network.setDescriptor socket none).setSender id job .done)
      | .connected socket [] => do
          let connection ← network.connections id
          return ((network.setDescriptor socket none).setConnection id { connection with finished := true }).setSender
            id job .done
      | _ => none
  | _ => none

def stepReceiver (id : Nat) (job : ReceiveJob Socket) : Call Socket → Option (Network Socket)
  | .select _ isReady =>
      match job.state with
      | .start => some (network.setReceiver id { job with state := if isReady then .ready else .done none })
      | _ => none
  | .accept _ socket =>
      match job.state, socket with
      | .ready, none => some (network.setReceiver id { job with state := .done none })
      | .ready, some socket => network.accept id job socket
      | _, _ => none
  | .recv _ error => network.recv order id job error
  -- Nothing closes the accepted socket then.
  | .resizeThrows _ =>
      match job.state with
      | .headed _ _ _ => some (network.setReceiver id { job with state := .thrown, failed := true })
      | _ => none
  | .closeReceiver _ =>
      match job.state with
      | .closing socket result =>
          some ((network.setDescriptor socket none).setReceiver id { job with state := .done result })
      | _ => none
  | _ => none

/-- A call of `receive` without a socket returns before there is a job. -/
def step (network : Network Socket) : Call Socket → Option (Network Socket)
  | .bind transport endpoint created binds listens =>
      (network.bind transport endpoint created binds listens).map Prod.fst
  | .close transport => some (network.close transport)
  | .send id endpoint packet =>
      if network.senders id = none then some (network.setSender id { endpoint, packet } .start) else none
  | .receive id transport created =>
      if network.receivers id = none then do
        let (opened, listenSocket) ← network.ensureSocketCreated transport created
        return listenSocket.elim opened fun listenSocket => opened.setReceiver id { listenSocket }
      else none
  | .openOther socket => network.openSocket socket .other
  | .closeOther socket =>
      if network.descriptors socket = some .other then some (network.setDescriptor socket none) else none
  | call@(.socket id _) | call@(.connect id _ _) | call@(.write id _) | call@(.closeSender id) =>
      (network.senders id).bind fun job => network.stepSender order answers id job call
  | call@(.select id _) | call@(.accept id _) | call@(.recv id _) | call@(.resizeThrows id)
  | call@(.closeReceiver id) =>
      (network.receivers id).bind fun job => network.stepReceiver order id job call

def system : System (Network Socket) (Call Socket) where
  step := step order answers

/-- Before the first transport there may be sockets of other code. -/
def begin (used : Socket → Bool) : Network Socket where
  descriptors socket := if used socket then some .other else none

def Reachable (used : Socket → Bool) (network : Network Socket) : Prop :=
  (system order answers).Reaches (fun _ _ => True) (begin used) network

theorem of_openSocket {network network' : Network Socket} {socket : Socket} {descriptor : Descriptor}
    (opens : network.openSocket socket descriptor = some network') :
    network.descriptors socket = none ∧ network' = network.setDescriptor socket (some descriptor) := by
  obtain ⟨free, same⟩ := Option.ite_none_right_eq_some.mp opens
  exact ⟨free, (Option.some.inj same).symm⟩

end Network

end SoulLib.Networking.Tcp
