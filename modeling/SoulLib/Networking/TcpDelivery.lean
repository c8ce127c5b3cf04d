import SoulLib.Networking.Connections

/-! What the jobs of TCP transports deliver, in any interleaving of their socket calls.

A job that receives computes, call by call, what `TcpTransport.receive` says of the
stream that the connection ends up with. Each connection is written by one job and read
by one job at most. The job that writes goes on after a call of `send` that failed, so
what is on a connection may be no packet any more.
-/

set_option autoImplicit false

namespace SoulLib.Networking.Tcp

open SoulLib.Semantics (System)

variable {Socket : Type} {order : ByteOrder} {answers : Endpoint → Endpoint → Bool}

namespace Connection

variable {connection after : Connection} {stream data bytes : List Byte}

/-- The stream is one that the connection may end up with. -/
def Yields (connection : Connection) (stream : List Byte) : Prop :=
  connection.written <+: stream ∧
    (connection.finished = true ∨ connection.broken = true → stream = connection.written)

theorem of_write {count : Nat} (written : connection.write data count = some after) (whole : after.torn = false) :
    count ≤ data.length ∧ connection.torn = false ∧ (connection.broken = true → count = 0) := by
  simp only [write, Option.ite_none_right_eq_some, Option.some.injEq] at written
  obtain ⟨within, rfl⟩ := written
  simp only [Bool.or_eq_false_iff, Bool.and_eq_false_iff, decide_eq_false_iff_not, Nat.not_lt, Nat.le_zero] at whole
  refine ⟨within, whole.1, fun broken => ?_⟩
  rcases whole.2 with intact | nothing
  · cases broken.symm.trans intact
  · exact nothing

theorem yields_of_write {count : Nat} (unfinished : connection.finished = false)
    (written : connection.write data count = some after) (whole : after.torn = false) (yields : after.Yields stream) :
    connection.Yields stream := by
  obtain ⟨-, -, quiet⟩ := of_write written whole
  simp only [write, Option.ite_none_right_eq_some, Option.some.injEq] at written
  obtain ⟨-, rfl⟩ := written
  refine ⟨(List.prefix_append _ _).trans yields.1, ?_⟩
  rintro (finished | broken)
  · cases finished.symm.trans unfinished
  · rw [yields.2 (.inr (by simp [broken])), quiet broken, List.take_zero, List.append_nil]

/-- What is read is the same whatever the connection ends up with. -/
theorem recv_of_read {count : Int} (read : connection.read count = some (bytes, after)) (yields : connection.Yields stream) :
    recv (stream.drop connection.taken) count = (bytes, stream.drop after.taken) := by
  simp only [Connection.read, recv, Option.ite_none_right_eq_some, Option.some.injEq, Prod.mk.injEq] at read
  obtain ⟨complete, rfl, rfl⟩ := read
  have same : (stream.drop connection.taken).take count.toNat =
      (connection.written.drop connection.taken).take count.toNat := by
    rcases complete with enough | ended
    · by_cases nothing : count.toNat = 0
      · simp [nothing]
      obtain ⟨later, rfl⟩ := yields.1
      rw [List.length_drop] at enough
      rw [List.drop_append_of_le_length (by omega), List.take_append_of_le_length (by rw [List.length_drop]; omega)]
    · rw [yields.2 ended]
  rw [recv, same, Prod.mk.injEq]
  refine ⟨rfl, ?_⟩
  simp only [List.drop_drop, ← same, List.length_take, List.length_drop]
  rcases Nat.le_total count.toNat (stream.length - connection.taken) with within | beyond
  · rw [Nat.min_eq_left within]
  · rw [Nat.min_eq_right beyond, List.drop_eq_nil_of_le (by omega), List.drop_eq_nil_of_le (by omega)]

end Connection

namespace ReceiveState

variable {peer : Accepted Socket}

def result : ReceiveState Socket → Option (Endpoint × Packet)
  | closing _ result | done result => result
  | _ => none

def finishBody (state : ReceiveState Socket) (stream : List Byte) : Option (Endpoint × Packet) :=
  match state with
  | headed peer payloadSize header => (afterBody peer payloadSize header (recv stream payloadSize.toInt).1).result
  | other => other.result

def finishHeader (order : ByteOrder) (state : ReceiveState Socket) (stream : List Byte) :
    Option (Endpoint × Packet) :=
  match state with
  | sized peer payloadSize =>
      let (bytes, stream) := recv stream PacketHeader.size
      finishBody (afterHeader order peer payloadSize bytes) stream
  | other => finishBody other stream

/-- What a job returns in the end if the rest of its connection is as given. -/
def finish (order : ByteOrder) (state : ReceiveState Socket) (stream : List Byte) : Option (Endpoint × Packet) :=
  match state with
  | accepted peer =>
      let (bytes, stream) := recv stream 4
      finishHeader order (afterSize order peer bytes) stream
  | other => finishHeader order other stream

theorem finish_afterSize (bytes stream : List Byte) :
    finish order (afterSize order peer bytes) stream = finishHeader order (afterSize order peer bytes) stream := by
  unfold afterSize
  split_ifs <;> rfl

theorem finish_afterHeader (payloadSize : BitVec 32) (bytes stream : List Byte) :
    finish order (afterHeader order peer payloadSize bytes) stream =
      finishBody (afterHeader order peer payloadSize bytes) stream := by
  unfold afterHeader
  split_ifs <;> rfl

theorem finish_afterBody (payloadSize : BitVec 32) (header : PacketHeader) (body stream : List Byte) :
    finish order (afterBody peer payloadSize header body) stream = (afterBody peer payloadSize header body).result := by
  unfold afterBody
  split_ifs <;> rfl

theorem finish_of_reading {state : ReceiveState Socket} {count : Int} {next : List Byte → ReceiveState Socket}
    (reading : state.reading order = some (peer, count, next)) (stream : List Byte) :
    state.finish order stream = (next (recv stream count).1).finish order (recv stream count).2 := by
  cases state with
  | accepted other =>
      cases reading
      exact (finish_afterSize _ _).symm
  | sized other payloadSize =>
      cases reading
      exact (finish_afterHeader payloadSize _ _).symm
  | headed other payloadSize header =>
      cases reading
      exact (finish_afterBody payloadSize header _ _).symm
  | start => cases reading
  | ready => cases reading
  | closing socket result => cases reading
  | done result => cases reading
  | thrown => cases reading

theorem finish_accepted (stream : List Byte) :
    (accepted peer).finish order stream = TcpTransport.receive order peer.client stream := by
  unfold finish TcpTransport.receive afterSize
  generalize recv stream 4 = sizes
  obtain ⟨sizeBytes, stream⟩ := sizes
  simp only
  split
  · rfl
  · unfold finishHeader afterHeader
    generalize recv stream PacketHeader.size = headers
    obtain ⟨headerBytes, stream⟩ := headers
    simp only
    split
    · rfl
    · split
      · rfl
      · split
        · unfold finishBody afterBody
          simp only
          split <;> rfl
        · rfl

theorem reading_next {state : ReceiveState Socket} {count : Int} {next : List Byte → ReceiveState Socket}
    (reading : state.reading order = some (peer, count, next)) (bytes : List Byte) :
    (∃ more, (next bytes).reading order = some (peer, more)) ∨ ∃ result, next bytes = closing peer.socket result := by
  cases state with
  | accepted other =>
      cases reading
      unfold afterSize
      split
      · exact .inr ⟨_, rfl⟩
      · exact .inl ⟨_, rfl⟩
  | sized other payloadSize =>
      cases reading
      unfold afterHeader
      split
      · exact .inr ⟨_, rfl⟩
      · split
        · exact .inr ⟨_, rfl⟩
        · simp only
          split
          · exact .inl ⟨_, rfl⟩
          · exact .inr ⟨_, rfl⟩
  | headed other payloadSize header =>
      cases reading
      unfold afterBody
      split <;> exact .inr ⟨_, rfl⟩
  | start => cases reading
  | ready => cases reading
  | closing socket result => cases reading
  | done result => cases reading
  | thrown => cases reading

theorem begun_next {state : ReceiveState Socket} {count : Int} {next : List Byte → ReceiveState Socket}
    (reading : state.reading order = some (peer, count, next)) (bytes : List Byte) :
    next bytes ≠ start ∧ next bytes ≠ ready := by
  rcases reading_next reading bytes with ⟨more, asks⟩ | ⟨result, closes⟩
  · constructor
    · intro early
      rw [early] at asks
      cases asks
    · intro early
      rw [early] at asks
      cases asks
  · constructor
    · intro early
      cases closes.symm.trans early
    · intro early
      cases closes.symm.trans early

theorem peer_next {state : ReceiveState Socket} {count : Int} {next : List Byte → ReceiveState Socket}
    {bytes : List Byte} {other : Accepted Socket} {more : Int × (List Byte → ReceiveState Socket)}
    (reading : state.reading order = some (peer, count, next)) (asks : (next bytes).reading order = some (other, more)) :
    peer = other := by
  rcases reading_next reading bytes with ⟨_, continues⟩ | ⟨result, closes⟩
  · exact (Prod.mk.inj (Option.some.inj (continues.symm.trans asks))).1
  · rw [closes] at asks
    cases asks

end ReceiveState

/-- What a job has written to a connection that it has not torn is the beginning of its packet, and all so far unless
the connection broke. -/
structure Writes (order : ByteOrder) (connection : Connection) (job : SendJob Socket) : Prop where
  stage : match job.state with
    | .connected _ _ => connection.finished = false
    | .done => connection.finished = true
    | _ => False
  start : connection.torn = false → connection.written <+: TcpTransport.send order job.packet
  less : connection.torn = false → connection.broken = true → connection.written ≠ TcpTransport.send order job.packet
  rest : connection.broken = false → match job.state with
    | .connected _ chunks => connection.written ++ chunks.flatten = TcpTransport.send order job.packet
    | _ => connection.written = TcpTransport.send order job.packet

/-- What a job has read goes on to what `TcpTransport.receive` makes of the whole connection, unless that is torn. -/
structure Reads (order : ByteOrder) (origin : Origin) (connection : Connection) (job : ReceiveJob Socket) : Prop where
  begun : job.state ≠ .start ∧ job.state ≠ .ready
  peer : ∀ peer more, job.state.reading order = some (peer, more) →
    job.failed = false ∧ peer.connection = origin.connection ∧ peer.client = connection.client
  finish : job.failed = false → connection.torn = false → ∀ stream, connection.Yields stream →
    TcpTransport.receive order connection.client stream = job.state.finish order (stream.drop connection.taken)
  failed : job.failed = true → job.state.result = none

/-- What has an accepted connection, or one that waits to be accepted. -/
inductive Holder (Socket : Type) where
  | listener (socket : Socket)
  | receiver (id : Nat)

namespace Network

def Holds (network : Network Socket) (id : Nat) : Holder Socket → Prop
  | .listener socket => ∃ endpoint backlog, network.descriptors socket = some (.listening endpoint backlog) ∧ id ∈ backlog
  | .receiver receiver =>
      ∃ job origin, network.receivers receiver = some job ∧ job.origin = some origin ∧ origin.connection = id

/-- The connection was made by a job for an address that the endpoint answers. -/
def Addressed (answers : Endpoint → Endpoint → Bool) (network : Network Socket) (endpoint : Endpoint) (id : Nat) : Prop :=
  (network.connections id).isSome ∧
    ∃ sender, network.senders id = some sender ∧ answers endpoint sender.endpoint = true

structure Delivery (order : ByteOrder) (answers : Endpoint → Endpoint → Bool) (network : Network Socket) : Prop where
  written : ∀ id connection, network.connections id = some connection →
    ∃ job, network.senders id = some job ∧ Writes order connection job
  waiting : ∀ id job, network.receivers id = some job → job.origin = none →
    job.failed = false ∧ (job.state = .start ∨ job.state = .ready ∨ job.state = .done none)
  received : ∀ id job origin, network.receivers id = some job → job.origin = some origin →
    ∃ connection, network.connections origin.connection = some connection ∧ Reads order origin connection job
  addressed : ∀ id job origin, network.receivers id = some job → job.origin = some origin →
    network.Addressed answers origin.endpoint origin.connection
  queued : ∀ socket endpoint backlog, network.descriptors socket = some (.listening endpoint backlog) →
    backlog.Nodup ∧ ∀ id ∈ backlog, network.Addressed answers endpoint id ∧
      ∀ connection, network.connections id = some connection → connection.taken = 0
  held : ∀ id holder other, network.Holds id holder → network.Holds id other → holder = other

variable {network network' : Network Socket} {id : Nat} {socket : Socket}

section Frames

theorem Delivery.descriptors (delivery : Delivery order answers network) {descriptors : Socket → Option Descriptor}
    (transports : Nat → Option Socket)
    (kept : ∀ socket endpoint backlog, descriptors socket = some (.listening endpoint backlog) →
      backlog = [] ∨ network.descriptors socket = some (.listening endpoint backlog)) :
    Delivery order answers { network with descriptors, transports } where
  written := delivery.written
  waiting := delivery.waiting
  received := delivery.received
  addressed := delivery.addressed
  queued := by
    intro socket endpoint backlog listening
    rcases kept socket endpoint backlog listening with rfl | before
    · exact ⟨List.nodup_nil, fun _ member => absurd member List.not_mem_nil⟩
    · exact delivery.queued socket endpoint backlog before
  held := by
    have before (id : Nat) (holder : Holder Socket) (holds : Holds { network with descriptors, transports } id holder) :
        network.Holds id holder := by
      cases holder with
      | listener socket =>
          obtain ⟨endpoint, backlog, listening, member⟩ := holds
          rcases kept socket endpoint backlog listening with rfl | before
          · cases member
          · exact ⟨endpoint, backlog, before, member⟩
      | receiver receiver => exact holds
    exact fun id holder other here there => delivery.held id holder other (before id holder here) (before id other there)

theorem Delivery.progress (delivery : Delivery order answers network) {connections : Nat → Option Connection}
    {job : SendJob Socket} {state : SendState Socket} (here : network.senders id = some job)
    (others : ∀ other ≠ id, connections other = network.connections other)
    (mine : ∀ connection, network.connections id = some connection → ∃ after, connections id = some after ∧
      after.client = connection.client ∧ after.taken = connection.taken ∧
      (after.torn = false → connection.torn = false ∧ ∀ stream, after.Yields stream → connection.Yields stream))
    (writes : ∀ after, connections id = some after → Writes order after { job with state }) :
    Delivery order answers (setSender { network with connections } id job state) := by
  -- Readers see the client, the bytes taken and what the stream can become; none of it is lost.
  have kept (other : Nat) (connection : Connection) (before : network.connections other = some connection) :
      ∃ after, connections other = some after ∧ after.client = connection.client ∧ after.taken = connection.taken ∧
        (after.torn = false → connection.torn = false ∧ ∀ stream, after.Yields stream → connection.Yields stream) := by
    by_cases same : other = id
    · exact same ▸ mine connection (same ▸ before)
    · exact ⟨connection, (others other same).trans before, rfl, rfl, fun whole => ⟨whole, fun _ yields => yields⟩⟩
  have addressed (endpoint : Endpoint) (other : Nat) (before : network.Addressed answers endpoint other) :
      Addressed answers (setSender { network with connections } id job state) endpoint other := by
    obtain ⟨connected, sender, made, answered⟩ := before
    obtain ⟨connection, found⟩ := Option.isSome_iff_exists.mp connected
    obtain ⟨after, now, -⟩ := kept other connection found
    refine ⟨Option.isSome_iff_exists.mpr ⟨after, now⟩, ?_⟩
    by_cases same : other = id
    · subst same
      obtain rfl : sender = job := Option.some.inj (made.symm.trans here)
      exact ⟨_, Function.update_self _ _ _, answered⟩
    · exact ⟨sender, (Function.update_of_ne same _ _).trans made, answered⟩
  constructor
  · intro other after now
    by_cases same : other = id
    · subst same
      exact ⟨_, Function.update_self _ _ _, writes after now⟩
    · obtain ⟨sender, made, written⟩ := delivery.written other after ((others other same).symm.trans now)
      exact ⟨sender, (Function.update_of_ne same _ _).trans made, written⟩
  · exact delivery.waiting
  · intro receiver reading origin found accepted
    obtain ⟨connection, before, reads⟩ := delivery.received receiver reading origin found accepted
    obtain ⟨after, now, client, taken, yields⟩ := kept _ connection before
    refine ⟨after, now, reads.begun, ?_, ?_, reads.failed⟩
    · intro peer more asks
      rw [client]
      exact reads.peer peer more asks
    · intro intact whole stream ends
      rw [client, taken]
      exact reads.finish intact (yields whole).1 stream ((yields whole).2 stream ends)
  · intro receiver reading origin found accepted
    exact addressed _ _ (delivery.addressed receiver reading origin found accepted)
  · intro socket endpoint backlog listening
    obtain ⟨nodup, before⟩ := delivery.queued socket endpoint backlog listening
    refine ⟨nodup, fun other member => ⟨addressed endpoint other (before other member).1, ?_⟩⟩
    intro after now
    obtain ⟨connected, untaken⟩ := before other member
    obtain ⟨connection, found⟩ := Option.isSome_iff_exists.mp connected.1
    obtain ⟨later, here, -, taken, -⟩ := kept other connection found
    rw [Option.some.inj (now.symm.trans here), taken]
    exact untaken connection found
  · exact delivery.held

theorem Delivery.setSender (delivery : Delivery order answers network) {job : SendJob Socket} {state : SendState Socket}
    (here : network.senders id = some job) (unconnected : network.connections id = none) :
    Delivery order answers (network.setSender id job state) := by
  refine delivery.progress here (fun _ _ => rfl) ?_ ?_
  · intro connection found
    cases unconnected.symm.trans found
  · intro connection found
    cases unconnected.symm.trans found

theorem Delivery.unconnected (delivery : Delivery order answers network) {job : SendJob Socket}
    (here : network.senders id = some job) (early : ∀ connection, ¬Writes order connection job) :
    network.connections id = none := by
  cases found : network.connections id with
  | none => rfl
  | some connection =>
      obtain ⟨sender, made, writes⟩ := delivery.written id connection found
      obtain rfl : sender = job := Option.some.inj (made.symm.trans here)
      exact absurd writes (early connection)

theorem Delivery.spawn (delivery : Delivery order answers network) (fresh : network.senders id = none)
    (job : SendJob Socket) (state : SendState Socket) : Delivery order answers (network.setSender id job state) := by
  have unconnected : network.connections id = none := by
    cases found : network.connections id with
    | none => rfl
    | some connection =>
        obtain ⟨sender, made, -⟩ := delivery.written id connection found
        cases fresh.symm.trans made
  have other {other : Nat} {sender : SendJob Socket} (made : network.senders other = some sender) :
      (network.setSender id job state).senders other = some sender := by
    have differs : other ≠ id := fun same => by cases fresh.symm.trans (same ▸ made)
    exact (Function.update_of_ne differs _ _).trans made
  have addressed (endpoint : Endpoint) (index : Nat) (before : network.Addressed answers endpoint index) :
      (network.setSender id job state).Addressed answers endpoint index := by
    obtain ⟨connected, sender, made, answered⟩ := before
    exact ⟨connected, sender, other made, answered⟩
  constructor
  · intro index connection found
    obtain ⟨sender, made, writes⟩ := delivery.written index connection found
    exact ⟨sender, other made, writes⟩
  · exact delivery.waiting
  · exact delivery.received
  · intro receiver reading origin found accepted
    exact addressed _ _ (delivery.addressed receiver reading origin found accepted)
  · intro socket endpoint backlog listening
    obtain ⟨nodup, before⟩ := delivery.queued socket endpoint backlog listening
    exact ⟨nodup, fun index member => ⟨addressed endpoint index (before index member).1, (before index member).2⟩⟩
  · exact delivery.held

theorem receivers_setReceiver {receiver : Nat} {job found : ReceiveJob Socket}
    (now : (network.setReceiver id job).receivers receiver = some found) :
    receiver = id ∧ found = job ∨ receiver ≠ id ∧ network.receivers receiver = some found := by
  simp only [setReceiver] at now
  by_cases same : receiver = id
  · rw [same, Function.update_self, Option.some.injEq] at now
    exact .inl ⟨same, now.symm⟩
  · rw [Function.update_of_ne same] at now
    exact .inr ⟨same, now⟩

theorem Delivery.setReceiver (delivery : Delivery order answers network) {after : ReceiveJob Socket}
    (waits : after.origin = none →
      after.failed = false ∧ (after.state = .start ∨ after.state = .ready ∨ after.state = .done none))
    (reads : ∀ origin, after.origin = some origin → ∃ job, network.receivers id = some job ∧ job.origin = some origin ∧
      ∀ connection, Reads order origin connection job → Reads order origin connection after) :
    Delivery order answers (network.setReceiver id after) := by
  -- every job of the new network reads at least what a job of the old one read
  have accepted (receiver : Nat) (found : ReceiveJob Socket) (origin : Origin)
      (now : (network.setReceiver id after).receivers receiver = some found) (accepts : found.origin = some origin) :
      ∃ job, network.receivers receiver = some job ∧ job.origin = some origin ∧
        ∀ connection, Reads order origin connection job → Reads order origin connection found := by
    rcases receivers_setReceiver now with ⟨rfl, rfl⟩ | ⟨-, before⟩
    · exact reads origin accepts
    · exact ⟨found, before, accepts, fun _ reading => reading⟩
  constructor
  · exact delivery.written
  · intro receiver found now waiting
    rcases receivers_setReceiver now with ⟨-, rfl⟩ | ⟨-, before⟩
    · exact waits waiting
    · exact delivery.waiting receiver found before waiting
  · intro receiver found origin now accepts
    obtain ⟨job, before, accepting, later⟩ := accepted receiver found origin now accepts
    obtain ⟨connection, connected, reading⟩ := delivery.received receiver job origin before accepting
    exact ⟨connection, connected, later connection reading⟩
  · intro receiver found origin now accepts
    obtain ⟨job, before, accepting, -⟩ := accepted receiver found origin now accepts
    exact delivery.addressed receiver job origin before accepting
  · exact delivery.queued
  · have earlier (index : Nat) (holder : Holder Socket) (holds : (network.setReceiver id after).Holds index holder) :
        network.Holds index holder := by
      -- a connection is held by a backlog or by the job that accepted it
      cases holder with
      | listener socket => exact holds
      | receiver receiver =>
          obtain ⟨found, origin, now, accepts, mine⟩ := holds
          obtain ⟨job, before, accepting, -⟩ := accepted receiver found origin now accepts
          exact ⟨job, origin, before, accepting, mine⟩
    exact fun index holder other one two => delivery.held index holder other (earlier _ _ one) (earlier _ _ two)

theorem Delivery.accept [DecidableEq Socket] (delivery : Delivery order answers network) {job : ReceiveJob Socket}
    (intact : job.failed = false) (accepted : network.accept id job socket = some network') :
    Delivery order answers network' := by
  simp only [Network.accept] at accepted
  split at accepted
  · next endpoint head backlog listening =>
      obtain ⟨connection, connected, rest⟩ := Option.bind_eq_some_iff.mp accepted
      obtain ⟨opened, opens, same⟩ := Option.bind_eq_some_iff.mp rest
      cases same
      obtain ⟨free, rfl⟩ := of_openSocket opens
      obtain ⟨nodup, queued⟩ := delivery.queued _ _ _ listening
      have differs : job.listenSocket ≠ socket := by
        rintro same
        cases (same ▸ listening).symm.trans free
      -- Two descriptors have changed; no other listener has.
      have listened (other : Socket) (answered : Endpoint) (waiting : List Nat)
          (now : Function.update (Function.update network.descriptors socket (some (.server head))) job.listenSocket
            (some (.listening endpoint backlog)) other = some (.listening answered waiting)) :
          other = job.listenSocket ∧ answered = endpoint ∧ waiting = backlog ∨
            other ≠ job.listenSocket ∧ network.descriptors other = some (.listening answered waiting) := by
        by_cases mine : other = job.listenSocket
        · rw [mine, Function.update_self] at now
          cases now
          exact .inl ⟨mine, rfl, rfl⟩
        · rw [Function.update_of_ne mine] at now
          by_cases new : other = socket
          · rw [new, Function.update_self] at now
            cases now
          · rw [Function.update_of_ne new] at now
            exact .inr ⟨mine, now⟩
      constructor
      · exact delivery.written
      · intro receiver found now waiting
        rcases receivers_setReceiver now with ⟨-, rfl⟩ | ⟨-, before⟩
        · cases waiting
        · exact delivery.waiting receiver found before waiting
      · intro receiver found origin now accepts
        rcases receivers_setReceiver now with ⟨-, rfl⟩ | ⟨-, before⟩
        · cases accepts
          refine ⟨connection, connected, ⟨by simp, ?_, ?_, ?_⟩⟩
          · intro peer more asks
            cases asks
            exact ⟨intact, rfl, rfl⟩
          · intro _ _ stream _
            rw [ReceiveState.finish_accepted, (queued head List.mem_cons_self).2 connection connected, List.drop_zero]
          · intro failed
            cases failed.symm.trans intact
        · exact delivery.received receiver found origin before accepts
      · intro receiver found origin now accepts
        rcases receivers_setReceiver now with ⟨-, rfl⟩ | ⟨-, before⟩
        · cases accepts
          exact (queued head List.mem_cons_self).1
        · exact delivery.addressed receiver found origin before accepts
      · intro other answered waiting now
        rcases listened other answered waiting now with ⟨-, rfl, rfl⟩ | ⟨-, before⟩
        · exact ⟨(List.nodup_cons.mp nodup).2, fun index member => queued index (List.mem_cons_of_mem _ member)⟩
        · exact delivery.queued other answered waiting before
      · -- Only the accepted connection has changed hands.
        have first : network.Holds head (.listener job.listenSocket) := ⟨endpoint, _, listening, List.mem_cons_self⟩
        have earlier (index : Nat) (holder : Holder Socket)
            (holds : Holds (((network.setDescriptor socket (some (.server head))).setDescriptor job.listenSocket
              (some (.listening endpoint backlog))).setReceiver id
              { job with state := .accepted ⟨socket, head, connection.client⟩, origin := some ⟨head, endpoint⟩ })
              index holder) :
            index = head ∧ holder = .receiver id ∨ index ≠ head ∧ network.Holds index holder := by
          cases holder with
          | listener other =>
              obtain ⟨answered, waiting, now, member⟩ := holds
              rcases listened other answered waiting now with ⟨rfl, rfl, rfl⟩ | ⟨mine, before⟩
              · refine .inr ⟨?_, _, _, listening, List.mem_cons_of_mem _ member⟩
                rintro rfl
                exact (List.nodup_cons.mp nodup).1 member
              · refine .inr ⟨?_, _, _, before, member⟩
                rintro rfl
                have there : network.Holds index (.listener other) := ⟨answered, waiting, before, member⟩
                cases delivery.held index _ _ first there
                exact mine rfl
          | receiver receiver =>
              obtain ⟨found, origin, now, accepts, rfl⟩ := holds
              rcases receivers_setReceiver now with ⟨rfl, rfl⟩ | ⟨-, before⟩
              · cases accepts
                exact .inl ⟨rfl, rfl⟩
              · refine .inr ⟨?_, found, origin, before, accepts, rfl⟩
                intro same
                have there : network.Holds head (.receiver receiver) := ⟨found, origin, before, accepts, same⟩
                cases delivery.held head _ _ first there
        intro index holder other one two
        rcases earlier index holder one with ⟨rfl, rfl⟩ | ⟨differ, here⟩
        · rcases earlier index other two with ⟨-, rfl⟩ | ⟨differ, -⟩
          · rfl
          · exact absurd rfl differ
        · rcases earlier index other two with ⟨same, -⟩ | ⟨-, there⟩
          · exact absurd same differ
          · exact delivery.held index holder other here there
  · cases accepted

theorem Delivery.read (delivery : Delivery order answers network) {job : ReceiveJob Socket} {origin : Origin}
    {connection after : Connection} {peer : Accepted Socket} {count : Int} {next : List Byte → ReceiveState Socket}
    {bytes : List Byte} (here : network.receivers id = some job) (accepted : job.origin = some origin)
    (connected : network.connections origin.connection = some connection) (reads : Reads order origin connection job)
    (reading : job.state.reading order = some (peer, count, next)) (read : connection.read count = some (bytes, after)) :
    Delivery order answers
      ((network.setConnection origin.connection after).setReceiver id { job with state := next bytes }) := by
  -- That the job holds the connection keeps every other job and queue away from it.
  have mine : network.Holds origin.connection (.receiver id) := ⟨job, origin, here, accepted, rfl⟩
  have given : after = { connection with taken := after.taken } := by
    simp only [Connection.read, Option.ite_none_right_eq_some, Option.some.injEq, Prod.mk.injEq] at read
    obtain ⟨-, -, rfl⟩ := read
    rfl
  have connections {index : Nat} {found : Connection}
      (now : (network.setConnection origin.connection after).connections index = some found) :
      index = origin.connection ∧ found = after ∨
        index ≠ origin.connection ∧ network.connections index = some found := by
    simp only [setConnection] at now
    by_cases same : index = origin.connection
    · rw [same, Function.update_self, Option.some.injEq] at now
      exact .inl ⟨same, now.symm⟩
    · rw [Function.update_of_ne same] at now
      exact .inr ⟨same, now⟩
  have addressed (endpoint : Endpoint) (index : Nat) (before : network.Addressed answers endpoint index) :
      (network.setConnection origin.connection after).Addressed answers endpoint index := by
    obtain ⟨connected, sender⟩ := before
    refine ⟨?_, sender⟩
    by_cases same : index = origin.connection
    · simp [setConnection, same]
    · simpa [setConnection, same] using connected
  have others {index : Nat} (differ : index ≠ origin.connection) :
      (network.setConnection origin.connection after).connections index = network.connections index :=
    Function.update_of_ne differ _ _
  constructor
  · intro index found now
    rcases connections now with ⟨rfl, rfl⟩ | ⟨-, before⟩
    · obtain ⟨sender, made, writes⟩ := delivery.written _ connection connected
      refine ⟨sender, made, ?_⟩
      rw [given]
      exact ⟨writes.stage, writes.start, writes.less, writes.rest⟩
    · exact delivery.written index found before
  · intro receiver found now waiting
    rcases receivers_setReceiver now with ⟨-, rfl⟩ | ⟨-, before⟩
    · cases accepted.symm.trans waiting
    · exact delivery.waiting receiver found before waiting
  · intro receiver found from_ now accepts
    rcases receivers_setReceiver now with ⟨-, rfl⟩ | ⟨differ, before⟩
    · obtain rfl : origin = from_ := Option.some.inj (accepted.symm.trans accepts)
      obtain ⟨intact, same, client⟩ := reads.peer _ _ reading
      refine ⟨after, Function.update_self _ _ _, ?_, ?_, ?_, ?_⟩
      · exact ReceiveState.begun_next reading bytes
      · intro other more asks
        obtain rfl := ReceiveState.peer_next reading asks
        exact ⟨intact, same, by rw [given]; exact client⟩
      · -- What was read so far and what is left to read still make up the same stream.
        intro _ whole stream yields
        have before : connection.Yields stream := by rwa [given] at yields
        have taken := Connection.recv_of_read read before
        have known := reads.finish intact (by rwa [given] at whole) stream before
        rw [ReceiveState.finish_of_reading reading, taken] at known
        rw [given]
        exact known
      · intro failed
        cases failed.symm.trans intact
    · obtain ⟨other, there, readsOther⟩ := delivery.received receiver found from_ before accepts
      have apart : from_.connection ≠ origin.connection := by
        intro same
        have again : network.Holds origin.connection (.receiver receiver) := ⟨found, from_, before, accepts, same⟩
        cases delivery.held _ _ _ mine again
        exact differ rfl
      exact ⟨other, (others apart).trans there, readsOther⟩
  · intro receiver found from_ now accepts
    rcases receivers_setReceiver now with ⟨-, rfl⟩ | ⟨-, before⟩
    · obtain rfl : origin = from_ := Option.some.inj (accepted.symm.trans accepts)
      exact addressed _ _ (delivery.addressed id job origin here accepted)
    · exact addressed _ _ (delivery.addressed receiver found from_ before accepts)
  · intro socket endpoint backlog listening
    obtain ⟨nodup, queued⟩ := delivery.queued socket endpoint backlog listening
    refine ⟨nodup, fun index member => ⟨addressed endpoint index (queued index member).1, ?_⟩⟩
    intro found now
    rcases connections now with ⟨rfl, -⟩ | ⟨-, before⟩
    · have again : network.Holds origin.connection (.listener socket) := ⟨endpoint, backlog, listening, member⟩
      cases delivery.held _ _ _ mine again
    · exact (queued index member).2 found before
  · have earlier (index : Nat) (holder : Holder Socket) (holds : Holds ((network.setConnection origin.connection
        after).setReceiver id { job with state := next bytes }) index holder) : network.Holds index holder := by
      cases holder with
      | listener socket => exact holds
      | receiver receiver =>
          obtain ⟨found, from_, now, accepts, rfl⟩ := holds
          rcases receivers_setReceiver now with ⟨rfl, rfl⟩ | ⟨-, before⟩
          · exact ⟨job, from_, here, accepts, rfl⟩
          · exact ⟨found, from_, before, accepts, rfl⟩
    exact fun index holder other one two => delivery.held index holder other (earlier _ _ one) (earlier _ _ two)

theorem Delivery.recv (delivery : Delivery order answers network) {job : ReceiveJob Socket} {error : Bool}
    (here : network.receivers id = some job) (received : network.recv order id job error = some network') :
    Delivery order answers network' := by
  obtain ⟨⟨peer, count, next⟩, reading, rest⟩ := Option.bind_eq_some_iff.mp received
  obtain ⟨origin, accepted⟩ : ∃ origin, job.origin = some origin := by
    cases waiting : job.origin with
    | some origin => exact ⟨origin, rfl⟩
    | none =>
        -- A job that waits for a connection does not read.
        rcases (delivery.waiting id job here waiting).2 with state | state | state <;>
          (rw [state] at reading; cases reading)
  obtain ⟨connection, connected, reads⟩ := delivery.received id job origin here accepted
  obtain ⟨intact, same, client⟩ := reads.peer _ _ reading
  simp only at rest
  split at rest
  · cases rest
    refine delivery.setReceiver (fun waiting => by cases accepted.symm.trans waiting) ?_
    intro from_ accepts
    refine ⟨job, here, accepts, fun other _ => ⟨by simp, ?_, ?_, fun _ => rfl⟩⟩
    · intro peer more asks
      cases asks
    · intro unfailed
      cases unfailed
  · obtain ⟨found, there, rest⟩ := Option.bind_eq_some_iff.mp rest
    obtain ⟨⟨bytes, after⟩, read, taken⟩ := Option.bind_eq_some_iff.mp rest
    cases taken
    rw [same] at there ⊢
    obtain rfl : connection = found := Option.some.inj (connected.symm.trans there)
    exact delivery.read here accepted connected reads reading read

theorem Delivery.write (delivery : Delivery order answers network) {job : SendJob Socket} {connection after : Connection}
    {chunk : List Byte} {chunks : List (List Byte)} {count : Nat} (here : network.senders id = some job)
    (connected : job.state = .connected socket (chunk :: chunks)) (found : network.connections id = some connection)
    (written : connection.write chunk count = some after) :
    Delivery order answers ((network.setConnection id after).setSender id job (.connected socket chunks)) := by
  obtain ⟨sender, made, writes⟩ := delivery.written id connection found
  obtain rfl : sender = job := Option.some.inj (made.symm.trans here)
  -- the job is still at its chunks, so the end of the stream was not written
  have unfinished : connection.finished = false := by
    have stage := writes.stage
    rwa [connected] at stage
  have rest : connection.broken = false →
      connection.written ++ (chunk :: chunks).flatten = TcpTransport.send order sender.packet := by
    have rest := writes.rest
    rwa [connected] at rest
  refine delivery.progress here (fun other differ => Function.update_of_ne differ _ _) ?_ ?_
  · intro before now
    obtain rfl : connection = before := Option.some.inj (found.symm.trans now)
    have same : after.client = connection.client ∧ after.taken = connection.taken := by
      simp only [Connection.write, Option.ite_none_right_eq_some, Option.some.injEq] at written
      obtain ⟨-, rfl⟩ := written
      exact ⟨rfl, rfl⟩
    refine ⟨after, Function.update_self _ _ _, same.1, same.2, fun whole => ⟨(Connection.of_write written whole).2.1, ?_⟩⟩
    exact fun stream => Connection.yields_of_write unfinished written whole
  · intro later now
    rw [Function.update_self, Option.some.injEq] at now
    subst now
    have quiet := Connection.of_write written
    simp only [Connection.write, Option.ite_none_right_eq_some, Option.some.injEq] at written
    obtain ⟨within, rfl⟩ := written
    refine ⟨unfinished, ?_, ?_, ?_⟩
    · intro whole
      obtain ⟨-, before, nothing⟩ := quiet whole
      -- after a failed or short send only the part before it counts
      cases broken : connection.broken with
      | true => simpa [nothing broken] using writes.start before
      | false =>
          rw [← rest broken, List.flatten_cons]
          exact (List.prefix_append_right_inj _).mpr ((List.take_prefix _ _).trans (List.prefix_append _ _))
    · intro whole breaks
      obtain ⟨-, before, nothing⟩ := quiet whole
      cases broken : connection.broken with
      | true => simpa [nothing broken] using writes.less before broken
      | false =>
          -- this very send is the short one: what is written stays below the packet
          have short : count < chunk.length := by simpa [broken] using breaks
          rw [← rest broken, List.flatten_cons]
          intro same
          have lengths := congrArg List.length same
          simp only [List.length_append, List.length_take] at lengths
          omega
    · intro intact
      simp only [Bool.or_eq_false_iff, decide_eq_false_iff_not, Nat.not_lt] at intact
      show connection.written ++ chunk.take count ++ chunks.flatten = _
      rw [← rest intact.1, List.flatten_cons, List.take_of_length_le intact.2, List.append_assoc]

theorem Delivery.finish (delivery : Delivery order answers network) {job : SendJob Socket} {connection : Connection}
    (here : network.senders id = some job) (connected : job.state = .connected socket [])
    (found : network.connections id = some connection) :
    Delivery order answers
      ((network.setConnection id { connection with finished := true }).setSender id job .done) := by
  obtain ⟨sender, made, writes⟩ := delivery.written id connection found
  obtain rfl : sender = job := Option.some.inj (made.symm.trans here)
  have rest : connection.broken = false →
      connection.written ++ [].flatten = TcpTransport.send order sender.packet := by
    have rest := writes.rest
    rwa [connected] at rest
  refine delivery.progress here (fun other differ => Function.update_of_ne differ _ _) ?_ ?_
  · intro before now
    obtain rfl : connection = before := Option.some.inj (found.symm.trans now)
    refine ⟨_, Function.update_self _ _ _, rfl, rfl, fun whole => ⟨whole, fun stream yields => ⟨yields.1, fun _ => ?_⟩⟩⟩
    exact yields.2 (.inl rfl)
  · intro later now
    rw [Function.update_self, Option.some.injEq] at now
    subst now
    refine ⟨rfl, writes.start, writes.less, fun intact => ?_⟩
    have complete := rest intact
    rwa [List.flatten_nil, List.append_nil] at complete

end Frames

variable [DecidableEq Socket]

theorem Delivery.setDescriptor (delivery : Delivery order answers network) (socket : Socket)
    (descriptor : Option Descriptor)
    (empty : ∀ endpoint backlog, descriptor = some (.listening endpoint backlog) → backlog = []) :
    Delivery order answers (network.setDescriptor socket descriptor) := by
  refine delivery.descriptors network.transports fun other endpoint backlog listening => ?_
  by_cases same : other = socket
  · rw [same, Function.update_self] at listening
    exact .inl (empty endpoint backlog listening)
  · rw [Function.update_of_ne same] at listening
    exact .inr listening


/-- A connection that nothing has yet waits to be accepted. -/
theorem Delivery.enqueue (delivery : Delivery order answers network) {listener : Socket} {endpoint : Endpoint}
    {backlog : List Nat} (listening : network.descriptors listener = some (.listening endpoint backlog))
    (id : Nat) (addressed : network.Addressed answers endpoint id)
    (untaken : ∀ connection, network.connections id = some connection → connection.taken = 0)
    (free : ∀ holder, ¬network.Holds id holder) :
    Delivery order answers (network.setDescriptor listener (some (.listening endpoint (backlog ++ [id])))) := by
  have listened {other : Socket} {answered : Endpoint} {waiting : List Nat}
      (now : (network.setDescriptor listener (some (.listening endpoint (backlog ++ [id])))).descriptors other =
        some (.listening answered waiting)) :
      other = listener ∧ answered = endpoint ∧ waiting = backlog ++ [id] ∨
        network.descriptors other = some (.listening answered waiting) := by
    simp only [Network.setDescriptor] at now
    by_cases mine : other = listener
    · rw [mine, Function.update_self] at now
      cases now
      exact .inl ⟨mine, rfl, rfl⟩
    · rw [Function.update_of_ne mine] at now
      exact .inr now
  obtain ⟨nodup, queued⟩ := delivery.queued listener endpoint backlog listening
  constructor
  · exact delivery.written
  · exact delivery.waiting
  · exact delivery.received
  · exact delivery.addressed
  · intro other answered waiting now
    rcases listened now with ⟨rfl, rfl, rfl⟩ | before
    · -- Nothing holds the new connection, so it does not wait yet.
      have apart : id ∉ backlog := fun member => free (.listener other) ⟨answered, backlog, listening, member⟩
      refine ⟨List.nodup_append.mpr ⟨nodup, by simp, ?_⟩, ?_⟩
      · rintro index member _ last rfl
        exact apart (List.mem_singleton.mp last ▸ member)
      · intro index member
        rcases List.mem_append.mp member with before | last
        · exact queued index before
        · obtain rfl := List.mem_singleton.mp last
          exact ⟨addressed, untaken⟩
    · exact delivery.queued other answered waiting before
  · have earlier (index : Nat) (holder : Holder Socket) (holds : (network.setDescriptor listener
        (some (.listening endpoint (backlog ++ [id])))).Holds index holder) :
        index = id ∧ holder = .listener listener ∨ network.Holds index holder := by
      cases holder with
      | receiver receiver => exact .inr holds
      | listener other =>
          obtain ⟨answered, waiting, now, member⟩ := holds
          rcases listened now with ⟨rfl, rfl, rfl⟩ | before
          · rcases List.mem_append.mp member with before | last
            · exact .inr ⟨answered, backlog, listening, before⟩
            · exact .inl ⟨List.mem_singleton.mp last, rfl⟩
          · exact .inr ⟨answered, waiting, before, member⟩
    intro index holder other one two
    rcases earlier index holder one with ⟨rfl, rfl⟩ | here
    · rcases earlier index other two with ⟨-, rfl⟩ | there
      · rfl
      · exact absurd there (free other)
    · rcases earlier index other two with ⟨rfl, -⟩ | there
      · exact absurd here (free holder)
      · exact delivery.held index holder other here there

theorem flatten_chunks (packet : Packet) : (chunks order packet).flatten = TcpTransport.send order packet := by
  simp only [chunks, TcpTransport.send]
  split <;> simp

theorem Delivery.connect (delivery : Delivery order answers network) {job : SendJob Socket} {listener : Socket}
    {client : Endpoint} (here : network.senders id = some job) (created : job.state = .created socket)
    (connected : network.connect answers id job socket listener client (chunks order job.packet) = some network') :
    Delivery order answers network' := by
  simp only [Network.connect] at connected
  split at connected
  · next endpoint backlog listening =>
      obtain ⟨answered, same⟩ := Option.ite_none_right_eq_some.mp connected
      cases same
      -- a job that only created its socket has no connection yet
      have unconnected : network.connections id = none := by
        refine delivery.unconnected here fun connection writes => ?_
        have early := writes.stage
        rw [created] at early
        exact early
      have progressed : Delivery order answers (Network.setSender { network with
          connections := Function.update network.connections id (some { client }) } id job
          (.connected socket (chunks order job.packet))) := by
        refine delivery.progress here (fun other differ => Function.update_of_ne differ _ _) ?_ ?_
        · intro connection found
          cases unconnected.symm.trans found
        · intro after now
          rw [Function.update_self] at now
          cases now
          refine ⟨rfl, fun _ => List.nil_prefix, (fun _ broken => by cases broken), fun _ => ?_⟩
          show [] ++ (chunks order job.packet).flatten = _
          rw [List.nil_append]
          exact flatten_chunks job.packet
      -- a fresh connection is held by nobody, so the backlog may take it
      have queued := progressed.enqueue listening id ?_ ?_ ?_
      · exact queued.setDescriptor _ _ (by simp)
      · refine ⟨by simp [Network.setSender], ?_⟩
        exact ⟨_, Function.update_self _ _ _, answered⟩
      · intro connection now
        simp only [Network.setSender, Function.update_self, Option.some.injEq] at now
        rw [← now]
      · intro holder holds
        have before : (network.connections id).isSome := by
          cases holder with
          | listener other =>
              obtain ⟨_, _, waits, member⟩ := holds
              exact ((delivery.queued _ _ _ waits).2 id member).1.1
          | receiver receiver =>
              obtain ⟨found, origin, reading, accepts, rfl⟩ := holds
              exact (delivery.addressed receiver found origin reading accepts).1
        rw [unconnected] at before
        cases before
  · cases connected

theorem Delivery.ensureSocketCreated (delivery : Delivery order answers network) {transport : Nat}
    {created listenSocket : Option Socket}
    (ensured : network.ensureSocketCreated transport created = some (network', listenSocket)) :
    Delivery order answers network' := by
  unfold Network.ensureSocketCreated at ensured
  split at ensured
  · cases ensured
    exact delivery
  · cases ensured
    exact delivery
  · obtain ⟨opened, opens, same⟩ := Option.map_eq_some_iff.mp ensured
    cases same
    obtain ⟨-, rfl⟩ := of_openSocket opens
    exact (delivery.setDescriptor _ _ (by simp)).descriptors _ fun _ _ _ before => .inr before

theorem Delivery.bind (delivery : Delivery order answers network) {transport : Nat} {endpoint : Endpoint}
    {created : Option Socket} {binds listens result : Bool}
    (bound : network.bind transport endpoint created binds listens = some (network', result)) :
    Delivery order answers network' := by
  obtain ⟨⟨opened, listenSocket⟩, ensured, rest⟩ := Option.bind_eq_some_iff.mp bound
  have before := delivery.ensureSocketCreated ensured
  cases listenSocket with
  | none =>
      cases rest
      exact before
  | some socket =>
      simp only at rest
      split at rest
      · cases rest
        refine before.setDescriptor _ _ fun answered backlog listening => ?_
        cases listens with
        | true =>
            cases listening
            rfl
        | false => cases listening
      · cases rest
        exact before

theorem Delivery.stepSender (delivery : Delivery order answers network) {job : SendJob Socket} {call : Call Socket}
    (here : network.senders id = some job) (done : network.stepSender order answers id job call = some network') :
    Delivery order answers network' := by
  have unconnected (early : ∀ connection, ¬Writes order connection job) : network.connections id = none :=
    delivery.unconnected here early
  cases call <;> simp only [Network.stepSender] at done <;> try cases done
  case socket created =>
    split at done
    · next state =>
        cases done
        exact delivery.setSender here (unconnected fun connection writes => by simpa [state] using writes.stage)
    · next socket state =>
        obtain ⟨opened, opens, rfl⟩ := Option.map_eq_some_iff.mp done
        obtain ⟨-, rfl⟩ := of_openSocket opens
        have opened := delivery.setDescriptor socket (some .stream) (by simp)
        exact opened.setSender here (unconnected fun connection writes => by simpa [state] using writes.stage)
    · cases done
  case connect listener client =>
    split at done
    · next socket state =>
        cases done
        exact delivery.setSender here (unconnected fun connection writes => by simpa [state] using writes.stage)
    · next socket listener state => exact delivery.connect here state done
    · cases done
  case write count =>
    split at done
    · next socket chunk chunks state =>
        obtain ⟨connection, found, rest⟩ := Option.bind_eq_some_iff.mp done
        obtain ⟨after, written, same⟩ := Option.bind_eq_some_iff.mp rest
        cases same
        exact delivery.write here state found written
    · cases done
  case closeSender =>
    split at done
    · next socket state =>
        cases done
        have closed := delivery.setDescriptor socket none (by simp)
        exact closed.setSender here (unconnected fun connection writes => by simpa [state] using writes.stage)
    · next socket state =>
        obtain ⟨connection, found, same⟩ := Option.bind_eq_some_iff.mp done
        cases same
        exact (delivery.finish here state found).setDescriptor _ _ (by simp)
    · cases done

theorem Delivery.stepReceiver (delivery : Delivery order answers network) {job : ReceiveJob Socket} {call : Call Socket}
    (here : network.receivers id = some job) (done : network.stepReceiver order id job call = some network') :
    Delivery order answers network' := by
  -- a job with an accepted connection is past select() and accept()
  have early (origin : Origin) (accepts : job.origin = some origin) : job.state ≠ .start ∧ job.state ≠ .ready := by
    obtain ⟨connection, -, reads⟩ := delivery.received id job origin here accepts
    exact reads.begun
  cases call <;> simp only [Network.stepReceiver] at done <;> try cases done
  case select isReady =>
    split at done
    · next state =>
        cases done
        refine delivery.setReceiver (fun waits => ⟨(delivery.waiting id job here waits).1, ?_⟩)
          fun origin accepts => absurd state (early origin accepts).1
        cases isReady with
        | true => exact .inr (.inl rfl)
        | false => exact .inr (.inr rfl)
    · cases done
  case accept socket =>
    split at done
    · next state =>
        cases done
        exact delivery.setReceiver (fun waits => ⟨(delivery.waiting id job here waits).1, .inr (.inr rfl)⟩)
          fun origin accepts => absurd state (early origin accepts).2
    · next state =>
        have waits : job.origin = none := by
          cases accepts : job.origin with
          | none => rfl
          | some origin => exact absurd state (early origin accepts).2
        exact delivery.accept (delivery.waiting id job here waits).1 done
    · cases done
  case recv error => exact delivery.recv here done
  case resizeThrows index =>
    split at done
    · next peer payloadSize header state =>
        cases done
        refine delivery.setReceiver (fun waiting => ?_) fun origin accepts => ?_
        -- a job without a connection is in none of these states
        · rcases (delivery.waiting id job here waiting).2 with before | before | before <;>
            cases state.symm.trans before
        · refine ⟨job, here, accepts, fun connection _ => ⟨by simp, ?_, ?_, fun _ => rfl⟩⟩
          · intro peer more asks
            cases asks
          · intro unfailed
            cases unfailed
    · cases done
  case closeReceiver =>
    split at done
    · next socket result state =>
        cases done
        have closed := delivery.setDescriptor socket none (by simp)
        refine closed.setReceiver (fun waiting => ?_) fun origin accepts => ?_
        · rcases (delivery.waiting id job here waiting).2 with before | before | before <;>
            cases state.symm.trans before
        · refine ⟨job, here, accepts, fun connection reads => ⟨by simp, ?_, ?_, ?_⟩⟩
          · intro peer more asks
            cases asks
          · intro intact whole stream yields
            rw [reads.finish intact whole stream yields, state]
            rfl
          · intro failed
            have nothing := reads.failed failed
            rwa [state] at nothing
    · cases done

theorem Delivery.step (delivery : Delivery order answers network) {call : Call Socket}
    (done : network.step order answers call = some network') : Delivery order answers network' := by
  cases call with
  | bind transport endpoint created binds listens =>
      obtain ⟨⟨after, result⟩, bound, rfl⟩ := Option.map_eq_some_iff.mp done
      exact delivery.bind bound
  | close transport =>
      cases done
      unfold Network.close
      split
      · exact delivery
      · exact (delivery.setDescriptor _ _ (by simp)).descriptors _ fun _ _ _ before => .inr before
  | send index endpoint packet =>
      obtain ⟨fresh, same⟩ := Option.ite_none_right_eq_some.mp done
      cases same
      exact delivery.spawn fresh _ _
  | receive index transport created =>
      obtain ⟨fresh, rest⟩ := Option.ite_none_right_eq_some.mp done
      obtain ⟨⟨opened, listenSocket⟩, ensured, same⟩ := Option.bind_eq_some_iff.mp rest
      cases same
      have before := delivery.ensureSocketCreated ensured
      cases listenSocket with
      | none => exact before
      | some socket => exact before.setReceiver (fun _ => ⟨rfl, .inl rfl⟩) fun origin accepts => by cases accepts
  | openOther socket =>
      obtain ⟨-, rfl⟩ := of_openSocket done
      exact delivery.setDescriptor _ _ (by simp)
  | closeOther socket =>
      obtain ⟨-, same⟩ := Option.ite_none_right_eq_some.mp done
      cases same
      exact delivery.setDescriptor _ _ (by simp)
  -- the remaining calls belong to one job each
  | socket index created =>
      obtain ⟨job, here, done⟩ := Option.bind_eq_some_iff.mp done
      exact delivery.stepSender here done
  | connect index listener client =>
      obtain ⟨job, here, done⟩ := Option.bind_eq_some_iff.mp done
      exact delivery.stepSender here done
  | write index count =>
      obtain ⟨job, here, done⟩ := Option.bind_eq_some_iff.mp done
      exact delivery.stepSender here done
  | closeSender index =>
      obtain ⟨job, here, done⟩ := Option.bind_eq_some_iff.mp done
      exact delivery.stepSender here done
  | select index isReady =>
      obtain ⟨job, here, done⟩ := Option.bind_eq_some_iff.mp done
      exact delivery.stepReceiver here done
  | accept index socket =>
      obtain ⟨job, here, done⟩ := Option.bind_eq_some_iff.mp done
      exact delivery.stepReceiver here done
  | recv index error =>
      obtain ⟨job, here, done⟩ := Option.bind_eq_some_iff.mp done
      exact delivery.stepReceiver here done
  | resizeThrows index =>
      obtain ⟨job, here, done⟩ := Option.bind_eq_some_iff.mp done
      exact delivery.stepReceiver here done
  | closeReceiver index =>
      obtain ⟨job, here, done⟩ := Option.bind_eq_some_iff.mp done
      exact delivery.stepReceiver here done

section Runs

variable {used : Socket → Bool}

omit [DecidableEq Socket] in
theorem delivery_begin : Delivery order answers (begin used) where
  written index connection found := by cases found
  waiting index job found := by cases found
  received index job origin found := by cases found
  addressed index job origin found := by cases found
  queued socket endpoint backlog listening := by
    simp only [begin] at listening
    split at listening <;> cases listening
  held index holder other holds := by
    cases holder with
    | listener socket =>
        obtain ⟨endpoint, backlog, listening, -⟩ := holds
        simp only [begin] at listening
        split at listening <;> cases listening
    | receiver receiver =>
        obtain ⟨job, origin, found, -⟩ := holds
        cases found

theorem Reachable.delivery (reach : Reachable order answers used network) : Delivery order answers network :=
  reach.invariant delivery_begin fun _ _ _ _ delivery _ done => delivery.step done

/-- One transport listens, and one packet is sent to it and received. -/
def exchange (count : Nat) : List (Call Nat) :=
  [.bind 0 ⟨1, 2⟩ (some 3) true true, .send 7 ⟨1, 2⟩ { payload := [9] }, .socket 7 (some 4), .connect 7 (some 3) ⟨5, 6⟩,
    .receive 8 0 none, .select 8 true, .accept 8 (some 5), .write 7 4, .recv 8 false, .write 7 16, .write 7 count,
    .closeSender 7, .recv 8 false, .recv 8 false, .closeReceiver 8]

end Runs

end Network

end SoulLib.Networking.Tcp
