import SoulLib.Network.Client
import SoulLib.Semantics.Runs

/-! A client that asks the time server again and again.

The accept loop hands every connection to a thread that sends the time, reads one
message and closes. The client keeps its connection between calls. A message of
one `send` arrives in one piece, and `recv` may still answer with a part of what is
there. Faults of the network are steps as well: a connection that is refused, and
a `send` or a `recv` that fails. A `recv` may also run into the time-out of three
seconds that the client has set, which takes no fault but a server that is late.
-/

set_option autoImplicit false

namespace SoulLib.Network

open SoulLib.Networking (Byte)
open SoulLib.Semantics (System)

/-- How far the server has come with a connection. -/
inductive Handler where
  | backlog
  | sending
  | receiving
  | closed
  deriving DecidableEq, Repr

structure Connection where
  handler : Handler := .backlog
  toServer : List Byte := []
  toClient : List Byte := []
  /-- The server closed it with bytes unread, or bytes arrived after that. -/
  reset : Bool := false
  deriving DecidableEq, Repr

/-- Where the client is in `requestServerTime`. -/
inductive Request where
  | idle
  | sending
  | receiving (received : List Byte)
  deriving DecidableEq, Repr

/-- `calls`, `results` and `served` record the calls made, what they returned, and the times
the server has sent; `timedOut` that a `recv` has timed out. -/
structure World where
  connected : Bool := false
  connection : Option Connection := none
  request : Request := .idle
  calls : Nat := 0
  results : List String := []
  served : List (BitVec 64) := []
  timedOut : Bool := false
  deriving DecidableEq, Repr

/-- What the operating system answers to `recv`. -/
inductive Answer where
  | bytes (count : Nat)
  | closed
  | error
  | timeout
  deriving DecidableEq, Repr

inductive Action where
  | call (connects : Bool)
  | send (ok : Bool)
  | recv (answer : Answer)
  | accept
  | serve (serverTime : BitVec 64)
  | read
  deriving DecidableEq, Repr

def Action.isCall : Action → Bool
  | .call _ => true
  | .send _ | .recv _ | .accept | .serve _ | .read => false

def getTime : List Byte := "GET_TIME".toList.map fun char => BitVec.ofNat 8 char.toNat

theorem length_getTime : getTime.length = 8 := by decide

theorem getTime_ne_nil : getTime ≠ [] := by
  intro empty
  have length := length_getTime
  rw [empty] at length
  cases length

namespace Connection

/-- Bytes that come after the server has closed the connection reset it. -/
def deliver (connection : Connection) (bytes : List Byte) : Connection :=
  if connection.handler = .closed then { connection with reset := true }
  else { connection with toServer := connection.toServer ++ bytes }

/-- What `recv` hands to the client, and the connection after it. -/
def recv (connection : Connection) (wanted : Nat) : Answer → Option (Connection × Recv)
  | .bytes count =>
      if 0 < count ∧ count ≤ wanted ∧ count ≤ connection.toClient.length then
        some ({ connection with toClient := connection.toClient.drop count },
          .bytes (connection.toClient.take count))
      else none
  | .closed => if connection.handler = .closed ∧ connection.toClient = [] then some (connection, .closed) else none
  | .error | .timeout => some (connection, .error)

/-- `handleClientDisconnection` reads at most 1023 bytes and closes the socket. -/
def close (connection : Connection) : Connection :=
  { connection with
    handler := .closed
    toServer := connection.toServer.drop 1023
    reset := decide (1023 < connection.toServer.length) }

end Connection

namespace World

def finish (world : World) (text : String) : World :=
  { world with request := .idle, results := world.results ++ [text] }

/-- The beginning of `requestServerTime`, with `connectToServer`. -/
def call (world : World) (connects : Bool) : World :=
  let world := { world with calls := world.calls + 1 }
  if world.connected then { world with request := .sending }
  else if connects then { world with connected := true, connection := some {}, request := .sending }
  else world.finish ""

def continueWith (world : World) : Reception → World
  | .waiting received => { world with request := .receiving received }
  | .returned text => world.finish text

def step (world : World) : Action → Option World
  | .call connects => if world.request = .idle then some (world.call connects) else none
  | .send ok =>
      match world.request, world.connection with
      | .sending, some connection =>
          some <| if ok then
            { world with connection := some (connection.deliver getTime), request := .receiving [] }
          else world.finish ""
      | _, _ => none
  | .recv answer =>
      match world.request, world.connection with
      | .receiving received, some connection =>
          (connection.recv (8 - received.length) answer).map fun result =>
            { world with
              connection := some result.1
              timedOut := world.timedOut || decide (answer = Answer.timeout) }.continueWith (Client.onRecv received result.2)
      | _, _ => none
  | .accept =>
      match world.connection with
      | some connection =>
          if connection.handler = .backlog then
            some { world with connection := some { connection with handler := .sending } }
          else none
      | none => none
  | .serve serverTime =>
      match world.connection with
      | some connection =>
          if connection.handler = .sending then
            some { world with
              connection := some { connection with
                handler := .receiving
                toClient := connection.toClient ++ HostServer.timeMessage serverTime }
              served := world.served ++ [serverTime] }
          else none
      | none => none
  | .read =>
      match world.connection with
      | some connection =>
          if connection.handler = .receiving ∧ connection.toServer ≠ [] then
            some { world with connection := some connection.close }
          else none
      | none => none

/-- The client connects, its sends fail only on a connection that the server has closed, and
its receives only on one that was reset, or by their time-out. -/
def Faultless (world : World) : Action → Prop
  | .call connects => world.connected = false → connects = true
  | .send ok => ok = false → ∃ connection ∈ world.connection, connection.handler = .closed
  | .recv answer => answer = .error → ∃ connection ∈ world.connection, connection.reset = true
  | .accept | .serve _ | .read => True

end World

def timeRequests : System World Action where
  step := World.step

/-- What a call returns for a time: the decimal digits of what the client reads in its bytes. -/
def timeText (serverTime : BitVec 64) : String := Nat.repr (readHalves (HostServer.timeMessage serverTime))

theorem timeText_ne_empty (serverTime : BitVec 64) : timeText serverTime ≠ "" := by
  intro empty
  have digits : (timeText serverTime).toList = Nat.toDigits 10 (readHalves (HostServer.timeMessage serverTime)) :=
    Nat.toList_repr
  rw [empty] at digits
  exact Nat.toDigits_ne_nil digits.symm

theorem afterLoop_timeMessage (serverTime : BitVec 64) :
    Client.afterLoop (HostServer.timeMessage serverTime) = timeText serverTime := by
  have eight : (HostServer.timeMessage serverTime).length = 8 := length_encode64 serverTime
  rw [Client.afterLoop, if_neg (by omega), Client.toNat_serverMs eight]
  rfl

/-- The handler has sent the time exactly when it is past its `send`. -/
def Handler.Served (served : List (BitVec 64)) : Handler → Prop
  | .backlog | .sending => served = []
  | .receiving | .closed => ∃ serverTime, served = [serverTime]

theorem Handler.Served.cases {served : List (BitVec 64)} {handler : Handler} (handled : handler.Served served) :
    served = [] ∧ (handler = .backlog ∨ handler = .sending) ∨
      ∃ serverTime, served = [serverTime] ∧ (handler = .receiving ∨ handler = .closed) := by
  cases handler with
  | backlog => exact .inl ⟨handled, .inl rfl⟩
  | sending => exact .inl ⟨handled, .inr rfl⟩
  | receiving =>
      obtain ⟨serverTime, same⟩ := handled
      exact .inr ⟨serverTime, same, .inl rfl⟩
  | closed =>
      obtain ⟨serverTime, same⟩ := handled
      exact .inr ⟨serverTime, same, .inr rfl⟩

/-- The worlds that faultless runs reach without a time-out: the first call sends its request and
collects the time, and after that there is nothing left to collect. -/
inductive Stage : World → Prop where
  | start : Stage {}
  | asking {connection : Connection} {served : List (BitVec 64)} (handled : connection.handler.Served served)
      (clean : connection.reset = false) (alive : connection.handler ≠ .closed) (unasked : connection.toServer = [])
      (sent : connection.toClient = served.flatMap HostServer.timeMessage) :
      Stage { connected := true, connection := some connection, request := .sending, calls := 1, served }
  | waiting {connection : Connection} {served : List (BitVec 64)} {received : List Byte}
      (handled : connection.handler.Served served) (clean : connection.reset = false)
      (asked : connection.handler ≠ .closed → connection.toServer = getTime) (short : received.length < 8)
      (sent : received ++ connection.toClient = served.flatMap HostServer.timeMessage) :
      Stage { connected := true, connection := some connection, request := .receiving received, calls := 1, served }
  | later {connection : Connection} (request : Request) {serverTime : BitVec 64} (failures : Nat)
      (drained : connection.toClient = [])
      (handled : connection.handler = .receiving ∧ connection.toServer ≠ [] ∨ connection.handler = .closed)
      (empty : ∀ received, request = .receiving received → received = []) :
      Stage { connected := true, connection := some connection, request, served := [serverTime]
              calls := failures + 1 + if request = .idle then 0 else 1
              results := timeText serverTime :: List.replicate failures "" }

namespace Stage

variable {world after : World} {action : Action}

theorem call {connects : Bool} (stage : Stage world) (allowed : world.Faultless (.call connects))
    (taken : world.step (.call connects) = some after) : Stage after := by
  cases stage with
  | start =>
      obtain rfl := allowed rfl
      cases taken
      exact .asking rfl rfl (by decide) rfl rfl
  | asking => cases taken
  | waiting => cases taken
  | @later connection request serverTime failures drained handled empty =>
      simp only [World.step] at taken
      split at taken
      · next idle =>
          subst idle
          cases taken
          exact .later .sending failures drained handled fun _ waits => by cases waits
      · cases taken

theorem fail {connection : Connection} {request : Request} {serverTime : BitVec 64} {failures : Nat}
    (drained : connection.toClient = [])
    (handled : connection.handler = .receiving ∧ connection.toServer ≠ [] ∨ connection.handler = .closed)
    (busy : request ≠ .idle) :
    Stage (World.finish
      { connected := true, connection := some connection, request, served := [serverTime]
        calls := failures + 1 + if request = .idle then 0 else 1
        results := timeText serverTime :: List.replicate failures "" } "") := by
  rw [if_neg busy, World.finish, List.cons_append, ← List.replicate_succ']
  exact .later .idle (failures + 1) drained handled fun _ waits => by cases waits

theorem send {ok : Bool} (stage : Stage world) (allowed : world.Faultless (.send ok))
    (taken : world.step (.send ok) = some after) : Stage after := by
  cases stage with
  | start => cases taken
  | waiting => cases taken
  | @asking connection served handled clean alive unasked sent =>
      obtain rfl : ok = true := by
        by_contra failed
        obtain ⟨_, same, closed⟩ := allowed (by simpa using failed)
        cases same
        exact alive closed
      cases taken
      have delivered : connection.deliver getTime = { connection with toServer := getTime } := by
        rw [Connection.deliver, if_neg alive, unasked, List.nil_append]
      rw [delivered]
      exact .waiting handled clean (fun _ => rfl) (show ([] : List Byte).length < 8 by decide) sent
  | @later connection request serverTime failures drained handled empty =>
      cases request with
      | idle => cases taken
      | receiving received => cases taken
      | sending =>
          cases ok with
          | false =>
              cases taken
              exact fail drained handled fun idle => by cases idle
          | true =>
              cases taken
              refine .later (.receiving []) failures ?_ ?_ fun _ same => (Request.receiving.inj same).symm
              · unfold Connection.deliver
                split <;> exact drained
              · rcases handled with ⟨receiving, unread⟩ | closed
                · left
                  simp [Connection.deliver, receiving, unread]
                · right
                  simp [Connection.deliver, closed]

theorem collected {received chunk rest : List Byte} {served : List (BitVec 64)} {handler : Handler}
    (handled : handler.Served served) (sent : received ++ (chunk ++ rest) = served.flatMap HostServer.timeMessage)
    (full : 8 ≤ (received ++ chunk).length) :
    ∃ serverTime, served = [serverTime] ∧ received ++ chunk = HostServer.timeMessage serverTime ∧ rest = [] ∧
      (handler = .receiving ∨ handler = .closed) := by
  rw [← List.append_assoc] at sent
  have lengths := congrArg List.length sent
  rw [List.length_append] at lengths
  rcases handled.cases with ⟨rfl, -⟩ | ⟨serverTime, rfl, past⟩
  · rw [List.flatMap_nil, List.length_nil] at lengths
    omega
  · rw [List.flatMap_singleton, HostServer.timeMessage] at sent lengths
    rw [length_encode64] at lengths
    have nothing : rest = [] := List.eq_nil_of_length_eq_zero (by omega)
    rw [nothing, List.append_nil] at sent
    exact ⟨serverTime, rfl, sent, nothing, past⟩

theorem recv {answer : Answer} (stage : Stage world) (allowed : world.Faultless (.recv answer))
    (prompt : answer ≠ .timeout) (taken : world.step (.recv answer) = some after) : Stage after := by
  cases stage with
  | start => cases taken
  | asking => cases taken
  | @waiting connection served received handled clean asked short sent =>
      obtain ⟨⟨following, answered⟩, read, rfl⟩ := Option.map_eq_some_iff.mp taken
      cases answer with
      | timeout => exact absurd rfl prompt
      | error =>
          obtain ⟨_, same, reset⟩ := allowed rfl
          cases same
          rw [clean] at reset
          cases reset
      | closed =>
          simp only [Connection.recv] at read
          split at read
          · next ended =>
              -- A handler that has closed the connection has sent all eight bytes before.
              obtain ⟨closed, drained⟩ := ended
              rw [closed] at handled
              obtain ⟨serverTime, rfl⟩ := handled
              have lengths := congrArg List.length sent
              rw [drained, List.append_nil, List.flatMap_singleton, HostServer.timeMessage, length_encode64] at lengths
              omega
          · cases read
      | bytes count =>
          simp only [Connection.recv] at read
          split at read
          · next within =>
              cases read
              have whole : received ++ (connection.toClient.take count ++ connection.toClient.drop count) =
                  served.flatMap HostServer.timeMessage := by
                rw [List.take_append_drop]
                exact sent
              simp only [Client.onRecv]
              by_cases more : (received ++ connection.toClient.take count).length < 8
              · rw [if_pos more]
                rw [← List.append_assoc] at whole
                exact .waiting handled clean asked more whole
              · obtain ⟨serverTime, rfl, message, nothing, past⟩ := collected handled whole (Nat.le_of_not_lt more)
                rw [if_neg more, message, afterLoop_timeMessage]
                refine .later .idle 0 nothing ?_ fun _ waits => by cases waits
                rcases past with receiving | closed
                · left
                  refine ⟨receiving, ?_⟩
                  rw [asked (by rw [receiving]; decide)]
                  exact getTime_ne_nil
                · exact .inr closed
          · cases read
  | @later connection request serverTime failures drained handled empty =>
      cases request with
      | idle => cases taken
      | sending => cases taken
      | receiving received =>
          obtain rfl := empty received rfl
          obtain ⟨⟨following, answered⟩, read, rfl⟩ := Option.map_eq_some_iff.mp taken
          cases answer with
          | timeout => exact absurd rfl prompt
          | bytes count =>
              simp only [Connection.recv, drained, List.length_nil] at read
              split at read
              · next within => omega
              · cases read
          | closed =>
              simp only [Connection.recv] at read
              split at read
              · cases read
                exact fail drained handled fun idle => by cases idle
              · cases read
          | error =>
              cases read
              exact fail drained handled fun idle => by cases idle

theorem accept (stage : Stage world) (taken : world.step .accept = some after) : Stage after := by
  cases stage with
  | start => cases taken
  | asking handled clean alive unasked sent =>
      simp only [World.step] at taken
      split at taken
      · next waiting =>
          cases taken
          rw [waiting] at handled
          exact .asking handled clean (by simp) unasked sent
      · cases taken
  | waiting handled clean asked short sent =>
      simp only [World.step] at taken
      split at taken
      · next waiting =>
          cases taken
          rw [waiting] at handled asked
          exact .waiting handled clean (fun _ => asked (by simp)) short sent
      · cases taken
  | later request failures drained handled empty =>
      simp only [World.step] at taken
      split at taken
      · next waiting => simp [waiting] at handled
      · cases taken

theorem serve {serverTime : BitVec 64} (stage : Stage world) (taken : world.step (.serve serverTime) = some after) :
    Stage after := by
  cases stage with
  | start => cases taken
  | asking handled clean alive unasked sent =>
      simp only [World.step] at taken
      split at taken
      · next ready =>
          cases taken
          rw [ready] at handled
          obtain rfl := handled
          refine .asking ⟨serverTime, rfl⟩ clean (by simp) unasked ?_
          simp [sent]
      · cases taken
  | waiting handled clean asked short sent =>
      simp only [World.step] at taken
      split at taken
      · next ready =>
          cases taken
          rw [ready] at handled asked
          obtain rfl := handled
          refine .waiting ⟨serverTime, rfl⟩ clean (fun _ => asked (by simp)) short ?_
          simp only [List.flatMap_nil] at sent
          rw [← List.append_assoc, sent]
          simp
      · cases taken
  | later request failures drained handled empty =>
      simp only [World.step] at taken
      split at taken
      · next ready => simp [ready] at handled
      · cases taken

theorem read (stage : Stage world) (taken : world.step .read = some after) : Stage after := by
  cases stage with
  | start => cases taken
  | asking handled clean alive unasked sent =>
      simp only [World.step] at taken
      split at taken
      · next ready => exact absurd unasked ready.2
      · cases taken
  | waiting handled clean asked short sent =>
      simp only [World.step] at taken
      split at taken
      · next ready =>
          cases taken
          rw [ready.1] at handled asked
          refine .waiting handled ?_ (fun alive => absurd rfl alive) short sent
          rw [Connection.close, asked (by simp), length_getTime]
          rfl
      · cases taken
  | later request failures drained handled empty =>
      simp only [World.step] at taken
      split at taken
      · cases taken
        exact .later request failures drained (.inr rfl) empty
      · cases taken

theorem step (stage : Stage world) (allowed : world.Faultless action) (prompt : action ≠ .recv .timeout)
    (taken : world.step action = some after) : Stage after := by
  cases action with
  | call connects => exact stage.call allowed taken
  | send ok => exact stage.send allowed taken
  | recv answer => exact stage.recv allowed (fun late => prompt (congrArg Action.recv late)) taken
  | accept => exact stage.accept taken
  | serve serverTime => exact stage.serve taken
  | read => exact stage.read taken

end Stage

section Records

variable {world after : World} {action : Action}

/-- What any step keeps of the records: each call has returned or is the one under way, a call
under way has a connection and a result to wait for, and a time-out has left an empty result. -/
structure World.Recorded (world : World) : Prop where
  results : world.results.length + (if world.request = .idle then 0 else 1) = world.calls
  connected : world.connected = true ∨ world.request ≠ .idle → world.connection.isSome
  short : ∀ received, world.request = .receiving received → received.length < 8
  timedOut : world.timedOut = true → "" ∈ world.results

theorem World.Recorded.finish (recorded : world.Recorded) (busy : world.request ≠ .idle) (text : String) :
    (world.finish text).Recorded where
  results := by
    have results := recorded.results
    rw [if_neg busy] at results
    simp [World.finish, results]
  connected some := recorded.connected (.inr busy)
  short received waits := by cases waits
  timedOut late := List.mem_append_left _ (recorded.timedOut late)

theorem onRecv_cases (received : List Byte) (answered : Recv) :
    (∃ text, Client.onRecv received answered = .returned text) ∨
      ∃ more, Client.onRecv received answered = .waiting more ∧ more.length < 8 := by
  cases answered with
  | error => exact .inl ⟨_, rfl⟩
  | closed => exact .inl ⟨_, rfl⟩
  | bytes chunk =>
      simp only [Client.onRecv]
      split
      · next short => exact .inr ⟨_, rfl, short⟩
      · exact .inl ⟨_, rfl⟩

@[simp] theorem World.timedOut_continueWith (world : World) (reception : Reception) :
    (world.continueWith reception).timedOut = world.timedOut := by
  cases reception <;> rfl

theorem World.Recorded.recv {received : List Byte} {answer : Answer} {connection following : Connection}
    {answered : Recv} (recorded : world.Recorded) (waits : world.request = .receiving received)
    (read : connection.recv (8 - received.length) answer = some (following, answered)) :
    ({ world with
      connection := some following
      timedOut := world.timedOut || decide (answer = Answer.timeout) }.continueWith
        (Client.onRecv received answered)).Recorded := by
  have results := recorded.results
  rw [waits, if_neg (by simp)] at results
  rcases onRecv_cases received answered with ⟨text, returned⟩ | ⟨more, goesOn, short⟩
  · rw [returned]
    refine ⟨by simp [World.continueWith, World.finish, results], fun _ => rfl, (fun _ waits => by cases waits), ?_⟩
    intro late
    rcases Bool.or_eq_true_iff.mp late with earlier | now
    · exact List.mem_append_left _ (recorded.timedOut earlier)
    · obtain rfl : answer = .timeout := by simpa using now
      cases read
      cases returned
      exact List.mem_append_right _ (List.mem_singleton_self _)
  · rw [goesOn]
    refine ⟨by simpa [World.continueWith] using results, fun _ => rfl, ?_, ?_⟩
    · intro other waits
      cases waits
      exact short
    · intro late
      rcases Bool.or_eq_true_iff.mp late with earlier | now
      · exact recorded.timedOut earlier
      · obtain rfl : answer = .timeout := by simpa using now
        cases read
        cases goesOn

theorem World.call_cases (world : World) (connects : Bool) :
    (world.connected = true ∧ world.call connects = { world with calls := world.calls + 1, request := .sending }) ∨
      world.call connects =
        { world with calls := world.calls + 1, connected := true, connection := some {}, request := .sending } ∨
      (world.connected = false ∧ world.call connects = { world with calls := world.calls + 1 }.finish "") := by
  cases here : world.connected with
  | true => exact .inl ⟨rfl, by simp [World.call, here]⟩
  | false =>
      cases connects with
      | true => exact .inr (.inl (by simp [World.call, here]))
      | false => exact .inr (.inr ⟨rfl, by simp [World.call, here]⟩)

theorem World.Recorded.call (recorded : world.Recorded) (idle : world.request = .idle) (connects : Bool) :
    (world.call connects).Recorded := by
  have ⟨results, connected, short, timedOut⟩ := recorded
  rw [if_pos idle, Nat.add_zero] at results
  rcases world.call_cases connects with ⟨here, called⟩ | called | ⟨away, called⟩
  · rw [called]
    exact ⟨by simp [results], fun _ => connected (.inl here), (fun _ waits => by cases waits), timedOut⟩
  · rw [called]
    exact ⟨by simp [results], fun _ => rfl, (fun _ waits => by cases waits), timedOut⟩
  · rw [called]
    refine ⟨by simp [World.finish, results], ?_, (fun _ waits => by cases waits), ?_⟩
    · rintro (here | busy)
      · cases away.symm.trans here
      · exact absurd rfl busy
    · exact fun late => List.mem_append_left _ (timedOut late)

theorem World.Recorded.step (recorded : world.Recorded) (taken : world.step action = some after) : after.Recorded := by
  have ⟨results, connected, short, timedOut⟩ := recorded
  cases action with
  | call connects =>
      simp only [World.step] at taken
      split at taken
      · next idle =>
          cases taken
          exact recorded.call idle connects
      · cases taken
  | send ok =>
      simp only [World.step] at taken
      split at taken
      · next connection sends found =>
          rw [sends, if_neg (by simp)] at results
          cases taken
          cases ok with
          | true =>
              refine ⟨by simpa using results, fun _ => rfl, ?_, timedOut⟩
              intro received waits
              cases waits
              decide
          -- a failed send ends the call with the empty string
          | false => exact recorded.finish (by simp [sends]) ""
      · cases taken
  | recv answer =>
      simp only [World.step] at taken
      split at taken
      · next received connection waits found =>
          obtain ⟨⟨following, answered⟩, read, rfl⟩ := Option.map_eq_some_iff.mp taken
          exact recorded.recv waits read
      · cases taken
  -- the steps of the server leave the calls and their results alone
  | accept =>
      simp only [World.step] at taken
      split at taken
      · split at taken
        · cases taken
          exact ⟨results, fun _ => rfl, short, timedOut⟩
        · cases taken
      · cases taken
  | serve serverTime =>
      simp only [World.step] at taken
      split at taken
      · split at taken
        · cases taken
          exact ⟨results, fun _ => rfl, short, timedOut⟩
        · cases taken
      · cases taken
  | read =>
      simp only [World.step] at taken
      split at taken
      · split at taken
        · cases taken
          exact ⟨results, fun _ => rfl, short, timedOut⟩
        · cases taken
      · cases taken

theorem World.Recorded.of_reaches {admits : World → Action → Prop} (reach : timeRequests.Reaches admits {} world) :
    world.Recorded :=
  reach.invariant ⟨rfl, by simp, by simp, by simp⟩ fun _ _ _ _ recorded _ taken => recorded.step taken

theorem World.prompt_of_step (taken : world.step action = some after) (prompt : after.timedOut = false) :
    world.timedOut = false ∧ action ≠ .recv .timeout := by
  cases action with
  | call connects =>
      simp only [World.step] at taken
      split at taken
      · cases taken
        refine ⟨?_, by simp⟩
        -- a call may end at once, but it never waits for a recv
        rcases world.call_cases connects with ⟨-, called⟩ | called | ⟨-, called⟩ <;> rw [called] at prompt <;>
          exact prompt
      · cases taken
  | send ok =>
      simp only [World.step] at taken
      split at taken
      · cases taken
        cases ok <;> exact ⟨prompt, by simp⟩
      · cases taken
  | recv answer =>
      simp only [World.step] at taken
      split at taken
      · obtain ⟨result, -, rfl⟩ := Option.map_eq_some_iff.mp taken
        simpa using prompt
      · cases taken
  | accept =>
      simp only [World.step] at taken
      split at taken
      · split at taken <;> cases taken
        exact ⟨prompt, by simp⟩
      · cases taken
  | serve serverTime =>
      simp only [World.step] at taken
      split at taken
      · split at taken <;> cases taken
        exact ⟨prompt, by simp⟩
      · cases taken
  | read =>
      simp only [World.step] at taken
      split at taken
      · split at taken <;> cases taken
        exact ⟨prompt, by simp⟩
      · cases taken

/-- Every faultless run keeps to the stages until a receive times out. -/
theorem Stage.of_reaches (reach : timeRequests.Reaches World.Faultless {} world) (prompt : world.timedOut = false) :
    Stage world := by
  have kept : world.timedOut = false → Stage world := by
    apply reach.invariant (fun _ => .start)
    intro before action after _ stage allowed taken prompt
    obtain ⟨earlier, other⟩ := World.prompt_of_step taken prompt
    exact (stage earlier).step allowed other taken
  exact kept prompt

end Records

theorem World.step_recv {world : World} {received : List Byte} {answer : Answer} {connection following : Connection}
    {answered : Recv} (waits : world.request = .receiving received) (found : world.connection = some connection)
    (read : connection.recv (8 - received.length) answer = some (following, answered)) :
    world.step (.recv answer) = some ({ world with
      connection := some following
      timedOut := world.timedOut || decide (answer = Answer.timeout) }.continueWith
        (Client.onRecv received answered)) := by
  simp only [World.step, waits, found, read, Option.map_some]

/-- The world goes on without a new call. -/
def World.Continues (after world : World) : Prop :=
  ∃ action : Action, action.isCall = false ∧ world.Faultless action ∧ world.step action = some after

/-- A call that has not returned can go on: the client can, or the server owes it something. -/
theorem Stage.progress {world : World} (stage : Stage world) (busy : world.request ≠ .idle) :
    ∃ after, World.Continues after world ∧ after.timedOut = false := by
  cases stage with
  | start => exact absurd rfl busy
  | asking => exact ⟨_, ⟨.send true, rfl, (fun failed => by cases failed), rfl⟩, rfl⟩
  | @waiting connection served received handled clean asked short sent =>
      cases here : connection.handler with
      | backlog => exact ⟨_, ⟨.accept, rfl, trivial, if_pos here⟩, rfl⟩
      | sending => exact ⟨_, ⟨.serve 0, rfl, trivial, if_pos here⟩, rfl⟩
      | receiving =>
          have unread : connection.toServer ≠ [] := by
            rw [asked (by simp [here])]
            exact getTime_ne_nil
          exact ⟨_, ⟨.read, rfl, trivial, if_pos ⟨here, unread⟩⟩, rfl⟩
      | closed =>
          rw [here] at handled
          obtain ⟨serverTime, rfl⟩ := handled
          have lengths := congrArg List.length sent
          rw [List.flatMap_singleton, HostServer.timeMessage, length_encode64, List.length_append] at lengths
          have read : connection.recv (8 - received.length) (.bytes 1) =
              some ({ connection with toClient := connection.toClient.drop 1 }, .bytes (connection.toClient.take 1)) :=
            if_pos (by omega)
          exact ⟨_, ⟨.recv (.bytes 1), rfl, (fun failed => by cases failed), World.step_recv rfl rfl read⟩, by simp⟩
  | @later connection request serverTime failures drained handled empty =>
      cases request with
      | idle => exact absurd rfl busy
      | sending => exact ⟨_, ⟨.send true, rfl, (fun failed => by cases failed), rfl⟩, rfl⟩
      | receiving received =>
          rcases handled with ready | closed
          · exact ⟨_, ⟨.read, rfl, trivial, if_pos ready⟩, rfl⟩
          · have read : connection.recv (8 - received.length) .closed = some (connection, .closed) :=
              if_pos ⟨closed, drained⟩
            exact ⟨_, ⟨.recv .closed, rfl, (fun failed => by cases failed), World.step_recv rfl rfl read⟩, by simp⟩

/-- The time-out ends a call that nothing else lets go on. -/
theorem World.Recorded.progress {world : World} (recorded : world.Recorded) (busy : world.request ≠ .idle)
    (late : world.timedOut = true) : ∃ after, World.Continues after world ∧ after.timedOut = true := by
  obtain ⟨connection, found⟩ := Option.isSome_iff_exists.mp (recorded.connected (.inr busy))
  cases request : world.request with
  | idle => exact absurd request busy
  | sending =>
      have taken : world.step (.send true) = some { world with
          connection := some (connection.deliver getTime), request := .receiving [] } := by
        simp only [World.step, request, found, if_true]
      exact ⟨_, ⟨.send true, rfl, (fun failed => by cases failed), taken⟩, late⟩
  | receiving received =>
      exact ⟨_, ⟨.recv .timeout, rfl, (fun failed => by cases failed), World.step_recv request found rfl⟩, by simp⟩

def Handler.work : Handler → Nat
  | .backlog => 3
  | .sending => 2
  | .receiving => 1
  | .closed => 0

def Request.work : Request → Nat
  | .idle => 0
  | .sending => 10
  | .receiving received => 9 - received.length

/-- How many steps there are at most before the call returns and the server has nothing to do. -/
def World.work (world : World) : Nat :=
  world.request.work + (world.connection.map fun connection => connection.handler.work).getD 0

theorem World.work_recv {world : World} {connection following : Connection} {received : List Byte} {answer : Answer}
    {answered : Recv} (there : world.connection = some following) (short : received.length < 8)
    (read : connection.recv (8 - received.length) answer = some (following, answered)) :
    (world.continueWith (Client.onRecv received answered)).work <
      (Request.receiving received).work + connection.handler.work := by
  cases answer with
  | bytes count =>
      simp only [Connection.recv] at read
      split at read
      · next within =>
          cases read
          simp only [Client.onRecv]
          split
          · simp [World.continueWith, World.work, Request.work, there]
            omega
          · simp [World.continueWith, World.finish, World.work, Request.work, there]
            omega
      · cases read
  | closed =>
      simp only [Connection.recv] at read
      split at read
      · cases read
        simp [Client.onRecv, World.continueWith, World.finish, World.work, Request.work, there]
        omega
      · cases read
  | error =>
      cases read
      simp [Client.onRecv, World.continueWith, World.finish, World.work, Request.work, there]
      omega
  | timeout =>
      cases read
      simp [Client.onRecv, World.continueWith, World.finish, World.work, Request.work, there]
      omega

theorem World.work_lt {world after : World} (continues : World.Continues after world)
    (short : ∀ received, world.request = .receiving received → received.length < 8) : after.work < world.work := by
  obtain ⟨action, inside, -, taken⟩ := continues
  obtain ⟨connected, connection, request, calls, results, served⟩ := world
  cases action with
  | call connects => cases inside
  | send ok =>
      cases request with
      | idle => cases taken
      | receiving received => cases taken
      | sending =>
          cases connection with
          | none => cases taken
          | some connection =>
              -- A send that fails ends the call; one that succeeds gives the work to the handler.
              cases ok with
              | false =>
                  cases taken
                  simp [World.work, World.finish, Request.work]
              | true =>
                  cases taken
                  have same : (connection.deliver getTime).handler = connection.handler := by
                    unfold Connection.deliver
                    split <;> rfl
                  simp [World.work, Request.work, same]
  | recv answer =>
      cases request with
      | idle => cases taken
      | sending => cases taken
      | receiving received =>
          cases connection with
          | none => cases taken
          | some connection =>
              obtain ⟨⟨following, answered⟩, read, rfl⟩ := Option.map_eq_some_iff.mp taken
              exact World.work_recv rfl (short received rfl) read
  | accept =>
      cases connection with
      | none => cases taken
      | some connection =>
          simp only [World.step] at taken
          split at taken
          · next here =>
              cases taken
              simp [World.work, Handler.work, here]
          · cases taken
  | serve serverTime =>
      cases connection with
      | none => cases taken
      | some connection =>
          simp only [World.step] at taken
          split at taken
          · next here =>
              cases taken
              simp [World.work, Handler.work, here]
          · cases taken
  | read =>
      cases connection with
      | none => cases taken
      | some connection =>
          simp only [World.step] at taken
          split at taken
          · next here =>
              cases taken
              simp [World.work, Connection.close, Handler.work, here.1]
          · cases taken

/-- Without a new call every run comes to an end. -/
theorem World.Recorded.acc {world : World} (recorded : world.Recorded) : Acc World.Continues world := by
  induction bound : world.work using Nat.strong_induction_on generalizing world with
  | h work ih =>
      constructor
      intro after continues
      have less := World.work_lt continues recorded.short
      obtain ⟨action, -, -, taken⟩ := continues
      exact ih after.work (bound ▸ less) (recorded.step taken) rfl

/-- Every call has returned a time that the server has sent. -/
def World.Answered (world : World) : Prop :=
  world.results.length = world.calls ∧
    ∀ text ∈ world.results, text ≠ "" ∧ ∃ serverTime ∈ world.served, text = timeText serverTime

theorem Stage.answered_iff {world : World} (stage : Stage world) (idle : world.request = .idle) :
    (∀ text ∈ world.results, text ≠ "" ∧ ∃ serverTime ∈ world.served, text = timeText serverTime) ↔
      world.calls ≤ 1 := by
  cases stage with
  | start => simp
  | asking => cases idle
  | waiting => cases idle
  | @later connection request serverTime failures drained handled empty =>
      obtain rfl := idle
      -- Every result but the first is empty.
      constructor
      · intro answered
        by_contra more
        have some : failures ≠ 0 := by
          rintro rfl
          simp at more
        have failed := answered "" (List.mem_cons_of_mem _ (List.mem_replicate.mpr ⟨some, rfl⟩))
        exact failed.1 rfl
      · intro once
        obtain rfl : failures = 0 := by
          simp only at once
          omega
        intro text member
        obtain rfl := List.mem_singleton.mp member
        exact ⟨timeText_ne_empty serverTime, serverTime, List.mem_singleton_self _, rfl⟩

instance (world : World) : (action : Action) → Decidable (world.Faultless action)
  | .call connects => inferInstanceAs (Decidable (world.connected = false → connects = true))
  | .send ok => inferInstanceAs (Decidable
      (ok = false → ∃ connection ∈ world.connection, connection.handler = .closed))
  | .recv answer => inferInstanceAs (Decidable
      (answer = .error → ∃ connection ∈ world.connection, connection.reset = true))
  | .accept | .serve _ | .read => inferInstanceAs (Decidable True)

/-- Every call goes on until it returns, and the calls of a run are all answered exactly when
there is at most one and no receive has timed out. -/
theorem allAnswered_iff {world : World} (reach : timeRequests.Reaches World.Faultless {} world) :
    (world.request = .idle → (world.Answered ↔ world.calls ≤ 1 ∧ world.timedOut = false)) ∧
      (world.request ≠ .idle → ∃ after, World.Continues after world ∧ after.timedOut = world.timedOut) ∧
      Acc World.Continues world := by
  have recorded := World.Recorded.of_reaches reach
  refine ⟨?_, ?_, recorded.acc⟩
  · intro idle
    have returned : world.results.length = world.calls := by
      have results := recorded.results
      rwa [if_pos idle, Nat.add_zero] at results
    unfold World.Answered
    rw [and_iff_right returned]
    cases prompt : world.timedOut with
    | false => simpa using (Stage.of_reaches reach prompt).answered_iff idle
    | true =>
        have failed := recorded.timedOut prompt
        simpa using ⟨"", failed, fun some => absurd rfl some⟩
  · intro busy
    cases prompt : world.timedOut with
    | false => exact (Stage.of_reaches reach prompt).progress busy
    | true => exact recorded.progress busy prompt

/-- One call, which reads its time in two pieces. -/
def firstCall : World :=
  timeRequests.after World.Faultless {}
    [.call true, .send true, .accept, .serve 1, .recv (.bytes 3), .recv (.bytes 5)] (by decide)

theorem first_call_answered : firstCall.Answered ∧ firstCall.calls = 1 :=
  ⟨((allAnswered_iff (System.reaches_after _)).1 (by decide)).mpr (by decide), by decide⟩

/-- Two calls: the server closes the connection after the first, and the second reads its end. -/
def secondCall : World :=
  timeRequests.after World.Faultless {}
    [.call true, .send true, .accept, .serve 1, .recv (.bytes 8), .read, .call true, .send true, .recv .closed]
    (by decide)

/-- The second call on a client returns the empty string. -/
theorem second_call_unanswered :
    timeRequests.Reaches World.Faultless {} secondCall ∧ secondCall.calls = 2 ∧ secondCall.request = .idle ∧
      secondCall.results = ["16777216", ""] ∧ ¬secondCall.Answered := by
  refine ⟨System.reaches_after _, by decide, by decide, by decide, ?_⟩
  rintro ⟨-, answered⟩
  exact (answered "" (by decide)).1 rfl

end SoulLib.Network
