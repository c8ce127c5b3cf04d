import SoulLib.Network.Client
import SoulLib.Semantics.Runs

/-! The receive loop of `requestServerTime`, on its buffer.

TCP delivers a stream of bytes, and the operating system decides how many of them a
`recv` hands out. The stream ends when the peer closes the connection or with an error.
A write beyond the end of the buffer has no meaning.
-/

set_option autoImplicit false

namespace SoulLib.Network

open SoulLib.Networking (Byte)
open SoulLib.Semantics (System)

inductive Ending where
  | closed
  | error
  deriving DecidableEq, Repr

/-- The bytes that still arrive, and what comes after them. -/
structure Socket where
  stream : List Byte
  ending : Ending
  deriving DecidableEq, Repr

def Ending.recv : Ending → Recv
  | .closed => .closed
  | .error => .error

/-- `count` is how many of the `wanted` bytes the operating system hands out. -/
def Socket.recv (socket : Socket) (wanted count : Nat) : Option (Recv × Socket) :=
  if socket.stream.isEmpty then some (socket.ending.recv, socket)
  else if 0 < count ∧ count ≤ wanted ∧ count ≤ socket.stream.length then
    some (.bytes (socket.stream.take count), { socket with stream := socket.stream.drop count })
  else none

/-- `recv` writes to memory. -/
def writeAt (buffer : List Byte) (offset : Nat) (chunk : List Byte) : Option (List Byte) :=
  if offset + chunk.length ≤ buffer.length then
    some (buffer.take offset ++ chunk ++ buffer.drop (offset + chunk.length))
  else none

/-- The loop, or what it has led to. -/
inductive ReceiveLoop where
  | receiving (netTime : List Byte) (totalReceived : Nat) (socket : Socket)
  | returned (text : String) (socket : Socket)
  | undefined
  deriving DecidableEq, Repr

namespace ReceiveLoop

/-- `netTime` is zero when the loop begins. -/
def begin (socket : Socket) : ReceiveLoop := .receiving (List.replicate 8 0) 0 socket

/-- What follows the loop. -/
def finish (netTime : List Byte) (totalReceived : Nat) (socket : Socket) : ReceiveLoop :=
  if totalReceived < 8 then .returned "" socket
  else .returned (Nat.repr (Client.serverMs (decode64 netTime)).toNat) socket

/-- The body of the loop, when `recv` has answered. -/
def body (netTime : List Byte) (totalReceived : Nat) (socket : Socket) : Recv → ReceiveLoop
  | .error => .returned "" socket
  | .closed => if totalReceived = 0 then .returned "" socket else finish netTime totalReceived socket
  | .bytes chunk =>
      match writeAt netTime totalReceived chunk with
      | none => .undefined
      | some netTime =>
          let totalReceived := totalReceived + chunk.length
          if totalReceived < 8 then .receiving netTime totalReceived socket
          else finish netTime totalReceived socket

def step (loop : ReceiveLoop) (count : Nat) : Option ReceiveLoop :=
  match loop with
  | .receiving netTime totalReceived socket =>
      (socket.recv (8 - totalReceived) count).map fun answer => body netTime totalReceived answer.2 answer.1
  | .returned _ _ => none
  | .undefined => none

end ReceiveLoop

def receiveLoop : System ReceiveLoop Nat where
  step := ReceiveLoop.step

/-- The state of the loop after some calls of `recv`. -/
def Received (socket : Socket) (loop : ReceiveLoop) : Prop :=
  receiveLoop.Reaches (fun _ _ => True) (.begin socket) loop

def ReceiveLoop.Continues (after loop : ReceiveLoop) : Prop := ∃ count, receiveLoop.step loop count = some after

/-- The outcome depends on the bytes that arrive, and not on how they were cut. The first eight
are decoded, each half with its most significant byte first. -/
structure FragmentationFree (socket : Socket) : Prop where
  bounded : ¬Received socket .undefined
  progress : ∀ netTime totalReceived rest, Received socket (.receiving netTime totalReceived rest) →
    ∃ after, ReceiveLoop.Continues after (.receiving netTime totalReceived rest)
  finite : Acc ReceiveLoop.Continues (.begin socket)
  complete : ∀ text rest, Received socket (.returned text rest) → 8 ≤ socket.stream.length →
    text = Nat.repr (readHalves (socket.stream.take 8)) ∧ rest.stream = socket.stream.drop 8
  partly : ∀ text rest, Received socket (.returned text rest) → socket.stream.length < 8 → text = ""

namespace ReceiveLoop

/-- The beginning of the buffer and what is still to come make up the stream. -/
inductive Follows (socket : Socket) : ReceiveLoop → Prop where
  | receiving {netTime : List Byte} {totalReceived : Nat} {rest : Socket} (size : netTime.length = 8)
      (short : totalReceived < 8) (bytes : netTime.take totalReceived ++ rest.stream = socket.stream) :
      Follows socket (.receiving netTime totalReceived rest)
  | complete {rest : Socket} (enough : 8 ≤ socket.stream.length) (drops : rest.stream = socket.stream.drop 8) :
      Follows socket (.returned (Nat.repr (Client.serverMs (decode64 (socket.stream.take 8))).toNat) rest)
  | partly {rest : Socket} (short : socket.stream.length < 8) : Follows socket (.returned "" rest)

variable {socket rest after : Socket} {netTime written chunk : List Byte} {totalReceived wanted count : Nat}

theorem follows_begin (socket : Socket) : Follows socket (.begin socket) := .receiving rfl (by decide) rfl

theorem recv_cases {answer : Recv} (answered : socket.recv wanted count = some (answer, after)) :
    (socket.stream = [] ∧ after = socket ∧ (answer = .closed ∨ answer = .error)) ∨
      ∃ chunk, answer = .bytes chunk ∧ 0 < chunk.length ∧ chunk.length ≤ wanted ∧
        socket.stream = chunk ++ after.stream := by
  unfold Socket.recv at answered
  split at answered
  · next empty =>
      cases answered
      refine .inl ⟨List.isEmpty_iff.mp empty, rfl, ?_⟩
      cases socket.ending with
      | closed => exact .inl rfl
      | error => exact .inr rfl
  · split at answered
    · next fits =>
        cases answered
        refine .inr ⟨_, rfl, ?_, ?_, (List.take_append_drop _ _).symm⟩
        · rw [List.length_take]
          omega
        · rw [List.length_take]
          omega
    · cases answered

theorem exists_recv (socket : Socket) (positive : 0 < wanted) :
    ∃ count answer, socket.recv wanted count = some answer := by
  unfold Socket.recv
  split
  · exact ⟨0, _, rfl⟩
  · next filled =>
      have some : 0 < socket.stream.length := List.length_pos_iff.mpr (by simpa using filled)
      exact ⟨1, _, if_pos ⟨Nat.one_pos, positive, some⟩⟩

theorem writeAt_fits (fits : totalReceived + chunk.length ≤ netTime.length) :
    ∃ written, writeAt netTime totalReceived chunk = some written ∧ written.length = netTime.length ∧
      written.take (totalReceived + chunk.length) = netTime.take totalReceived ++ chunk := by
  have before : (netTime.take totalReceived).length = totalReceived := by
    rw [List.length_take]
    omega
  have filled : (netTime.take totalReceived ++ chunk).length = totalReceived + chunk.length := by
    rw [List.length_append, before]
  refine ⟨_, if_pos fits, ?_, List.take_left' filled⟩
  rw [List.length_append, filled, List.length_drop]
  omega

/-- The abstract loop of the client keeps the written part of the buffer. -/
def reception : ReceiveLoop → Option Reception
  | .receiving netTime totalReceived _ => some (.waiting (netTime.take totalReceived))
  | .returned text _ => some (.returned text)
  | .undefined => none

theorem afterLoop_eq (size : written.length = 8) :
    Client.afterLoop written = Nat.repr (Client.serverMs (decode64 written)).toNat := by
  rw [Client.afterLoop, if_neg (by omega)]

theorem body_refines (size : netTime.length = 8) (short : totalReceived < 8) {answer : Recv}
    (fits : ∀ chunk, answer = .bytes chunk → totalReceived + chunk.length ≤ 8) (rest : Socket) :
    (body netTime totalReceived rest answer).reception =
      some (Client.onRecv (netTime.take totalReceived) answer) := by
  have before : (netTime.take totalReceived).length = totalReceived := by
    rw [List.length_take]
    omega
  cases answer with
  | error => rfl
  | closed =>
      simp only [body, finish, Client.onRecv]
      by_cases none : totalReceived = 0
      · simp [none, reception]
      · have filled : (netTime.take totalReceived).isEmpty = false := by
          rw [List.isEmpty_eq_false_iff, ← List.length_pos_iff]
          omega
        have cut : Client.afterLoop (netTime.take totalReceived) = "" := by
          rw [Client.afterLoop, if_pos (by omega)]
        simp [none, short, reception, filled, cut]
  | bytes chunk =>
      have room := fits chunk rfl
      obtain ⟨written, wrote, same, content⟩ := writeAt_fits (size ▸ room)
      simp only [body, wrote, Client.onRecv, ← content]
      have length : (written.take (totalReceived + chunk.length)).length = totalReceived + chunk.length := by
        rw [List.length_take]
        omega
      rw [length]
      by_cases more : totalReceived + chunk.length < 8
      · rw [if_pos more, if_pos more]
        rfl
      · have whole : written.take (totalReceived + chunk.length) = written := List.take_of_length_le (by omega)
        rw [if_neg more, if_neg more, whole, afterLoop_eq (by omega), finish, if_neg more]
        rfl

theorem Follows.step {loop next : ReceiveLoop} (follows : Follows socket loop)
    (taken : receiveLoop.step loop count = some next) : Follows socket next := by
  cases follows with
  | complete => cases taken
  | partly => cases taken
  | @receiving netTime totalReceived rest size short bytes =>
      obtain ⟨⟨answer, after⟩, answered, rfl⟩ := Option.map_eq_some_iff.mp taken
      have before : (netTime.take totalReceived).length = totalReceived := by
        rw [List.length_take]
        omega
      rcases recv_cases answered with ⟨empty, rfl, ended⟩ | ⟨chunk, rfl, some, fits, split⟩
      · -- Nothing comes any more, and the buffer is not full.
        have cut : socket.stream.length < 8 := by
          rw [← bytes, empty, List.append_nil]
          omega
        rcases ended with rfl | rfl
        · simp only [body, finish, if_pos short, ite_self]
          exact .partly cut
        · exact .partly cut
      · have fits : totalReceived + chunk.length ≤ netTime.length := by omega
        obtain ⟨written, wrote, same, content⟩ := writeAt_fits fits
        rw [split, ← List.append_assoc, ← content] at bytes
        simp only [body, wrote]
        split
        · next more => exact .receiving (same.trans size) more bytes
        · next full =>
            have whole : totalReceived + chunk.length = written.length := by omega
            rw [whole, List.take_length] at bytes
            have eight : written.length = 8 := same.trans size
            rw [finish, if_neg full, ← List.take_left' eight, bytes]
            refine .complete ?_ ?_
            · rw [← bytes, List.length_append]
              omega
            · rw [← bytes, List.drop_left' eight]

theorem Received.follows {loop : ReceiveLoop} (received : Received socket loop) : Follows socket loop :=
  received.invariant (follows_begin socket) fun _ _ _ _ follows _ taken => follows.step taken

theorem exists_continues (follows : Follows socket (.receiving netTime totalReceived rest)) :
    ∃ after, Continues after (.receiving netTime totalReceived rest) := by
  cases follows with
  | receiving size short bytes =>
      obtain ⟨count, answer, answered⟩ := exists_recv rest (show 0 < 8 - totalReceived by omega)
      refine ⟨body netTime totalReceived answer.2 answer.1, count, ?_⟩
      show Option.map _ _ = _
      rw [answered]
      rfl

theorem body_receiving {answer : Recv} {next : List Byte} {total : Nat}
    (goesOn : body netTime totalReceived rest answer = .receiving next total after) :
    after = rest ∧ ∃ chunk, answer = .bytes chunk := by
  have ends (text : List Byte) (count : Nat) : finish text count rest ≠ .receiving next total after := by
    unfold finish
    split <;> simp
  cases answer with
  | error => cases goesOn
  | closed =>
      simp only [body] at goesOn
      split at goesOn
      · cases goesOn
      · exact absurd goesOn (ends _ _)
  | bytes chunk =>
      simp only [body] at goesOn
      split at goesOn
      · cases goesOn
      · split at goesOn
        · cases goesOn
          exact ⟨rfl, chunk, rfl⟩
        · exact absurd goesOn (ends _ _)

/-- Every round that does not end the loop takes bytes from the stream. -/
theorem acc_continues (loop : ReceiveLoop) : Acc Continues loop := by
  cases loop with
  | returned text rest => exact ⟨_, by rintro _ ⟨count, ⟨⟩⟩⟩
  | undefined => exact ⟨_, by rintro _ ⟨count, ⟨⟩⟩⟩
  | receiving netTime totalReceived rest =>
      induction size : rest.stream.length using Nat.strongRecOn generalizing netTime totalReceived rest with
      | ind size ih =>
          constructor
          rintro next ⟨count, taken⟩
          obtain ⟨⟨answer, after⟩, answered, same⟩ := Option.map_eq_some_iff.mp taken
          cases next with
          | returned text rest => exact ⟨_, by rintro _ ⟨count, ⟨⟩⟩⟩
          | undefined => exact ⟨_, by rintro _ ⟨count, ⟨⟩⟩⟩
          | receiving netTime totalReceived left =>
              obtain ⟨rfl, chunk, isBytes⟩ := body_receiving same
              rcases recv_cases answered with ⟨-, -, ended⟩ | ⟨chunk, -, some, -, split⟩
              · rcases ended with closed | error
                · cases isBytes.symm.trans closed
                · cases isBytes.symm.trans error
              · refine ih left.stream.length ?_ _ _ _ rfl
                rw [← size, split, List.length_append]
                omega

theorem receive_append (received : List Byte) (answers : List Recv) (answer : Recv) :
    Client.receive received (answers ++ [answer]) =
      match Client.receive received answers with
      | .waiting received => Client.onRecv received answer
      | .returned text => .returned text := by
  induction answers generalizing received with
  | nil =>
      simp only [List.nil_append, Client.receive]
      split <;> simp_all
  | cons first rest ih =>
      simp only [List.cons_append, Client.receive]
      split
      · exact ih _
      · rfl

/-- The buffer holds what the abstract loop keeps. -/
theorem Received.refines {loop : ReceiveLoop} (received : Received socket loop) :
    ∃ answers, loop.reception = some (Client.receive [] answers) := by
  induction received with
  | start => exact ⟨[], rfl⟩
  | next earlier _ taken ih =>
      obtain ⟨answers, same⟩ := ih
      cases Received.follows earlier with
      | complete => cases taken
      | partly => cases taken
      | receiving size short bytes =>
          obtain ⟨⟨answer, after⟩, answered, rfl⟩ := Option.map_eq_some_iff.mp taken
          refine ⟨answers ++ [answer], ?_⟩
          rw [body_refines size short ?_ after, receive_append, ← Option.some.inj same]
          rintro chunk rfl
          rcases recv_cases answered with ⟨-, -, ended⟩ | ⟨other, isBytes, -, fits, -⟩
          · rcases ended with closed | error
            · cases closed
            · cases error
          · cases isBytes
            omega

end ReceiveLoop

/-- However the operating system cuts the stream into pieces. -/
theorem fragmentationFree (socket : Socket) : FragmentationFree socket := by
  constructor
  · intro received
    cases ReceiveLoop.Received.follows received
  · intro netTime totalReceived rest received
    exact ReceiveLoop.exists_continues (ReceiveLoop.Received.follows received)
  · exact ReceiveLoop.acc_continues _
  · intro text rest received enough
    cases ReceiveLoop.Received.follows received with
    | complete _ drops =>
        have eight : (socket.stream.take 8).length = 8 := by
          rw [List.length_take]
          omega
        exact ⟨by rw [Client.toNat_serverMs eight], drops⟩
    | partly short => omega
  · intro text rest received short
    cases ReceiveLoop.Received.follows received with
    | complete enough drops => omega
    | partly => rfl

end SoulLib.Network
