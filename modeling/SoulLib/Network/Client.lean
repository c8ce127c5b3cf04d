import Mathlib.Data.List.Basic
import SoulLib.Networking.Transport

/-! What the time server and its client exchange.

Both run on little-endian hosts. The server sends a time as memory holds it; the
client reads eight bytes into memory and reverses the bytes of each half.
-/

set_option autoImplicit false

namespace SoulLib.Network

open SoulLib.Networking (Byte ByteOrder networkToHost)

/-- The bytes of a value in memory, and back. -/
def encode64 (value : BitVec 64) : List Byte :=
  ByteOrder.littleEndian.encode32 (value.extractLsb' 0 32) ++
    ByteOrder.littleEndian.encode32 (value.extractLsb' 32 32)

def decode64 (bytes : List Byte) : BitVec 64 :=
  ByteOrder.littleEndian.decode32 (bytes.drop 4) ++ ByteOrder.littleEndian.decode32 (bytes.take 4)

/-- What the handler of a connection sends. -/
def HostServer.timeMessage (serverTime : BitVec 64) : List Byte := encode64 serverTime

/-- The answer of one call of `recv`. -/
inductive Recv where
  | bytes (chunk : List Byte)
  | closed
  | error
  deriving DecidableEq, Repr

/-- The receive loop of `requestServerTime` goes on, or the call returns. -/
inductive Reception where
  | waiting (received : List Byte)
  | returned (text : String)
  deriving DecidableEq, Repr

namespace Client

/-- The conversion after the loop, with `ntohl` on each half. -/
def serverMs (netTime : BitVec 64) : BitVec 64 :=
  let highN : BitVec 32 := (netTime >>> 32).setWidth 32
  let lowN : BitVec 32 := (netTime &&& 0xFFFFFFFF).setWidth 32
  let high := networkToHost highN
  let low := networkToHost lowN
  (high.setWidth 64 <<< 32) ||| low.setWidth 64

def afterLoop (received : List Byte) : String :=
  if received.length < 8 then "" else Nat.repr (serverMs (decode64 received)).toNat

def onRecv (received : List Byte) : Recv → Reception
  | .error => .returned ""
  | .closed => .returned (if received.isEmpty then "" else afterLoop received)
  | .bytes chunk =>
      if (received ++ chunk).length < 8 then .waiting (received ++ chunk)
      else .returned (afterLoop (received ++ chunk))

def receive (received : List Byte) : List Recv → Reception
  | [] => .waiting received
  | recv :: rest =>
      match onRecv received recv with
      | .waiting received => receive received rest
      | .returned text => .returned text

end Client

/-- The number that the bytes are with the most significant byte first. -/
def bigEndian (bytes : List Byte) : Nat := bytes.foldl (fun value byte => value * 256 + byte.toNat) 0

/-- The number a client reads in the eight bytes of a time: each half with its most
significant byte first, and the second half above the first. -/
def readHalves (bytes : List Byte) : Nat := bigEndian (bytes.drop 4) * 2 ^ 32 + bigEndian (bytes.take 4)

/-- The number a decimal text stands for. -/
def decimal (text : String) : Nat := Nat.ofDigitChars 10 text.toList 0

@[simp] theorem decimal_repr (value : Nat) : decimal (Nat.repr value) = value := by
  rw [decimal, Nat.toList_repr, Nat.ofDigitChars_ten_toDigits]

@[simp] theorem length_encode64 (value : BitVec 64) : (encode64 value).length = 8 := by
  simp [encode64]

theorem append_halves (value : BitVec 64) : value.extractLsb' 32 32 ++ value.extractLsb' 0 32 = value := by
  apply BitVec.eq_of_getLsbD_eq
  intro i bound
  simp only [BitVec.getLsbD_append, BitVec.getLsbD_extractLsb']
  by_cases low : i < 32
  · simp [low]
  · have shifted : 32 + (i - 32) = i := by omega
    have above : i - 32 < 32 := by omega
    simp [low, shifted, above]

theorem decode64_encode64 (value : BitVec 64) : decode64 (encode64 value) = value := by
  have first : (encode64 value).take 4 = ByteOrder.littleEndian.encode32 (value.extractLsb' 0 32) :=
    List.take_left' (by simp)
  have second : (encode64 value).drop 4 = ByteOrder.littleEndian.encode32 (value.extractLsb' 32 32) :=
    List.drop_left' (by simp)
  rw [decode64, first, second, ByteOrder.decode32_encode32, ByteOrder.decode32_encode32, append_halves]

namespace Client

theorem serverMs_eq (netTime : BitVec 64) :
    serverMs netTime = networkToHost (netTime.extractLsb' 32 32) ++ networkToHost (netTime.extractLsb' 0 32) := by
  have high : (netTime >>> 32).setWidth 32 = netTime.extractLsb' 32 32 := by
    apply BitVec.eq_of_getLsbD_eq
    intro i bound
    simp [bound]
  have low : (netTime &&& 0xFFFFFFFF).setWidth 32 = netTime.extractLsb' 0 32 := by
    apply BitVec.eq_of_getLsbD_eq
    intro i bound
    have mask : (0xFFFFFFFF : BitVec 64).getLsbD i = true := by
      interval_cases i <;> decide
    rw [BitVec.getLsbD_setWidth, BitVec.getLsbD_and, mask, BitVec.getLsbD_extractLsb', Nat.zero_add, Bool.and_true]
  simp only [serverMs, high, low]
  apply BitVec.eq_of_getLsbD_eq
  intro i bound
  simp only [BitVec.getLsbD_or, BitVec.getLsbD_shiftLeft, BitVec.getLsbD_setWidth, BitVec.getLsbD_append]
  by_cases below : i < 32
  · simp [below, bound]
  · have small : i - 32 < 64 := by omega
    simp [below, bound, small, BitVec.getLsbD_of_ge _ i (Nat.le_of_not_lt below)]

theorem toNat_append {m n : Nat} (high : BitVec m) (low : BitVec n) :
    (high ++ low).toNat = high.toNat * 2 ^ n + low.toNat := by
  rw [BitVec.toNat_append, ← Nat.shiftLeft_add_eq_or_of_lt low.isLt, Nat.shiftLeft_eq]

theorem networkToHost_append (first second third fourth : Byte) :
    networkToHost (fourth ++ third ++ second ++ first) = first ++ second ++ third ++ fourth := by
  apply BitVec.eq_of_getLsbD_eq
  intro i bound
  simp only [networkToHost, BitVec.getLsbD_append, BitVec.getLsbD_extractLsb']
  interval_cases i <;> simp

theorem toNat_networkToHost {bytes : List Byte} (four : bytes.length = 4) :
    (networkToHost (ByteOrder.littleEndian.decode32 bytes)).toNat = bigEndian bytes := by
  obtain ⟨first, second, third, fourth, rfl⟩ : ∃ first second third fourth, bytes = [first, second, third, fourth] :=
    List.length_eq_four.mp four
  have decoded : ByteOrder.littleEndian.decode32 [first, second, third, fourth] =
      fourth ++ third ++ second ++ first := rfl
  rw [decoded, networkToHost_append, toNat_append, toNat_append, toNat_append]
  simp [bigEndian]

theorem toNat_serverMs {bytes : List Byte} (eight : bytes.length = 8) :
    (serverMs (decode64 bytes)).toNat = readHalves bytes := by
  have first : (bytes.take 4).length = 4 := by
    rw [List.length_take]
    omega
  have second : (bytes.drop 4).length = 4 := by
    rw [List.length_drop]
    omega
  rw [serverMs_eq, decode64, BitVec.extractLsb'_append_eq_left, BitVec.extractLsb'_append_eq_right,
    toNat_append, toNat_networkToHost first, toNat_networkToHost second, readHalves]
theorem serverMs_eq_self_iff (value : BitVec 64) :
    serverMs value = value ↔
      networkToHost (value.extractLsb' 32 32) = value.extractLsb' 32 32 ∧
        networkToHost (value.extractLsb' 0 32) = value.extractLsb' 0 32 := by
  rw [serverMs_eq]
  constructor
  · intro same
    have high := congrArg (BitVec.extractLsb' 32 32) same
    have low := congrArg (BitVec.extractLsb' 0 32) same
    rw [BitVec.extractLsb'_append_eq_left] at high
    rw [BitVec.extractLsb'_append_eq_right] at low
    exact ⟨high, low⟩
  · rintro ⟨high, low⟩
    rw [high, low, append_halves]

/-- Eight bytes are read in whatever pieces they come. -/
theorem receive_bytes {received : List Byte} {chunks : List (List Byte)} (short : received.length < 8)
    (whole : (received ++ chunks.flatten).length = 8) :
    receive received (chunks.map .bytes) = .returned (afterLoop (received ++ chunks.flatten)) := by
  induction chunks generalizing received with
  | nil =>
      simp at whole
      omega
  | cons chunk rest ih =>
      rw [List.flatten_cons, ← List.append_assoc] at whole ⊢
      simp only [List.map_cons, receive, onRecv]
      by_cases more : (received ++ chunk).length < 8
      · rw [if_pos more]
        exact ih more whole
      · have nothing : rest.flatten = [] := by
          apply List.eq_nil_of_length_eq_zero
          rw [List.length_append] at whole
          omega
        rw [if_neg more, nothing, List.append_nil]

end Client

/-- What `requestServerTime` returns for the bytes of a time stands for that time exactly when
the bytes of each half read the same in both directions. -/
theorem serverTime_survives_iff (serverTime : BitVec 64) (chunks : List (List Byte))
    (whole : chunks.flatten = HostServer.timeMessage serverTime) :
    ∃ text, Client.receive [] (chunks.map .bytes) = .returned text ∧
      (decimal text = serverTime.toNat ↔
        networkToHost (serverTime.extractLsb' 32 32) = serverTime.extractLsb' 32 32 ∧
          networkToHost (serverTime.extractLsb' 0 32) = serverTime.extractLsb' 0 32) := by
  have eight : ([] ++ chunks.flatten).length = 8 := by
    rw [whole, HostServer.timeMessage, List.nil_append, length_encode64]
  refine ⟨_, Client.receive_bytes (by decide) eight, ?_⟩
  have text : Client.afterLoop ([] ++ chunks.flatten) = Nat.repr (Client.serverMs serverTime).toNat := by
    rw [Client.afterLoop, if_neg (by omega), List.nil_append, whole, HostServer.timeMessage, decode64_encode64]
  rw [text, decimal_repr, BitVec.toNat_inj, Client.serverMs_eq_self_iff]

/-- A time whose two halves are palindromes, in two pieces. -/
theorem serverTime_survives_palindrome :
    ∃ text, Client.receive [] [.bytes [1, 2, 2], .bytes [1, 0, 0, 0, 0]] = .returned text ∧
      decimal text = 0x01020201 := by
  obtain ⟨text, returned, denotes⟩ :=
    serverTime_survives_iff 0x01020201 [[1, 2, 2], [1, 0, 0, 0, 0]] (by decide)
  exact ⟨text, returned, denotes.mpr (by decide)⟩

/-- The time 1 comes out as 2 ^ 24. -/
theorem serverTime_reversed :
    Client.receive [] [.bytes (HostServer.timeMessage 1)] = .returned "16777216" ∧ decimal "16777216" ≠ 1 := by
  decide

end SoulLib.Network
