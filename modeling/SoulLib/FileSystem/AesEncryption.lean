import SoulLib.Networking.Transport
import SoulLib.Semantics.Keystream

/-! The encryption strategy of the file system.

`encrypt` is one loop over the data. It reads the key and the vector in circles,
and rotates every byte of its copy of the key after each sixteenth round, the
first one included. An access outside of a vector has no meaning.
-/

set_option autoImplicit false

namespace SoulLib.FileSystem

open SoulLib.Networking (Byte)
open SoulLib.Semantics (mask length_mask mask_take mask_take_succ mask_mask
  getElem?_mask)

structure AesEncryption where
  key : List Byte := []
  iv : List Byte := []
  deriving DecidableEq, Repr

/-- The variables of the loop. -/
structure Pass where
  result : List Byte
  currentKey : List Byte
  keyIdx : Nat := 0
  ivIdx : Nat := 0
  deriving DecidableEq, Repr

/-- The operands are promoted to `int`, and the assignment cuts off all but a byte. -/
def rotate (b : Byte) : Byte := ((b.setWidth 32 <<< 1) ||| (b.setWidth 32 >>> 7)).setWidth 8

namespace AesEncryption

variable (cipher : AesEncryption)

/-- `v`. -/
def ivByte (pass : Pass) : Option Byte := if cipher.iv.isEmpty then some 0 else cipher.iv[pass.ivIdx]?

def round (pass : Pass) (i : Nat) : Option Pass := do
  let k ← pass.currentKey[pass.keyIdx]?
  let v ← cipher.ivByte pass
  let byte ← pass.result[i]?
  return {
    result := pass.result.set i (byte ^^^ k ^^^ v)
    currentKey := if i % 16 = 0 then pass.currentKey.map rotate else pass.currentKey
    keyIdx := (pass.keyIdx + 1) % pass.currentKey.length
    ivIdx := if cipher.iv.isEmpty then pass.ivIdx else (pass.ivIdx + 1) % cipher.iv.length }

def encrypt (data : List Byte) : Option (List Byte) :=
  if cipher.key.isEmpty then some data
  else
    ((List.range data.length).foldlM cipher.round { result := data, currentKey := cipher.key }).map Pass.result

def decrypt (data : List Byte) : Option (List Byte) := cipher.encrypt data

/-- The byte that masks a position: one of the key, rotated once for every sixteenth position
before it, and one of the vector. -/
def keystream (i : Nat) : Byte :=
  (cipher.key.getD (i % cipher.key.length) 0).rotateLeft ((i + 15) / 16 % 8) ^^^
    if cipher.iv.isEmpty then 0 else cipher.iv.getD (i % cipher.iv.length) 0

end AesEncryption

section Rotation

theorem rotate_eq (b : Byte) : rotate b = b.rotateLeft 1 := by
  revert b
  decide

theorem rotateLeft_zero (b : Byte) : b.rotateLeft 0 = b := by
  apply BitVec.eq_of_getElem_eq
  intro i bound
  simp [BitVec.getElem_rotateLeft]

theorem rotate_rotateLeft (b : Byte) (count : Nat) :
    rotate (b.rotateLeft (count % 8)) = b.rotateLeft ((count + 1) % 8) := by
  rw [rotate_eq]
  apply BitVec.eq_of_getElem_eq
  intro i bound
  simp only [BitVec.getElem_rotateLeft, Nat.mod_mod]
  -- Bits that came around, or come around with the last rotation, are on the other side of the word.
  split <;> split <;> split <;> first | omega | (congr 1; omega)

end Rotation

namespace AesEncryption

variable {cipher : AesEncryption}

/-- The loop before round `n`. -/
def before (cipher : AesEncryption) (data : List Byte) (n : Nat) : Pass where
  result := mask cipher.keystream (data.take n) ++ data.drop n
  currentKey := cipher.key.map fun b => b.rotateLeft ((n + 15) / 16 % 8)
  keyIdx := n % cipher.key.length
  ivIdx := if cipher.iv.isEmpty then 0 else n % cipher.iv.length

theorem map_rotate (key : List Byte) (n : Nat) :
    (if n % 16 = 0 then (key.map fun b => b.rotateLeft ((n + 15) / 16 % 8)).map rotate
      else key.map fun b => b.rotateLeft ((n + 15) / 16 % 8)) =
      key.map fun b => b.rotateLeft ((n + 1 + 15) / 16 % 8) := by
  split
  · next sixteenth =>
      have count : (n + 1 + 15) / 16 = (n + 15) / 16 + 1 := by omega
      rw [List.map_map, count]
      apply List.map_congr_left
      intro b _
      exact rotate_rotateLeft b _
  · next other =>
      have count : (n + 1 + 15) / 16 = (n + 15) / 16 := by omega
      rw [count]

/-- Going in circles never leaves a vector. -/
theorem getElem?_circle {bytes : List Byte} (filled : bytes.isEmpty = false) (n : Nat) :
    bytes[n % bytes.length]? = some (bytes.getD (n % bytes.length) 0) := by
  have positive : 0 < bytes.length := List.length_pos_iff.mpr (by simpa using filled)
  have bound : n % bytes.length < bytes.length := Nat.mod_lt _ positive
  rw [List.getD_eq_getElem?_getD, List.getElem?_eq_getElem bound, Option.getD_some]

theorem round_before {data : List Byte} {n : Nat} (keyed : cipher.key.isEmpty = false) (bound : n < data.length) :
    cipher.round (cipher.before data n) n = some (cipher.before data (n + 1)) := by
  have k : (cipher.before data n).currentKey[(cipher.before data n).keyIdx]? =
      some ((cipher.key.getD (n % cipher.key.length) 0).rotateLeft ((n + 15) / 16 % 8)) := by
    rw [before, List.getElem?_map, getElem?_circle keyed, Option.map_some]
  have v : cipher.ivByte (cipher.before data n) =
      some (if cipher.iv.isEmpty then 0 else cipher.iv.getD (n % cipher.iv.length) 0) := by
    unfold ivByte
    cases empty : cipher.iv.isEmpty with
    | true => rfl
    | false => simp only [before, empty, Bool.false_eq_true, if_false, getElem?_circle empty]
  have here : data[n]? = some data[n] := List.getElem?_eq_getElem bound
  have masked : (mask cipher.keystream (data.take n)).length = n := by
    rw [length_mask, List.length_take, Nat.min_eq_left (Nat.le_of_lt bound)]
  have byte : (cipher.before data n).result[n]? = some data[n] := by
    rw [before, List.getElem?_append_right (Nat.le_of_eq masked), masked, List.getElem?_drop, Nat.sub_self,
      Nat.add_zero, here]
  have written : (cipher.before data n).result.set n (data[n] ^^^ cipher.keystream n) =
      (cipher.before data (n + 1)).result := by
    rw [before, before, mask_take_succ _ _ here, List.set_append_right _ _ (Nat.le_of_eq masked), masked,
      Nat.sub_self, ← List.getElem_cons_drop bound, List.set_cons_zero, List.append_assoc, List.singleton_append]
  rw [keystream, ← BitVec.xor_assoc] at written
  simp only [round, k, v, byte, Option.bind_eq_bind, Option.bind_some, written]
  simp only [before, map_rotate, List.length_map, Nat.mod_add_mod]
  cases cipher.iv.isEmpty with
  | true => rfl
  | false => simp [Nat.mod_add_mod]

/-- All of the rounds, by induction on their number. -/
theorem rounds_eq {data : List Byte} (keyed : cipher.key.isEmpty = false) {n : Nat} (bound : n ≤ data.length) :
    (List.range n).foldlM cipher.round (cipher.before data 0) = some (cipher.before data n) := by
  induction n with
  | zero => rfl
  | succ n ih =>
      have earlier := ih (Nat.le_of_succ_le bound)
      rw [List.range_succ, List.foldlM_append, earlier]
      simp only [Option.bind_eq_bind, Option.bind_some, List.foldlM_cons, List.foldlM_nil]
      rw [round_before keyed bound, Option.bind_some]
      rfl

theorem encrypt_eq (keyed : cipher.key.isEmpty = false) (data : List Byte) :
    cipher.encrypt data = some (mask cipher.keystream data) := by
  have start : cipher.before data 0 = { result := data, currentKey := cipher.key } := by
    have unrotated : (cipher.key.map fun b => b.rotateLeft ((0 + 15) / 16 % 8)) = cipher.key :=
      (List.map_congr_left fun b _ => rotateLeft_zero b).trans (List.map_id _)
    simp [before, unrotated, mask]
  rw [encrypt, keyed, ← start, rounds_eq keyed (Nat.le_refl _)]
  simp [before]

/-- What `encrypt` and `decrypt` promise under one key and vector. -/
structure Streams (cipher : AesEncryption) : Prop where
  unkeyed : cipher.key = [] → ∀ data, cipher.encrypt data = some data
  masked : cipher.key ≠ [] → ∀ data, ∃ result, cipher.encrypt data = some result ∧
    result.length = data.length ∧ ∀ i, result[i]? = data[i]?.map fun byte => byte ^^^ cipher.keystream i
  decrypted : ∀ data, (cipher.encrypt data).bind cipher.decrypt = some data
  encrypted : ∀ data, (cipher.decrypt data).bind cipher.encrypt = some data
  prefixes : ∀ data count, cipher.encrypt (data.take count) = (cipher.encrypt data).map (List.take count)

theorem encrypt_unkeyed (unkeyed : cipher.key.isEmpty = true) (data : List Byte) : cipher.encrypt data = some data := by
  rw [encrypt, unkeyed, if_pos rfl]

theorem encrypt_encrypt (cipher : AesEncryption) (data : List Byte) :
    (cipher.encrypt data).bind cipher.encrypt = some data := by
  cases keyed : cipher.key.isEmpty with
  | true => rw [encrypt_unkeyed keyed, Option.bind_some, encrypt_unkeyed keyed]
  | false => rw [encrypt_eq keyed, Option.bind_some, encrypt_eq keyed, mask_mask]

theorem encrypt_streams (cipher : AesEncryption) : cipher.Streams := by
  constructor
  · intro unkeyed
    exact encrypt_unkeyed (List.isEmpty_iff.mpr unkeyed)
  · intro keyed data
    refine ⟨_, encrypt_eq (List.isEmpty_eq_false_iff.mpr keyed) data, length_mask _ _, ?_⟩
    intro i
    exact getElem?_mask _ _ i
  · exact cipher.encrypt_encrypt
  · exact cipher.encrypt_encrypt
  · intro data count
    cases keyed : cipher.key.isEmpty with
    | true => rw [encrypt_unkeyed keyed, encrypt_unkeyed keyed, Option.map_some]
    | false => rw [encrypt_eq keyed, encrypt_eq keyed, Option.map_some, mask_take]

/-- What encryption adds to the byte at a position, with a key or without. -/
def masking (cipher : AesEncryption) (i : Nat) : Byte := if cipher.key.isEmpty then 0 else cipher.keystream i

theorem encrypt_masking (cipher : AesEncryption) (data : List Byte) :
    cipher.encrypt data = some (mask cipher.masking data) := by
  cases keyed : cipher.key.isEmpty with
  | true =>
      rw [encrypt_unkeyed keyed]
      have plain : mask cipher.masking data = data := by
        apply List.ext_getElem?
        intro i
        rw [getElem?_mask]
        simp [masking, keyed]
      rw [plain]
  | false =>
      rw [encrypt_eq keyed]
      have same : cipher.masking = cipher.keystream := by
        funext i
        simp [masking, keyed]
      rw [same]

/-- Seventeen rounds rotate the key twice. -/
example : encrypt ⟨[0x81, 3], []⟩ (List.replicate 18 0) =
    some [0x81, 6, 3, 6, 3, 6, 3, 6, 3, 6, 3, 6, 3, 6, 3, 6, 3, 12] := by
  decide

end AesEncryption

end SoulLib.FileSystem
