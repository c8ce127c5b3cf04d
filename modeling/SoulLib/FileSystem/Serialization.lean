import SoulLib.FileSystem.Sessions

/-! Objects that go through the binary serializer to a file and back.

The serializer copies the bytes of a trivially copyable object. It reads as many
bytes as there are, up to the size of the type, over a value-initialised object.
-/

set_option autoImplicit false

namespace SoulLib.FileSystem

open SoulLib.Semantics (Bytes Disk System mask mask_mask mask_take)
open FileWorld (system)

/-- A type whose objects are their bytes; `initial` is `T{}`. -/
structure TriviallyCopyable (T : Type) where
  size : Nat
  initial : T
  bytes : T → Bytes
  ofBytes : Bytes → T
  length_bytes : ∀ obj, (bytes obj).length = size
  ofBytes_bytes : ∀ obj, ofBytes (bytes obj) = obj

namespace BinarySerializer

variable {T : Type} (type : TriviallyCopyable T)

def serialize (obj : T) : Bytes := type.bytes obj

def deserialize (data : Bytes) : T :=
  let copied := data.take (min data.length type.size)
  type.ofBytes (copied ++ (type.bytes type.initial).drop copied.length)

/-- The first bytes of one object and the others of a value-initialised one. -/
def mixed (obj : T) (count : Nat) : T :=
  type.ofBytes ((type.bytes obj).take count ++ (type.bytes type.initial).drop count)

variable {type}

theorem deserialize_prefix (obj : T) {count : Nat} (bound : count ≤ type.size) :
    deserialize type ((serialize type obj).take count) = mixed type obj count := by
  have copied : ((type.bytes obj).take count).length = count := by
    rw [List.length_take, type.length_bytes, Nat.min_eq_left bound]
  have whole : ((type.bytes obj).take count).take (min count type.size) = (type.bytes obj).take count := by
    rw [Nat.min_eq_left bound, List.take_take, Nat.min_self]
  simp only [deserialize, serialize, copied, whole, mixed]

end BinarySerializer

open BinarySerializer (serialize deserialize mixed)

variable {T Path : Type} [DecidableEq Path] {type : TriviallyCopyable T} {path : Path}
  {start world later : FileWorld Path} {after : Disk Path}

/-- An object saved under a cipher comes back whole if nothing failed, and otherwise with its first bytes and
the rest value-initialised, whatever other calls come in between. -/
theorem deserialize_after_save {cipher : AesEncryption} {obj : T} {ok : Bool} {accepted count taken ending : Nat}
    {read : Disk Path} {data : Bytes} (sound : start.disk.Sound)
    (earlier : system.Reaches (fun _ _ => True) start world) (available : world.disk.Available path)
    (keyed : world.manager.encryption = cipher.strategy)
    (saves : world.manager.save world.disk path (serialize type obj) true accepted count = some (after, ok))
    (unharmed : system.Reaches (fun _ call => ¬call.Rewrites path) (world.withDisk after) later)
    (rekeyed : later.manager.encryption = cipher.strategy) (whole : type.size ≤ taken)
    (loads : later.manager.load later.disk path true taken ending = some (read, data)) :
    ∃ copied ≤ type.size, deserialize type data = mixed type obj copied ∧
      (type.size ≤ count → (ok = true ↔ copied = type.size)) := by
  have length : (mask cipher.masking (type.bytes obj)).length = type.size := by
    rw [Semantics.length_mask, type.length_bytes]
  have encrypted : world.manager.encryption.encrypt (serialize type obj) =
      some (mask cipher.masking (type.bytes obj)) := by
    rw [keyed]
    exact cipher.encrypt_masking _
  obtain ⟨reached, file, content, ran, settled, within, complete⟩ :=
    save_settled (sound_of_reaches sound earlier) available encrypted accepted count
  obtain ⟨rfl, rfl⟩ := Prod.mk.inj (Option.some.inj (ran.symm.trans saves))
  -- the file holds a first part of the masked bytes, however far the save got
  have cut : content = (mask cipher.masking (type.bytes obj)).take content.length :=
    List.prefix_iff_eq_take.mp (within.trans (List.take_prefix _ _))
  have short : content.length ≤ type.size := length ▸ (within.trans (List.take_prefix _ _)).length_le
  have loaded := load_settled later.manager (reaches_settled settled unharmed) (Nat.le_trans short whole) ending
  rw [loads, rekeyed] at loaded
  have plain : cipher.strategy.decrypt content = some ((type.bytes obj).take content.length) := by
    rw [← mask_take] at cut
    calc cipher.strategy.decrypt content
        = cipher.strategy.decrypt (mask cipher.masking ((type.bytes obj).take content.length)) := congrArg _ cut
      _ = some (mask cipher.masking (mask cipher.masking ((type.bytes obj).take content.length))) :=
          cipher.encrypt_masking _
      _ = some ((type.bytes obj).take content.length) := by rw [mask_mask]
  obtain rfl : data = (type.bytes obj).take content.length := Option.some.inj (loaded.trans plain)
  refine ⟨content.length, short, BinarySerializer.deserialize_prefix obj short, ?_⟩
  intro flushes
  -- if everything could be flushed, only a short write is left to fail
  have full := complete (by rw [List.length_take, length]; omega)
  rw [full, List.length_take, length, decide_eq_true_iff]
  omega

def bytePair : TriviallyCopyable (BitVec 8 × BitVec 8) where
  size := 2
  initial := (0, 0)
  bytes pair := [pair.1, pair.2]
  ofBytes data := (data.getD 0 0, data.getD 1 0)
  length_bytes _ := rfl
  ofBytes_bytes _ := rfl

/-- Two bytes, of which a full disk takes the first. -/
theorem deserialize_after_save_cut : ∃ (manager : FileManager) (after read : Disk String) (data : Bytes),
    manager.save .empty "a" (serialize bytePair (5, 6)) true 1 2 = some (after, false) ∧
      manager.load after "a" true 2 0 = some (read, data) ∧
      ∃ copied ≤ 2, deserialize bytePair data = mixed bytePair (5, 6) copied ∧ copied ≠ 2 := by
  obtain ⟨manager, after, read, data, keyed, saves, loads⟩ : ∃ (manager : FileManager) (after read : Disk String)
      (data : Bytes), manager.encryption = AesEncryption.strategy {} ∧
        manager.save .empty "a" (serialize bytePair (5, 6)) true 1 2 = some (after, false) ∧
        manager.load after "a" true 2 0 = some (read, data) :=
    ⟨⟨.binary, AesEncryption.strategy {}⟩, _, _, _, rfl, rfl, rfl⟩
  have here : system.Reaches (fun _ _ => True) (⟨.empty, manager⟩ : FileWorld String) ⟨.empty, manager⟩ := .start
  obtain ⟨copied, within, same, whole⟩ := deserialize_after_save Disk.sound_empty here (Disk.available_of_missing rfl)
    keyed saves .start keyed (Nat.le_refl 2) loads
  refine ⟨manager, after, read, data, saves, loads, copied, within, same, ?_⟩
  intro full
  exact absurd ((whole (Nat.le_refl 2)).mpr full) Bool.false_ne_true

end SoulLib.FileSystem
