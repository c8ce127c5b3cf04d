import SoulLib.FileSystem.Files

/-! Files that are written under a cipher, at once or in several calls.

The mask of a cipher starts anew with each call of `writeAll`, but a load takes one
mask off the whole file.
-/

set_option autoImplicit false

namespace SoulLib.FileSystem

open SoulLib.Semantics (Bytes Disk System mask length_mask mask_mask_eq_iff mask_flatten_eq_iff)
open FileWorld (system)

variable {Path : Type} [DecidableEq Path] {path : Path} {handle : Nat}
  {start world opened saved closing closed later : FileWorld Path}

/-- From the opening of a handle on: its chunks, all written under the cipher and without errors, and any calls
in between that use other handles and rewrite other paths. -/
inductive Session (cipher : AesEncryption) (path : Path) (handle : Nat) (opened : FileWorld Path) :
    FileWorld Path → List Bytes → Prop where
  | opened : Session cipher path handle opened opened []
  | write {world after : FileWorld Path} {chunks : List Bytes} {data : Bytes} {accepted : Nat} :
      Session cipher path handle opened world chunks → world.manager.encryption = cipher.strategy →
      data.length ≤ accepted → world.step (.writeAll (some handle) data accepted) = some after →
      Session cipher path handle opened after (chunks ++ [data])
  | flush {world after : FileWorld Path} {chunks : List Bytes} {count : Nat} :
      Session cipher path handle opened world chunks → world.step (.flush handle count) = some after →
      Session cipher path handle opened after chunks
  | other {world after : FileWorld Path} {chunks : List Bytes} {call : FileCall Path} :
      Session cipher path handle opened world chunks → ¬call.Rewrites path → ¬call.Uses handle →
      world.step call = some after → Session cipher path handle opened after chunks

theorem session_draft {cipher : AesEncryption} {file : Nat} {chunks : List Bytes}
    (begun : opened.disk.Sound ∧ opened.disk.Draft path file handle [])
    (session : Session cipher path handle opened world chunks) :
    world.disk.Sound ∧ world.disk.Draft path file handle (chunks.map (mask cipher.masking)).flatten := by
  induction session with
  | opened => exact begun
  | @write world after chunks data accepted _ keyed whole taken ih =>
      refine ⟨holds_step Disk.sound_invariant ih.1 (fun _ _ => trivial) (fun _ _ => trivial) taken, ?_⟩
      obtain ⟨⟨disk, ok⟩, done, same⟩ := Option.map_eq_some_iff.mp taken
      cases same
      obtain ⟨enc, encrypted, writes⟩ := Option.bind_eq_some_iff.mp done
      obtain ⟨⟨written, count⟩, puts, same⟩ := Option.map_eq_some_iff.mp writes
      cases same
      obtain ⟨draft, drafts, drafted⟩ := Disk.put_draft ih.2 enc accepted
      cases puts.symm.trans drafts
      rw [keyed] at encrypted
      cases (cipher.encrypt_masking data).symm.trans encrypted
      rw [List.take_of_length_le (by rw [length_mask]; exact whole)] at drafted
      rw [List.map_append, List.flatten_append, List.map_singleton, List.flatten_singleton]
      exact drafted
  | flush _ taken ih =>
      refine ⟨holds_step Disk.sound_invariant ih.1 (fun _ _ => trivial) (fun _ _ => trivial) taken, ?_⟩
      obtain ⟨disk, done, same⟩ := Option.map_eq_some_iff.mp taken
      cases same
      obtain ⟨flushed, first, kept, -⟩ := Disk.flush_draft ih.2 _
      cases done.symm.trans first
      exact kept
  | other _ spared unused taken ih =>
      refine holds_step (Disk.draft_invariant path file handle _) ih ?_ ?_ taken
      · rintro other rewrites rfl
        exact spared rewrites
      · rintro other uses rfl
        exact unused uses

/-- A file that is written in chunks under a cipher and loaded under it is restored exactly if the mask
repeats at every chunk. -/
theorem load_after_session_iff {cipher : AesEncryption} {mode : FileMode} {disk : Disk Path} {chunks : List Bytes}
    {count taken ending : Nat} (sound : start.disk.Sound) (earlier : system.Reaches (fun _ _ => True) start world)
    (available : world.disk.Available path) (writes : mode ≠ .read)
    (opens : world.manager.open_ world.disk path mode true = (disk, some handle))
    (session : Session cipher path handle (world.withDisk disk) closing chunks)
    (closes : closing.step (.close (some handle) count) = some closed) (flushes : chunks.flatten.length ≤ count)
    (unharmed : system.Reaches (fun _ call => ¬call.Rewrites path) closed later)
    (keyed : later.manager.encryption = cipher.strategy) (whole : chunks.flatten.length ≤ taken) :
    (later.manager.load later.disk path true taken ending).map Prod.snd = some chunks.flatten ↔
      ∀ before chunk after, chunks = before ++ chunk :: after →
        ∀ i < chunk.length, cipher.masking (before.flatten.length + i) = cipher.masking i := by
  have here := sound_of_reaches sound earlier
  obtain ⟨file, fresh, emptied, makes, draft⟩ := Disk.openWrite_draft here available
  have opening : world.manager.open_ world.disk path mode true = world.disk.openWrite path true := by
    obtain ⟨io, encryption⟩ := world.manager
    cases io <;> (rw [FileManager.open_, if_neg writes]; rfl)
  cases (opens.symm.trans opening).trans makes
  have begun : (world.withDisk disk).disk.Sound := by
    have opened := here.openWrite path true
    rw [makes] at opened
    exact opened
  obtain ⟨kept, drafted⟩ := session_draft ⟨begun, draft⟩ session
  obtain ⟨after, _, content, done, settled, -, -, -, complete⟩ := Disk.close_draft drafted count
  -- masking keeps the length of every chunk
  have masked : (chunks.map (mask cipher.masking)).flatten.length = chunks.flatten.length := by
    simp [List.length_flatten, Function.comp_def]
  obtain rfl := complete (by rw [masked]; exact flushes)
  have reached : closed = closing.withDisk after := by
    simp only [FileWorld.step, FileManager.close, IFileIO.close, done, Option.map_some, Option.some.injEq] at closes
    exact closes.symm
  have ended : closed.disk.Sound :=
    holds_step Disk.sound_invariant kept (fun _ _ => trivial) (fun _ _ => trivial) closes
  subst reached
  rw [load_settled _ (reaches_settled ⟨ended, settled⟩ unharmed) (by rw [masked]; exact whole), keyed]
  -- load masks the file as one piece, from the start of the key
  have decrypts : cipher.strategy.decrypt (chunks.map (mask cipher.masking)).flatten =
      some (mask (fun i => cipher.masking (0 + i)) (chunks.map (mask cipher.masking)).flatten) := by
    simp only [Nat.zero_add]
    exact cipher.encrypt_masking _
  rw [decrypts, Option.some.injEq, mask_flatten_eq_iff]
  simp only [Nat.zero_add]

/-- Two chunks of one byte each under a key that no rotation changes. -/
theorem load_after_session_repeated : ∃ disk first closing closed,
    FileManager.open_ ⟨.binary, AesEncryption.strategy ⟨[255], []⟩⟩ .empty "a" .write true = (disk, some 0) ∧
      FileWorld.step ⟨disk, ⟨.binary, AesEncryption.strategy ⟨[255], []⟩⟩⟩ (.writeAll (some 0) [1] 1) =
        some first ∧
      first.step (.writeAll (some 0) [2] 1) = some closing ∧
      closing.step (.close (some 0) 2) = some closed ∧
      (closed.manager.load closed.disk "a" true 2 0).map Prod.snd = some [1, 2] := by
  obtain ⟨disk, first, closing, closed, opens, one, two, closes, keyed, rekeyed⟩ : ∃ disk first closing closed,
    FileManager.open_ ⟨.binary, AesEncryption.strategy ⟨[255], []⟩⟩ .empty "a" .write true = (disk, some 0) ∧
      FileWorld.step ⟨disk, ⟨.binary, AesEncryption.strategy ⟨[255], []⟩⟩⟩ (.writeAll (some 0) [1] 1) =
        some first ∧
      first.step (.writeAll (some 0) [2] 1) = some closing ∧
      closing.step (.close (some 0) 2) = some closed ∧
      first.manager.encryption = AesEncryption.strategy ⟨[255], []⟩ ∧
      closed.manager.encryption = AesEncryption.strategy ⟨[255], []⟩ :=
    ⟨_, _, _, _, rfl, rfl, rfl, rfl, rfl, rfl⟩
  refine ⟨disk, first, closing, closed, opens, one, two, closes, ?_⟩
  have here : system.Reaches (fun _ _ => True)
      (⟨.empty, ⟨.binary, AesEncryption.strategy ⟨[255], []⟩⟩⟩ : FileWorld String)
      ⟨.empty, ⟨.binary, AesEncryption.strategy ⟨[255], []⟩⟩⟩ := .start
  have session : Session ⟨[255], []⟩ "a" 0 ⟨disk, ⟨.binary, AesEncryption.strategy ⟨[255], []⟩⟩⟩ closing
      ([] ++ [[1]] ++ [[2]]) :=
    .write (.write .opened rfl (Nat.le_refl 1) one) keyed (Nat.le_refl 1) two
  refine (load_after_session_iff Disk.sound_empty here (Disk.available_of_missing rfl) (by decide) opens session closes
    (Nat.le_refl 2) .start rekeyed (Nat.le_refl 2)).mpr ?_
  intro before chunk after same i bound
  match before, same with
  | [], same =>
      cases same
      simp
  | [_], same =>
      cases same
      obtain rfl : i = 0 := Nat.lt_one_iff.mp bound
      decide
  | _ :: _ :: before, same => simp at same

/-- What is saved under one cipher is restored under another exactly if their masks agree on the data. -/
theorem load_after_save_iff {first second : AesEncryption} {data : Bytes} {accepted count taken ending : Nat}
    (sound : start.disk.Sound) (earlier : system.Reaches (fun _ _ => True) start world)
    (available : world.disk.Available path) (keyed : world.manager.encryption = first.strategy)
    (accepts : data.length ≤ accepted) (flushes : data.length ≤ count)
    (saves : world.step (.save path data true accepted count) = some saved)
    (unharmed : system.Reaches (fun _ call => ¬call.Rewrites path) saved later)
    (rekeyed : later.manager.encryption = second.strategy) (whole : data.length ≤ taken) :
    (later.manager.load later.disk path true taken ending).map Prod.snd = some data ↔
      ∀ i < data.length, second.masking i = first.masking i := by
  have encrypted : world.manager.encryption.encrypt data = some (mask first.masking data) := by
    rw [keyed]
    exact first.encrypt_masking data
  have masked := length_mask first.masking data
  obtain ⟨kept, file, settled⟩ := saved_settled (sound_of_reaches sound earlier) available encrypted
    (by rw [masked]; exact accepts) (by rw [masked]; exact flushes) saves unharmed
  rw [load_settled _ ⟨kept, settled⟩ (by rw [masked]; exact whole), rekeyed]
  have decrypts : second.strategy.decrypt (mask first.masking data) =
      some (mask second.masking (mask first.masking data)) := second.encrypt_masking _
  rw [decrypts, Option.some.injEq, mask_mask_eq_iff]

/-- A key that repeats another one. -/
theorem load_after_save_rekeyed : ∃ saved later,
    FileWorld.step ⟨.empty, ⟨.binary, AesEncryption.strategy ⟨[9], []⟩⟩⟩ (.save "a" [1, 2] true 2 2) =
        some saved ∧
      saved.step (.setEncryptionStrategy (AesEncryption.strategy ⟨[9, 9], []⟩)) = some later ∧
      (later.manager.load later.disk "a" true 2 0).map Prod.snd = some [1, 2] := by
  obtain ⟨saved, later, saves, goes, rekeyed⟩ : ∃ saved later,
      FileWorld.step ⟨.empty, ⟨.binary, AesEncryption.strategy ⟨[9], []⟩⟩⟩ (.save "a" [1, 2] true 2 2) =
          some saved ∧
        saved.step (.setEncryptionStrategy (AesEncryption.strategy ⟨[9, 9], []⟩)) = some later ∧
        later.manager.encryption = AesEncryption.strategy ⟨[9, 9], []⟩ := ⟨_, _, rfl, rfl, rfl⟩
  refine ⟨saved, later, saves, goes, ?_⟩
  have harmless : ¬(FileCall.setEncryptionStrategy (AesEncryption.strategy ⟨[9, 9], []⟩)).Rewrites "a" := id
  exact (load_after_save_iff Disk.sound_empty .start (Disk.available_of_missing rfl) rfl (Nat.le_refl 2) (Nat.le_refl 2)
    saves (.next .start harmless goes) rekeyed (Nat.le_refl 2)).mpr (by decide)

end SoulLib.FileSystem
