import SoulLib.FileSystem.FileManager

/-! What becomes of a saved file while the program goes on.

A file is safe once it is written and closed: other calls of the manager, on
handles of their own, leave it alone until its path is opened for writing or
removed. What a load returns then depends on the two strategies alone.
-/

set_option autoImplicit false

namespace SoulLib.FileSystem

open SoulLib.Semantics (Bytes Disk Stream System mask)

variable {Path : Type} [DecidableEq Path] {path : Path}
  {holds : Disk Path → Prop} {writable : Path → Prop} {usable : Nat → Prop}
  {disk after : Disk Path} {manager : FileManager}

section Operations

variable (invariant : Disk.Invariant holds writable usable) (here : holds disk)
include invariant here

theorem holds_openRead (path : Path) (granted : Bool) : holds (disk.openRead path granted).1 ∧
    ∀ handle, (disk.openRead path granted).2 = some handle → usable handle := by
  refine ⟨invariant.openRead disk path granted here, ?_⟩
  intro handle opened
  unfold Disk.openRead at opened
  split at opened
  · split at opened
    · cases opened
      exact invariant.fresh disk here
    · cases opened
  · cases opened

theorem holds_openWrite {granted : Bool} (allowed : granted = true → writable path) :
    holds (disk.openWrite path granted).1 ∧
      ∀ handle, (disk.openWrite path granted).2 = some handle → usable handle := by
  cases granted with
  | false => exact ⟨here, fun handle none => by cases none⟩
  | true =>
      refine ⟨invariant.openWrite disk path (allowed rfl) here, ?_⟩
      intro handle opened
      unfold Disk.openWrite at opened
      split at opened
      · split at opened <;> (cases opened; exact invariant.fresh disk here)
      · cases opened

theorem holds_open (manager : FileManager) (path : Path) (mode : FileMode) (granted : Bool)
    (allowed : mode ≠ .read → granted = true → writable path) :
    holds (manager.open_ disk path mode granted).1 ∧
      ∀ handle, (manager.open_ disk path mode granted).2 = some handle → usable handle := by
  have reading := holds_openRead invariant here path granted
  obtain ⟨io, encryption⟩ := manager
  by_cases read : mode = .read
  · cases io <;> (rw [FileManager.open_, if_pos read]; exact reading)
  · have writing := holds_openWrite invariant here (allowed read)
    cases io <;> (rw [FileManager.open_, if_neg read]; exact writing)

theorem holds_close {handle : FileHandle} {count : Nat} (use : ∀ open_, handle = some open_ → usable open_)
    (done : manager.close disk handle count = some after) : holds after := by
  cases handle with
  | none =>
      cases done
      exact here
  | some handle => exact invariant.close disk handle count after (use handle rfl) here done

theorem holds_readAll {handle : FileHandle} {taken : Nat} {data : Bytes}
    (use : ∀ open_, handle = some open_ → usable open_)
    (done : manager.readAll disk handle taken = some (after, data)) : holds after := by
  obtain ⟨⟨middle, enc⟩, reads, rest⟩ := Option.bind_eq_some_iff.mp done
  obtain ⟨plain, -, same⟩ := Option.bind_eq_some_iff.mp rest
  cases same
  cases handle with
  | none =>
      cases reads
      exact here
  | some handle => exact invariant.readWhole disk handle taken _ enc (use handle rfl) here reads

theorem holds_writeAll {handle : FileHandle} {data : Bytes} {accepted : Nat} {ok : Bool}
    (use : ∀ open_, handle = some open_ → usable open_)
    (done : manager.writeAll disk handle data accepted = some (after, ok)) : holds after := by
  obtain ⟨enc, -, writes⟩ := Option.bind_eq_some_iff.mp done
  cases handle with
  | none =>
      cases writes
      exact here
  | some handle =>
      obtain ⟨⟨middle, count⟩, puts, same⟩ := Option.map_eq_some_iff.mp writes
      cases same
      exact invariant.put disk handle enc accepted _ count (use handle rfl) here puts

theorem holds_save {data : Bytes} {granted ok : Bool} {accepted count : Nat} (allowed : granted = true → writable path)
    (done : manager.save disk path data granted accepted count = some (after, ok)) : holds after := by
  obtain ⟨⟨written, wrote⟩, writes, rest⟩ := Option.bind_eq_some_iff.mp done
  obtain ⟨closed, closes, same⟩ := Option.bind_eq_some_iff.mp rest
  cases same
  have opened := holds_open invariant here manager path .write granted fun _ => allowed
  exact holds_close invariant (holds_writeAll invariant opened.1 opened.2 writes) opened.2 closes

theorem holds_load {data : Bytes} {granted : Bool} {taken count : Nat}
    (done : manager.load disk path granted taken count = some (after, data)) : holds after := by
  obtain ⟨⟨read, plain⟩, reads, rest⟩ := Option.bind_eq_some_iff.mp done
  obtain ⟨closed, closes, same⟩ := Option.bind_eq_some_iff.mp rest
  cases same
  have opened := holds_open invariant here manager path .read granted fun write => (write rfl).elim
  exact holds_close invariant (holds_readAll invariant opened.1 opened.2 reads) opened.2 closes

theorem holds_remove (manager : FileManager) {granted : Bool} (allowed : granted = true → writable path) :
    holds (manager.remove disk path granted).1 := by
  cases granted with
  | false => exact here
  | true => exact invariant.remove disk path (allowed rfl) here

end Operations

/-- An invariant of the disk operations is kept by every call within its bounds. -/
theorem holds_step (invariant : Disk.Invariant holds writable usable)
    {world later : FileWorld Path} {call : FileCall Path}
    (here : holds world.disk) (allowed : ∀ path, call.Rewrites path → writable path)
    (use : ∀ handle, call.Uses handle → usable handle) (taken : world.step call = some later) :
    holds later.disk := by
  cases call with
  -- the handlers are replaced, the disk is not touched
  | setIOHandler | setEncryptionStrategy =>
      cases taken
      exact here
  | remove other granted =>
      cases taken
      exact holds_remove invariant here world.manager fun granted => allowed other ⟨rfl, granted⟩
  | open_ other mode granted =>
      cases taken
      exact (holds_open invariant here _ other mode granted fun write granted => allowed other ⟨rfl, write, granted⟩).1
  | close handle count =>
      obtain ⟨disk, done, same⟩ := Option.map_eq_some_iff.mp taken
      cases same
      exact holds_close invariant here use done
  | readAll handle count =>
      obtain ⟨⟨disk, data⟩, done, same⟩ := Option.map_eq_some_iff.mp taken
      cases same
      exact holds_readAll invariant here use done
  | writeAll handle data accepted =>
      obtain ⟨⟨disk, ok⟩, done, same⟩ := Option.map_eq_some_iff.mp taken
      cases same
      exact holds_writeAll invariant here use done
  -- the JSON calls do to the disk what the plain ones do
  | save other data granted accepted count | saveJson other data granted accepted count =>
      obtain ⟨⟨disk, ok⟩, done, same⟩ := Option.map_eq_some_iff.mp taken
      cases same
      exact holds_save invariant here (fun granted => allowed other ⟨rfl, granted⟩) done
  | load other granted count taking | loadJson other granted count taking =>
      obtain ⟨⟨disk, data⟩, done, same⟩ := Option.map_eq_some_iff.mp taken
      cases same
      exact holds_load invariant here done
  | flush handle count =>
      obtain ⟨disk, done, same⟩ := Option.map_eq_some_iff.mp taken
      cases same
      exact invariant.flush world.disk handle count disk (use handle rfl) here done

section Runs

open FileWorld (system)

variable {file handle : Nat} {content written enc data : Bytes} {start world saved later : FileWorld Path}

theorem sound_of_reaches {admits : FileWorld Path → FileCall Path → Prop} (sound : start.disk.Sound)
    (reach : system.Reaches admits start world) : world.disk.Sound := by
  induction reach with
  | start => exact sound
  | next _ _ taken ih => exact holds_step Disk.sound_invariant ih (fun _ _ => trivial) (fun _ _ => trivial) taken

theorem reaches_settled (here : start.disk.Sound ∧ start.disk.Settled path file content)
    (reach : system.Reaches (fun _ call => ¬call.Rewrites path) start world) :
    world.disk.Sound ∧ world.disk.Settled path file content := by
  induction reach with
  | start => exact here
  | next _ spared taken ih =>
      refine holds_step (Disk.settled_invariant path file content) ih ?_ (fun _ _ => trivial) taken
      rintro other rewrites rfl
      exact spared rewrites

theorem load_settled (manager : FileManager) (here : disk.Sound ∧ disk.Settled path file content) {taken : Nat}
    (whole : content.length ≤ taken) (count : Nat) :
    (manager.load disk path true taken count).map Prod.snd = manager.encryption.decrypt content := by
  obtain ⟨opened, handle, read, closed, opens, reads, closes⟩ :=
    Disk.readWhole_settled here.1 here.2 whole count
  have opening : manager.open_ disk path .read true = (opened, some handle) := by
    rw [← opens]
    obtain ⟨io, encryption⟩ := manager
    cases io <;> rfl
  have reading : manager.fileIO.read opened (some handle) taken = some (read, content) := reads
  have closing : manager.close read (some handle) count = some closed := closes
  cases plain : manager.encryption.decrypt content with
  | none => simp [FileManager.load, opening, FileManager.readAll, reading, plain]
  | some data => simp [FileManager.load, opening, FileManager.readAll, reading, plain, closing]

theorem save_settled (sound : disk.Sound) (available : disk.Available path)
    (encrypted : manager.encryption.encrypt data = some enc) (accepted count : Nat) :
    ∃ (after : Disk Path) (file : Nat) (content : Bytes),
      manager.save disk path data true accepted count = some (after, decide (enc.length ≤ accepted)) ∧
      (after.Sound ∧ after.Settled path file content) ∧ content <+: enc.take accepted ∧
      ((enc.take accepted).length ≤ count → content = enc.take accepted) := by
  obtain ⟨file, handle, opened, opens, draft⟩ := Disk.openWrite_draft sound available
  have opening : manager.open_ disk path .write true = (opened, some handle) := by
    rw [← opens]
    obtain ⟨io, encryption⟩ := manager
    cases io <;> rfl
  obtain ⟨written, puts, drafted⟩ := Disk.put_draft draft enc accepted
  obtain ⟨after, _, content, closes, settled, -, -, within, complete⟩ := Disk.close_draft drafted count
  have ran : manager.save disk path data true accepted count =
      some (after, decide (enc.length ≤ accepted)) := by
    have writing : manager.fileIO.write opened (some handle) enc accepted =
        some (written, decide (enc.length ≤ accepted)) := by
      have whole : (min accepted enc.length == enc.length) = decide (enc.length ≤ accepted) := by
        rw [Bool.eq_iff_iff, beq_iff_eq, decide_eq_true_iff]
        omega
      simp [puts, IFileIO.write, whole]
    have closing : manager.close written (some handle) count = some after := closes
    simp [FileManager.save, opening, FileManager.writeAll, encrypted, writing, closing]
  refine ⟨after, file, content, ran, ⟨?_, settled⟩, within, complete⟩
  exact holds_save Disk.sound_invariant sound (fun _ => trivial) ran

theorem saved_settled (sound : world.disk.Sound) (available : world.disk.Available path)
    (encrypted : world.manager.encryption.encrypt data = some enc) {accepted count : Nat}
    (accepts : enc.length ≤ accepted) (flushes : enc.length ≤ count)
    (saves : world.step (.save path data true accepted count) = some saved)
    (unharmed : system.Reaches (fun _ call => ¬call.Rewrites path) saved later) :
    later.disk.Sound ∧ ∃ file, later.disk.Settled path file enc := by
  obtain ⟨after, file, content, ran, settled, -, complete⟩ := save_settled sound available encrypted accepted count
  rw [List.take_of_length_le accepts] at complete
  obtain rfl := complete flushes
  have reached : saved.disk = after := by
    simp only [FileWorld.step, ran, Option.map_some, Option.some.injEq] at saves
    rw [← saves]
    rfl
  rw [← reached] at settled
  have later := reaches_settled settled unharmed
  exact ⟨later.1, file, later.2⟩

/-- What is saved without errors is there, and is what every later load decrypts, whatever other calls come in
between. -/
theorem load_after_save (sound : start.disk.Sound) (earlier : system.Reaches (fun _ _ => True) start world)
    (available : world.disk.Available path) (encrypted : world.manager.encryption.encrypt data = some enc)
    {accepted count taken closing : Nat} (accepts : enc.length ≤ accepted) (flushes : enc.length ≤ count)
    (saves : world.step (.save path data true accepted count) = some saved)
    (unharmed : system.Reaches (fun _ call => ¬call.Rewrites path) saved later) (whole : enc.length ≤ taken) :
    later.manager.exists_ later.disk path = true ∧
      (later.manager.load later.disk path true taken closing).map Prod.snd =
        later.manager.encryption.decrypt enc := by
  obtain ⟨kept, file, settled⟩ :=
    saved_settled (sound_of_reaches sound earlier) available encrypted accepts flushes saves unharmed
  refine ⟨?_, load_settled _ ⟨kept, settled⟩ whole closing⟩
  rw [FileManager.exists_, settled.named]
  rfl

theorem load_after_save_elsewhere : ∃ saved later,
    (FileWorld.mk (.empty : Disk String) {}).step (.save "a" [1, 2] true 2 2) = some saved ∧
      saved.step (.save "b" [3] true 1 1) = some later ∧ later.manager.exists_ later.disk "a" = true ∧
      (later.manager.load later.disk "a" true 2 0).map Prod.snd = some [1, 2] := by
  obtain ⟨saved, later, saves, goes, plain⟩ : ∃ saved later,
      (FileWorld.mk (.empty : Disk String) {}).step (.save "a" [1, 2] true 2 2) = some saved ∧
        saved.step (.save "b" [3] true 1 1) = some later ∧ later.manager.encryption.decrypt [1, 2] = some [1, 2] :=
    ⟨_, _, rfl, rfl, rfl⟩
  refine ⟨saved, later, saves, goes, ?_⟩
  rw [← plain]
  have elsewhere : ¬(FileCall.save "b" [3] true 1 1).Rewrites "a" := fun rewrites => absurd rewrites.1 (by decide)
  exact load_after_save Disk.sound_empty .start (Disk.available_of_missing rfl) rfl (Nat.le_refl 2) (Nat.le_refl 2)
    saves (.next .start elsewhere goes) (Nat.le_refl 2)

/-- A save that reports failure either never got its file open, and changed nothing, or it has replaced
what the file held by a strict prefix of the encrypted data, which is all that later loads find. -/
theorem load_after_failed_save (sound : start.disk.Sound) (earlier : system.Reaches (fun _ _ => True) start world)
    (available : world.disk.Available path) (encrypted : world.manager.encryption.encrypt data = some enc)
    {granted : Bool} {accepted count : Nat}
    (fails : world.manager.save world.disk path data granted accepted count = some (after, false)) :
    granted = false ∧ after = world.disk ∨
      ∃ content, content <+: enc ∧ content ≠ enc ∧
        ∀ later, system.Reaches (fun _ call => ¬call.Rewrites path) (world.withDisk after) later →
          ∀ taken closing, enc.length ≤ taken →
            (later.manager.load later.disk path true taken closing).map Prod.snd =
              later.manager.encryption.decrypt content := by
  cases granted with
  | false =>
      refine .inl ⟨rfl, ?_⟩
      have refused : world.manager.open_ world.disk path .write false = (world.disk, none) := by
        obtain ⟨io, encryption⟩ := world.manager
        cases io <;> rfl
      simp only [FileManager.save, refused, FileManager.writeAll, encrypted, IFileIO.write, FileManager.close,
        IFileIO.close, Option.bind_eq_bind, Option.bind_some, Option.pure_def, Option.some.injEq, Prod.mk.injEq] at fails
      exact fails.1.symm
  | true =>
      obtain ⟨reached, file, content, ran, settled, within, -⟩ :=
        save_settled (sound_of_reaches sound earlier) available encrypted accepted count
      rw [ran] at fails
      obtain ⟨rfl, short⟩ := Prod.mk.inj (Option.some.inj fails)
      have cut : accepted < enc.length := by simpa using short
      have shorter : content.length < enc.length := by
        have bound := within.length_le
        rw [List.length_take] at bound
        omega
      refine .inr ⟨content, within.trans (List.take_prefix _ _), fun same => by rw [same] at shorter; omega, ?_⟩
      intro later unharmed taken closing whole
      exact load_settled _ (reaches_settled settled unharmed) (by omega) closing

/-- A full disk: one of three bytes is accepted. -/
theorem load_after_failed_save_full : ∃ after,
    FileManager.save {} (Disk.empty : Disk String) "a" [1, 2, 3] true 1 1 = some (after, false) ∧
      ∃ content, content <+: [1, 2, 3] ∧ content ≠ [1, 2, 3] ∧
        (FileManager.load {} after "a" true 3 0).map Prod.snd = some content := by
  refine ⟨_, rfl, ?_⟩
  have here : system.Reaches (fun _ _ => True) (⟨.empty, {}⟩ : FileWorld String) ⟨.empty, {}⟩ := .start
  have fails : FileManager.save {} (Disk.empty : Disk String) "a" [1, 2, 3] true 1 1 = some (_, false) := rfl
  rcases load_after_failed_save Disk.sound_empty here (Disk.available_of_missing rfl) rfl fails with
    ⟨denied, -⟩ | ⟨content, within, differs, loads⟩
  · cases denied
  · exact ⟨content, within, differs, loads _ .start 3 0 (Nat.le_refl 3)⟩

end Runs

end SoulLib.FileSystem
