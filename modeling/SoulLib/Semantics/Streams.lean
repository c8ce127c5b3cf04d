import Mathlib.Data.List.Basic
import Mathlib.Logic.Function.Basic

/-! Files that are read and written through buffered streams.

A path names a file by its number, so that an open file outlives its name. What
is written to a stream waits in its buffer until the environment puts it to the
file, at the offset of the stream. The environment also decides which accesses are
granted and how many bytes of a transfer succeed.
-/

set_option autoImplicit false

namespace SoulLib.Semantics

abbrev Bytes := List (BitVec 8)

structure Stream where
  file : Nat
  writes : Bool
  offset : Nat := 0
  buffer : Bytes := []
  deriving DecidableEq, Repr

structure Disk (Path : Type) where
  entries : Path → Option Nat
  files : List Bytes := []
  streams : List (Option Stream) := []

/-- Bytes past the end leave a hole of zeros. -/
def overwrite (content : Bytes) (offset : Nat) (bytes : Bytes) : Bytes :=
  content.take offset ++ List.replicate (offset - content.length) 0 ++ bytes ++ content.drop (offset + bytes.length)

theorem overwrite_length (content bytes : Bytes) : overwrite content content.length bytes = content ++ bytes := by
  simp [overwrite]

namespace Disk

variable {Path : Type} (disk : Disk Path)

def stream? (handle : Nat) : Option Stream := disk.streams[handle]?.join

section Operations

def setStream (handle : Nat) (stream : Option Stream) : Disk Path :=
  { disk with streams := disk.streams.set handle stream }

/-- A new stream and its handle. -/
def opened (stream : Stream) : Disk Path × Option Nat :=
  ({ disk with streams := disk.streams ++ [some stream] }, some disk.streams.length)

def openRead (path : Path) (granted : Bool) : Disk Path × Option Nat :=
  match disk.entries path with
  | some file => if granted then disk.opened { file, writes := false } else (disk, none)
  | none => (disk, none)

variable [DecidableEq Path]

/-- The file is emptied, or made if there is none. -/
def openWrite (path : Path) (granted : Bool) : Disk Path × Option Nat :=
  if granted then
    match disk.entries path with
    | some file => { disk with files := disk.files.set file [] }.opened { file, writes := true }
    | none =>
        { disk with
          entries := Function.update disk.entries path (some disk.files.length)
          files := disk.files ++ [[]] }.opened { file := disk.files.length, writes := true }
  else (disk, none)

def remove (path : Path) (granted : Bool) : Disk Path × Bool :=
  if granted && (disk.entries path).isSome then
    ({ disk with entries := Function.update disk.entries path none }, true)
  else (disk, false)

omit [DecidableEq Path]

/-- Hand bytes to a stream, which takes no more of them than it can. -/
def put (handle : Nat) (bytes : Bytes) (accepted : Nat) : Option (Disk Path × Nat) := do
  let stream ← disk.stream? handle
  if stream.writes then
    return (disk.setStream handle (some { stream with buffer := stream.buffer ++ bytes.take accepted }),
      min accepted bytes.length)
  else return (disk, 0)

/-- The first bytes of the buffer reach the file. -/
def flush (handle count : Nat) : Option (Disk Path) := do
  let stream ← disk.stream? handle
  let written := stream.buffer.take count
  let content ← disk.files[stream.file]?
  return { disk with
    files := disk.files.set stream.file (if stream.writes then overwrite content stream.offset written else content)
    streams := disk.streams.set handle (some { stream with
      offset := stream.offset + written.length
      buffer := stream.buffer.drop count }) }

/-- What the last flush cannot put to the file is lost. -/
def close (handle count : Nat) : Option (Disk Path) := do
  let flushed ← disk.flush handle count
  return flushed.setStream handle none

/-- Seek to the end, take the size, seek back and read so many bytes. A stream that writes flushes its
buffer on the way and yields nothing, and the room made for the bytes keeps its zeros. -/
def readWhole (handle taken : Nat) : Option (Disk Path × Bytes) := do
  let stream ← disk.stream? handle
  let flushed ← disk.flush handle stream.buffer.length
  let content ← flushed.files[stream.file]?
  let read := if stream.writes then [] else content.take taken
  return (flushed.setStream handle (some { stream with offset := 0, buffer := [] }),
    read ++ List.replicate (content.length - read.length) 0)

end Operations

/-- Entries and streams refer to files that there are. -/
structure Sound : Prop where
  entries_lt : ∀ path file, disk.entries path = some file → file < disk.files.length
  streams_lt : ∀ handle stream, disk.stream? handle = some stream → stream.file < disk.files.length

/-- No other path names the file. -/
def Alone (path : Path) (file : Nat) : Prop := ∀ other, disk.entries other = some file → other = path

/-- Only the handles allowed write to the file. -/
def WrittenBy (allowed : Nat → Prop) (file : Nat) : Prop :=
  ∀ handle stream, disk.stream? handle = some stream → stream.file = file → stream.writes = true → allowed handle

/-- The path names a file with this content, and nothing is under way that could change it. -/
structure Settled (path : Path) (file : Nat) (content : Bytes) : Prop where
  named : disk.entries path = some file
  stored : disk.files[file]? = some content
  alone : disk.Alone path file
  unwritten : disk.WrittenBy (fun _ => False) file

/-- One stream writes the file; all of `written` was accepted, and some of it is already in the file. -/
structure Draft (path : Path) (file handle : Nat) (written : Bytes) : Prop where
  named : disk.entries path = some file
  alone : disk.Alone path file
  only : disk.WrittenBy (· = handle) file
  stored : ∃ stream content, disk.stream? handle = some stream ∧ stream.file = file ∧ stream.writes = true ∧
    disk.files[file]? = some content ∧ stream.offset = content.length ∧ content ++ stream.buffer = written

variable {disk} {path : Path}

section Streams

@[simp] theorem entries_setStream (handle : Nat) (stream : Option Stream) :
    (disk.setStream handle stream).entries = disk.entries := rfl

@[simp] theorem files_setStream (handle : Nat) (stream : Option Stream) :
    (disk.setStream handle stream).files = disk.files := rfl

@[simp] theorem entries_opened (stream : Stream) : (disk.opened stream).1.entries = disk.entries := rfl

@[simp] theorem files_opened (stream : Stream) : (disk.opened stream).1.files = disk.files := rfl

theorem stream?_set {handle : Nat} {stream : Stream} (found : disk.stream? handle = some stream)
    (replaced : Option Stream) (other : Nat) :
    (disk.streams.set handle replaced)[other]?.join = if other = handle then replaced else disk.stream? other := by
  have bound : handle < disk.streams.length := by
    by_contra beyond
    rw [stream?, List.getElem?_eq_none (by omega)] at found
    cases found
  rw [List.getElem?_set, stream?]
  by_cases same : handle = other
  · subst same
    simp [bound]
  · simp [same, Ne.symm same]

theorem stream?_opened (stream : Stream) (other : Nat) :
    (disk.opened stream).1.stream? other = if other = disk.streams.length then some stream else disk.stream? other := by
  simp only [opened, stream?]
  by_cases same : other = disk.streams.length
  · subst same
    simp
  · rw [if_neg same, List.getElem?_append]
    split
    · rfl
    · next beyond =>
        rw [List.getElem?_eq_none (by simp; omega), List.getElem?_eq_none (by omega)]

end Streams

/-- What happened between two disks left the file of the path alone, together with all that write it. -/
structure Spares (path : Path) (file : Nat) (disk after : Disk Path) : Prop where
  named : after.entries path = disk.entries path
  alone : ∀ other, after.entries other = some file → disk.entries other = some file
  stored : after.files[file]? = disk.files[file]?
  writers : ∀ handle stream, stream.file = file → stream.writes = true →
    (after.stream? handle = some stream ↔ disk.stream? handle = some stream)

/-- The stream behind a handle, if there is one, does not write the file. -/
def Foreign (disk : Disk Path) (handle file : Nat) : Prop :=
  ∀ stream, disk.stream? handle = some stream → stream.file = file → stream.writes = false

section Spares

variable {after : Disk Path} {file handle : Nat} {content written : Bytes}

theorem Spares.refl (path : Path) (file : Nat) (disk : Disk Path) : Spares path file disk disk :=
  ⟨rfl, fun _ => id, rfl, fun _ _ _ _ => Iff.rfl⟩

theorem Spares.trans {middle : Disk Path} (first : Spares path file disk middle) (second : Spares path file middle after) :
    Spares path file disk after where
  named := second.named.trans first.named
  alone other names := first.alone other (second.alone other names)
  stored := second.stored.trans first.stored
  writers handle stream same writes :=
    (second.writers handle stream same writes).trans (first.writers handle stream same writes)

theorem Settled.spared (settled : disk.Settled path file content) (spares : Spares path file disk after) :
    after.Settled path file content where
  named := spares.named.trans settled.named
  stored := spares.stored.trans settled.stored
  alone other names := settled.alone other (spares.alone other names)
  unwritten handle stream found same writes :=
    settled.unwritten handle stream ((spares.writers handle stream same writes).mp found) same writes

theorem Draft.spared (draft : disk.Draft path file handle written) (spares : Spares path file disk after) :
    after.Draft path file handle written where
  named := spares.named.trans draft.named
  alone other names := draft.alone other (spares.alone other names)
  only handle stream found same writes :=
    draft.only handle stream ((spares.writers handle stream same writes).mp found) same writes
  stored := by
    obtain ⟨stream, content, found, same, writes, stored, rest⟩ := draft.stored
    exact ⟨stream, content, (spares.writers _ _ same writes).mpr found, same, writes, spares.stored.trans stored, rest⟩

theorem spares_opened (path : Path) (file : Nat) {stream : Stream} (foreign : stream.file = file → stream.writes = false) :
    Spares path file disk (disk.opened stream).1 where
  named := rfl
  alone _ := id
  stored := rfl
  writers handle other same writes := by
    rw [stream?_opened]
    split
    · next fresh =>
        have unused : disk.stream? handle = none := by
          rw [stream?, List.getElem?_eq_none (by omega), Option.join_none]
        rw [unused]
        constructor
        · intro opened
          cases opened
          rw [foreign same] at writes
          cases writes
        · intro missing
          cases missing
    · exact Iff.rfl

theorem spares_openRead (path : Path) (file : Nat) (other : Path) (granted : Bool) :
    Spares path file disk (disk.openRead other granted).1 := by
  unfold openRead
  split
  · split
    · exact spares_opened path file fun _ => rfl
    · exact Spares.refl path file disk
  · exact Spares.refl path file disk

theorem spares_setStream {stream : Stream} {replaced : Option Stream} (path : Path)
    (found : disk.stream? handle = some stream) (foreign : disk.Foreign handle file)
    (silent : ∀ next, replaced = some next → next.file = file → next.writes = false) :
    Spares path file disk (disk.setStream handle replaced) where
  named := rfl
  alone _ := id
  stored := rfl
  writers other next same writes := by
    rw [setStream, stream?, stream?_set found]
    split
    · next here =>
        subst here
        constructor
        · intro replacing
          rw [silent next replacing same] at writes
          cases writes
        · intro was
          rw [foreign next was same] at writes
          cases writes
    · exact Iff.rfl

theorem spares_put {bytes : Bytes} {accepted count : Nat} (path : Path) (foreign : disk.Foreign handle file)
    (done : disk.put handle bytes accepted = some (after, count)) : Spares path file disk after := by
  obtain ⟨stream, found, rest⟩ := Option.bind_eq_some_iff.mp done
  split at rest
  · next writes =>
      cases rest
      apply spares_setStream path found foreign
      intro next same
      cases same
      exact foreign stream found
  · cases rest
    exact Spares.refl path file disk

theorem spares_flush {count : Nat} (path : Path) (foreign : disk.Foreign handle file)
    (done : disk.flush handle count = some after) : Spares path file disk after := by
  obtain ⟨stream, found, rest⟩ := Option.bind_eq_some_iff.mp done
  obtain ⟨content, stored, same⟩ := Option.bind_eq_some_iff.mp rest
  cases same
  refine ⟨rfl, fun _ => id, ?_, ?_⟩
  · by_cases here : stream.file = file
    · rw [here] at stored
      simp only [foreign stream found here, Bool.false_eq_true, if_false, here]
      rw [List.getElem?_set_self (List.getElem?_eq_some_iff.mp stored).1, stored]
    · exact List.getElem?_set_ne here
  · exact (spares_setStream path found foreign fun next replacing => by
      cases replacing
      exact foreign stream found).writers

theorem stream?_flush {count : Nat} (done : disk.flush handle count = some after) :
    ∃ stream, disk.stream? handle = some stream ∧ after.stream? handle =
      some { stream with
        offset := stream.offset + (stream.buffer.take count).length
        buffer := stream.buffer.drop count } := by
  obtain ⟨stream, found, rest⟩ := Option.bind_eq_some_iff.mp done
  obtain ⟨content, stored, same⟩ := Option.bind_eq_some_iff.mp rest
  cases same
  refine ⟨stream, found, ?_⟩
  rw [stream?, stream?_set found, if_pos rfl]

theorem Foreign.flushed {count : Nat} (foreign : disk.Foreign handle file)
    (done : disk.flush handle count = some after) : after.Foreign handle file := by
  obtain ⟨stream, found, same⟩ := stream?_flush done
  intro next here
  rw [same] at here
  cases here
  exact foreign stream found

theorem spares_close {count : Nat} (path : Path) (foreign : disk.Foreign handle file)
    (done : disk.close handle count = some after) : Spares path file disk after := by
  obtain ⟨flushed, first, same⟩ := Option.bind_eq_some_iff.mp done
  cases same
  obtain ⟨stream, -, found⟩ := stream?_flush first
  refine (spares_flush path foreign first).trans ?_
  exact spares_setStream path found (foreign.flushed first) fun next none => by cases none

theorem spares_readWhole {taken : Nat} {bytes : Bytes} (path : Path) (foreign : disk.Foreign handle file)
    (done : disk.readWhole handle taken = some (after, bytes)) : Spares path file disk after := by
  obtain ⟨stream, found, rest⟩ := Option.bind_eq_some_iff.mp done
  obtain ⟨flushed, first, rest⟩ := Option.bind_eq_some_iff.mp rest
  obtain ⟨content, stored, same⟩ := Option.bind_eq_some_iff.mp rest
  cases same
  obtain ⟨_, -, here⟩ := stream?_flush first
  refine (spares_flush path foreign first).trans ?_
  refine spares_setStream path here (foreign.flushed first) ?_
  intro next replacing
  cases replacing
  exact foreign stream found

variable [DecidableEq Path]

theorem spares_openWrite {other : Path} {granted : Bool} (sound : disk.Sound) (named : disk.entries path = some file)
    (alone : disk.Alone path file) (elsewhere : granted = true → other ≠ path) :
    Spares path file disk (disk.openWrite other granted).1 := by
  unfold openWrite
  split
  · next allowed =>
      have apart := elsewhere allowed
      split
      · next target names =>
          have differs : target ≠ file := by
            rintro rfl
            exact apart (alone other names)
          refine Spares.trans ?_ (spares_opened path file fun same => (differs same).elim)
          exact ⟨rfl, fun _ => id, List.getElem?_set_ne differs, fun _ _ _ _ => Iff.rfl⟩
      · next missing =>
          have bound := sound.entries_lt path file named
          refine Spares.trans ?_ (spares_opened path file fun same => by
            simp only at same
            omega)
          refine ⟨Function.update_of_ne (Ne.symm apart) _ _, ?_, List.getElem?_append_left bound, fun _ _ _ _ => Iff.rfl⟩
          intro another names
          simp only [Function.update_apply] at names
          split at names
          · cases names
            omega
          · exact names
  · exact Spares.refl path file disk

theorem spares_remove {other : Path} {granted : Bool} (file : Nat) (elsewhere : granted = true → other ≠ path) :
    Spares path file disk (disk.remove other granted).1 := by
  unfold remove
  split
  · next allowed =>
      have apart := elsewhere (Bool.and_eq_true_iff.mp allowed).1
      refine ⟨Function.update_of_ne (Ne.symm apart) _ _, ?_, rfl, fun _ _ _ _ => Iff.rfl⟩
      intro another names
      simp only [Function.update_apply] at names
      split at names
      · cases names
      · exact names
  · exact Spares.refl path file disk

end Spares

section Sound

variable {after : Disk Path} {handle : Nat}

theorem Sound.kept (sound : disk.Sound) (longer : disk.files.length ≤ after.files.length)
    (entries : ∀ path file, after.entries path = some file →
      disk.entries path = some file ∨ file < after.files.length)
    (streams : ∀ handle stream, after.stream? handle = some stream →
      (∃ earlier, disk.stream? handle = some earlier ∧ earlier.file = stream.file) ∨ stream.file < after.files.length) :
    after.Sound where
  entries_lt path file names := by
    rcases entries path file names with was | bound
    · exact Nat.lt_of_lt_of_le (sound.entries_lt path file was) longer
    · exact bound
  streams_lt handle stream found := by
    rcases streams handle stream found with ⟨earlier, was, same⟩ | bound
    · exact same ▸ Nat.lt_of_lt_of_le (sound.streams_lt handle earlier was) longer
    · exact bound

theorem Sound.opened (sound : disk.Sound) {stream : Stream} (bound : stream.file < disk.files.length) :
    (disk.opened stream).1.Sound := by
  refine sound.kept (Nat.le_refl _) (fun _ _ => .inl) ?_
  intro handle other found
  rw [stream?_opened] at found
  split at found
  · cases found
    exact .inr bound
  · exact .inl ⟨other, found, rfl⟩

theorem Sound.setStream (sound : disk.Sound) {stream : Stream} {replaced : Option Stream}
    (found : disk.stream? handle = some stream) (same : ∀ next, replaced = some next → next.file = stream.file) :
    (disk.setStream handle replaced).Sound := by
  refine sound.kept (Nat.le_refl _) (fun _ _ => .inl) ?_
  intro other next here
  rw [Disk.setStream, stream?, stream?_set found] at here
  split at here
  · next at_ =>
      subst at_
      exact .inl ⟨stream, found, (same next here).symm⟩
  · exact .inl ⟨next, here, rfl⟩

theorem Sound.openRead (sound : disk.Sound) (path : Path) (granted : Bool) : (disk.openRead path granted).1.Sound := by
  unfold Disk.openRead
  split
  · next file names =>
      split
      · exact sound.opened (sound.entries_lt path file names)
      · exact sound
  · exact sound

theorem Sound.put {bytes : Bytes} {accepted count : Nat} (sound : disk.Sound)
    (done : disk.put handle bytes accepted = some (after, count)) : after.Sound := by
  obtain ⟨stream, found, rest⟩ := Option.bind_eq_some_iff.mp done
  split at rest
  · cases rest
    exact sound.setStream found fun next same => by cases same; rfl
  · cases rest
    exact sound

theorem Sound.flush {count : Nat} (sound : disk.Sound) (done : disk.flush handle count = some after) : after.Sound := by
  obtain ⟨stream, found, rest⟩ := Option.bind_eq_some_iff.mp done
  obtain ⟨content, stored, same⟩ := Option.bind_eq_some_iff.mp rest
  cases same
  refine sound.kept (by simp) (fun _ _ => .inl) ?_
  intro other next here
  rw [stream?, stream?_set found] at here
  split at here
  · next at_ =>
      subst at_
      cases here
      exact .inl ⟨stream, found, rfl⟩
  · exact .inl ⟨next, here, rfl⟩

theorem Sound.close {count : Nat} (sound : disk.Sound) (done : disk.close handle count = some after) : after.Sound := by
  obtain ⟨flushed, first, same⟩ := Option.bind_eq_some_iff.mp done
  cases same
  obtain ⟨stream, -, found⟩ := stream?_flush first
  exact (sound.flush first).setStream found fun next none => by cases none

theorem Sound.readWhole {taken : Nat} {bytes : Bytes} (sound : disk.Sound)
    (done : disk.readWhole handle taken = some (after, bytes)) : after.Sound := by
  obtain ⟨stream, found, rest⟩ := Option.bind_eq_some_iff.mp done
  obtain ⟨flushed, first, rest⟩ := Option.bind_eq_some_iff.mp rest
  obtain ⟨content, stored, same⟩ := Option.bind_eq_some_iff.mp rest
  cases same
  obtain ⟨earlier, was, here⟩ := stream?_flush first
  obtain rfl : stream = earlier := Option.some.inj (found.symm.trans was)
  exact (sound.flush first).setStream here fun next replacing => by cases replacing; rfl

variable [DecidableEq Path]

theorem Sound.openWrite (sound : disk.Sound) (path : Path) (granted : Bool) :
    (disk.openWrite path granted).1.Sound := by
  unfold Disk.openWrite
  split
  · split
    · next file names =>
        have bound := sound.entries_lt path file names
        apply Sound.opened
        · exact sound.kept (by simp) (fun _ _ => .inl) fun _ stream found => .inl ⟨stream, found, rfl⟩
        · simpa using bound
    · next missing =>
        apply Sound.opened
        · refine sound.kept (by simp) ?_ fun _ stream found => .inl ⟨stream, found, rfl⟩
          intro other file names
          simp only [Function.update_apply] at names
          split at names
          · cases names
            exact .inr (by simp)
          · exact .inl names
        · simp
  · exact sound

theorem Sound.remove (sound : disk.Sound) (path : Path) (granted : Bool) : (disk.remove path granted).1.Sound := by
  unfold Disk.remove
  split
  · refine sound.kept (Nat.le_refl _) ?_ fun _ stream found => .inl ⟨stream, found, rfl⟩
    intro other file names
    simp only [Function.update_apply] at names
    split at names
    · cases names
    · exact .inl names
  · exact sound

end Sound

theorem Settled.foreign {file : Nat} {content : Bytes} (settled : disk.Settled path file content) (handle : Nat) :
    disk.Foreign handle file := by
  intro stream found same
  by_contra writes
  exact settled.unwritten handle stream found same (by simpa using writes)

section Opened

variable {after : Disk Path} {granted : Bool} {handle : Nat}

theorem opened_eq {stream : Stream} (opens : disk.opened stream = (after, some handle)) :
    after.entries = disk.entries ∧ handle < after.streams.length ∧ after.stream? handle = some stream := by
  obtain ⟨rfl, same⟩ := Prod.mk.inj opens
  obtain rfl := Option.some.inj same
  exact ⟨rfl, by simp, by simp [stream?]⟩

theorem openRead_opened (opens : disk.openRead path granted = (after, some handle)) :
    ∃ file, disk.entries path = some file ∧ handle < after.streams.length ∧
      after.stream? handle = some { file, writes := false } := by
  unfold openRead at opens
  split at opens
  · next file names =>
      split at opens
      · exact ⟨file, names, (opened_eq opens).2⟩
      · cases opens
  · cases opens

theorem openWrite_opened [DecidableEq Path] (opens : disk.openWrite path granted = (after, some handle)) :
    ∃ file, after.entries path = some file ∧ handle < after.streams.length ∧
      after.stream? handle = some { file, writes := true } := by
  unfold openWrite at opens
  split at opens
  · split at opens
    · next file names =>
        obtain ⟨entries, opened⟩ := opened_eq opens
        exact ⟨file, by rw [entries]; exact names, opened⟩
    · obtain ⟨entries, opened⟩ := opened_eq opens
      exact ⟨_, by rw [entries]; exact Function.update_self _ _ _, opened⟩
  · cases opens

end Opened

/-- Streams come and go, but a handle never gets another file or mode. -/
structure Ages (disk after : Disk Path) : Prop where
  length_le : disk.streams.length ≤ after.streams.length
  kept : ∀ handle < disk.streams.length, ∀ stream, after.stream? handle = some stream →
    ∃ earlier, disk.stream? handle = some earlier ∧ earlier.file = stream.file ∧ earlier.writes = stream.writes

section Ages

variable {after : Disk Path} {handle : Nat}

theorem ages_of_streams (same : disk.streams = after.streams) : Ages disk after where
  length_le := Nat.le_of_eq (congrArg List.length same)
  kept handle _ stream found := ⟨stream, by rw [stream?, same]; exact found, rfl, rfl⟩

theorem Ages.refl (disk : Disk Path) : Ages disk disk := ages_of_streams rfl

theorem Ages.trans {middle : Disk Path} (first : Ages disk middle) (second : Ages middle after) : Ages disk after where
  length_le := Nat.le_trans first.length_le second.length_le
  kept handle bound stream found := by
    obtain ⟨between, was, file, writes⟩ := second.kept handle (Nat.lt_of_lt_of_le bound first.length_le) stream found
    obtain ⟨earlier, initial, same, mode⟩ := first.kept handle bound between was
    exact ⟨earlier, initial, same.trans file, mode.trans writes⟩

theorem ages_opened (stream : Stream) : Ages disk (disk.opened stream).1 where
  length_le := by simp [opened]
  kept handle bound other found := by
    rw [stream?_opened, if_neg (Nat.ne_of_lt bound)] at found
    exact ⟨other, found, rfl, rfl⟩

theorem ages_openRead (path : Path) (granted : Bool) : Ages disk (disk.openRead path granted).1 := by
  unfold openRead
  split
  · split
    · exact ages_opened _
    · exact .refl disk
  · exact .refl disk

theorem ages_openWrite [DecidableEq Path] (path : Path) (granted : Bool) :
    Ages disk (disk.openWrite path granted).1 := by
  unfold openWrite
  split
  · split
    · refine Ages.trans ?_ (ages_opened _)
      exact ages_of_streams rfl
    · refine Ages.trans ?_ (ages_opened _)
      exact ages_of_streams rfl
  · exact .refl disk

theorem ages_set {stream : Stream} {replaced : Option Stream} (entries : Path → Option Nat) (files : List Bytes)
    (found : disk.stream? handle = some stream)
    (same : ∀ next, replaced = some next → stream.file = next.file ∧ stream.writes = next.writes) :
    Ages disk { entries, files, streams := disk.streams.set handle replaced } where
  length_le := by simp
  kept other _ next here := by
    rw [stream?, stream?_set found] at here
    split at here
    · next at_ =>
        subst at_
        exact ⟨stream, found, same next here⟩
    · exact ⟨next, here, rfl, rfl⟩

theorem ages_put {bytes : Bytes} {accepted count : Nat} (done : disk.put handle bytes accepted = some (after, count)) :
    Ages disk after := by
  obtain ⟨stream, found, rest⟩ := Option.bind_eq_some_iff.mp done
  split at rest
  · cases rest
    exact ages_set _ _ found fun next same => by cases same; exact ⟨rfl, rfl⟩
  · cases rest
    exact .refl disk

theorem ages_flush {count : Nat} (done : disk.flush handle count = some after) : Ages disk after := by
  obtain ⟨stream, found, rest⟩ := Option.bind_eq_some_iff.mp done
  obtain ⟨content, stored, same⟩ := Option.bind_eq_some_iff.mp rest
  cases same
  exact ages_set _ _ found fun next same => by cases same; exact ⟨rfl, rfl⟩

theorem ages_close {count : Nat} (done : disk.close handle count = some after) : Ages disk after := by
  obtain ⟨flushed, first, same⟩ := Option.bind_eq_some_iff.mp done
  cases same
  obtain ⟨stream, -, found⟩ := stream?_flush first
  exact (ages_flush first).trans (ages_set _ _ found fun next none => by cases none)

end Ages

section Invariant

variable [DecidableEq Path] {file : Nat} {content : Bytes}

/-- What every operation keeps, as long as it opens for writing and removes certain paths only, and
uses certain handles only. New handles are among them. -/
structure Invariant (holds : Disk Path → Prop) (writable : Path → Prop) (usable : Nat → Prop) : Prop where
  fresh : ∀ disk, holds disk → usable disk.streams.length
  openRead : ∀ disk path granted, holds disk → holds (disk.openRead path granted).1
  openWrite : ∀ disk path, writable path → holds disk → holds (disk.openWrite path true).1
  remove : ∀ disk path, writable path → holds disk → holds (disk.remove path true).1
  put : ∀ disk handle bytes accepted after count, usable handle → holds disk →
    disk.put handle bytes accepted = some (after, count) → holds after
  flush : ∀ disk handle count after, usable handle → holds disk → disk.flush handle count = some after → holds after
  close : ∀ disk handle count after, usable handle → holds disk → disk.close handle count = some after → holds after
  readWhole : ∀ disk handle taken after bytes, usable handle → holds disk →
    disk.readWhole handle taken = some (after, bytes) → holds after

theorem sound_invariant : Invariant (fun disk : Disk Path => disk.Sound) (fun _ => True) fun _ => True where
  fresh _ _ := trivial
  openRead _ path granted sound := sound.openRead path granted
  openWrite _ path _ sound := sound.openWrite path true
  remove _ path _ sound := sound.remove path true
  put _ _ _ _ _ _ _ sound := sound.put
  flush _ _ _ _ _ sound := sound.flush
  close _ _ _ _ _ sound := sound.close
  readWhole _ _ _ _ _ _ sound := sound.readWhole

/-- A sound disk keeps a property of one file that stands whatever spares the file. -/
theorem sparing_invariant {holds : Disk Path → Prop} {usable : Nat → Prop}
    (fresh : ∀ disk, holds disk → usable disk.streams.length)
    (named : ∀ disk, holds disk → disk.entries path = some file ∧ disk.Alone path file)
    (foreign : ∀ disk handle, holds disk → usable handle → disk.Foreign handle file)
    (spared : ∀ disk after, holds disk → Spares path file disk after → holds after) :
    Invariant (fun disk => disk.Sound ∧ holds disk) (· ≠ path) usable where
  fresh disk here := fresh disk here.2
  openRead _ other granted here :=
    ⟨here.1.openRead other granted, spared _ _ here.2 (spares_openRead path file other granted)⟩
  openWrite disk other apart here :=
    ⟨here.1.openWrite other true, spared _ _ here.2
      (spares_openWrite here.1 (named disk here.2).1 (named disk here.2).2 fun _ => apart)⟩
  remove _ other apart here := ⟨here.1.remove other true, spared _ _ here.2 (spares_remove file fun _ => apart)⟩
  put disk handle _ _ _ _ use here done :=
    ⟨here.1.put done, spared _ _ here.2 (spares_put path (foreign disk handle here.2 use) done)⟩
  flush disk handle _ _ use here done :=
    ⟨here.1.flush done, spared _ _ here.2 (spares_flush path (foreign disk handle here.2 use) done)⟩
  close disk handle _ _ use here done :=
    ⟨here.1.close done, spared _ _ here.2 (spares_close path (foreign disk handle here.2 use) done)⟩
  readWhole disk handle _ _ _ use here done :=
    ⟨here.1.readWhole done, spared _ _ here.2 (spares_readWhole path (foreign disk handle here.2 use) done)⟩

theorem settled_invariant (path : Path) (file : Nat) (content : Bytes) :
    Invariant (fun disk => disk.Sound ∧ disk.Settled path file content) (· ≠ path) fun _ => True :=
  sparing_invariant (fun _ _ => trivial) (fun _ settled => ⟨settled.named, settled.alone⟩)
    (fun _ handle settled _ => settled.foreign handle) fun _ _ => Settled.spared

theorem draft_invariant (path : Path) (file handle : Nat) (written : Bytes) :
    Invariant (fun disk => disk.Sound ∧ disk.Draft path file handle written) (· ≠ path) (· ≠ handle) := by
  refine sparing_invariant ?_ (fun _ draft => ⟨draft.named, draft.alone⟩) ?_ fun _ _ => Draft.spared
  · rintro disk draft rfl
    obtain ⟨stream, _, found, -⟩ := draft.stored
    simp [stream?] at found
  · intro disk other draft apart stream found same
    by_contra writes
    exact apart (draft.only other stream found same (by simpa using writes))

end Invariant

/-- A file of that path could be written without anything else noticing. -/
def Available (disk : Disk Path) (path : Path) : Prop :=
  ∀ file, disk.entries path = some file → disk.Alone path file ∧ disk.WrittenBy (fun _ => False) file

theorem available_of_missing (missing : disk.entries path = none) : disk.Available path := by
  intro file names
  rw [missing] at names
  cases names

def empty : Disk Path where
  entries _ := none

theorem sound_empty : (empty : Disk Path).Sound := by
  constructor
  · intro path file names
    cases names
  · intro handle stream found
    cases found

section Writing

variable {after : Disk Path} {file handle : Nat} {content written : Bytes}

theorem draft_opened (named : disk.entries path = some file) (alone : disk.Alone path file)
    (unwritten : disk.WrittenBy (fun _ => False) file) (empty : disk.files[file]? = some []) :
    (disk.opened { file, writes := true }).1.Draft path file disk.streams.length [] where
  named := named
  alone := alone
  only handle stream found same writes := by
    rw [stream?_opened] at found
    split at found
    · assumption
    · exact (unwritten handle stream found same writes).elim
  stored := ⟨{ file, writes := true }, [], by rw [stream?_opened, if_pos rfl], rfl, rfl, empty, rfl, rfl⟩

theorem openWrite_draft [DecidableEq Path] (sound : disk.Sound) (available : disk.Available path) :
    ∃ file handle after, disk.openWrite path true = (after, some handle) ∧ after.Draft path file handle [] := by
  unfold openWrite
  rw [if_pos rfl]
  split
  · next file names =>
      obtain ⟨alone, unwritten⟩ := available file names
      refine ⟨file, disk.streams.length, _, rfl, ?_⟩
      exact draft_opened names alone unwritten (List.getElem?_set_self (sound.entries_lt path file names))
  · next missing =>
      refine ⟨disk.files.length, disk.streams.length, _, rfl, ?_⟩
      apply draft_opened
      · exact Function.update_self _ _ _
      · intro other names
        by_contra apart
        simp only [Function.update_of_ne apart] at names
        exact Nat.lt_irrefl _ (sound.entries_lt other _ names)
      · intro handle stream found same _
        exact Nat.lt_irrefl _ (same ▸ sound.streams_lt handle stream found)
      · simp

theorem Draft.setStream (draft : disk.Draft path file handle written) {earlier stream : Stream} {files : List Bytes}
    (found : disk.stream? handle = some earlier) (same : stream.file = file) (writes : stream.writes = true)
    (stored : files[file]? = some content) (offset : stream.offset = content.length) :
    Draft { disk with files, streams := disk.streams.set handle (some stream) } path file handle
      (content ++ stream.buffer) where
  named := draft.named
  alone := draft.alone
  only other next here sameNext writesNext := by
    rw [stream?, stream?_set found] at here
    split at here
    · assumption
    · exact draft.only other next here sameNext writesNext
  stored := ⟨stream, content, by rw [stream?, stream?_set found, if_pos rfl], same, writes, stored, offset, rfl⟩

theorem put_eq {stream : Stream} (found : disk.stream? handle = some stream) (writes : stream.writes = true)
    (bytes : Bytes) (accepted : Nat) : disk.put handle bytes accepted =
      some (disk.setStream handle (some { stream with buffer := stream.buffer ++ bytes.take accepted }),
        min accepted bytes.length) := by
  simp [put, found, writes]

theorem flush_eq {stream : Stream} (found : disk.stream? handle = some stream)
    (stored : disk.files[stream.file]? = some content) (count : Nat) : disk.flush handle count =
      some { disk with
        files := disk.files.set stream.file
          (if stream.writes then overwrite content stream.offset (stream.buffer.take count) else content)
        streams := disk.streams.set handle (some { stream with
          offset := stream.offset + (stream.buffer.take count).length
          buffer := stream.buffer.drop count }) } := by
  simp [flush, found, stored]

theorem put_draft (draft : disk.Draft path file handle written) (bytes : Bytes) (accepted : Nat) :
    ∃ after, disk.put handle bytes accepted = some (after, min accepted bytes.length) ∧
      after.Draft path file handle (written ++ bytes.take accepted) := by
  obtain ⟨stream, content, found, same, writes, stored, offset, rfl⟩ := draft.stored
  refine ⟨_, put_eq found writes bytes accepted, ?_⟩
  rw [List.append_assoc]
  exact draft.setStream found same writes stored offset

theorem flush_draft (draft : disk.Draft path file handle written) (count : Nat) :
    ∃ after, disk.flush handle count = some after ∧ after.Draft path file handle written ∧
      ∃ before content, disk.files[file]? = some before ∧ after.files[file]? = some content ∧ before <+: content ∧
        content <+: written ∧ (written.length ≤ count → content = written) := by
  obtain ⟨stream, content, found, rfl, writes, stored, offset, rfl⟩ := draft.stored
  have bound := (List.getElem?_eq_some_iff.mp stored).1
  have put : content ++ stream.buffer = content ++ stream.buffer.take count ++ stream.buffer.drop count := by
    rw [List.append_assoc, List.take_append_drop]
  have reached : (disk.files.set stream.file (if stream.writes then
      overwrite content stream.offset (stream.buffer.take count) else content))[stream.file]? =
      some (content ++ stream.buffer.take count) := by
    rw [List.getElem?_set_self bound, if_pos writes, offset, overwrite_length]
  refine ⟨_, flush_eq found stored count, ?_, ?_⟩
  · rw [put]
    exact draft.setStream found rfl writes reached (by simp [offset])
  · refine ⟨content, content ++ stream.buffer.take count, stored, reached, List.prefix_append _ _, ?_, ?_⟩
    · rw [put]
      exact List.prefix_append _ _
    · intro enough
      rw [List.take_of_length_le]
      exact Nat.le_trans (by simp) enough

theorem files_put {bytes : Bytes} {accepted count : Nat} (done : disk.put handle bytes accepted = some (after, count)) :
    after.files = disk.files := by
  obtain ⟨stream, -, rest⟩ := Option.bind_eq_some_iff.mp done
  split at rest <;> (cases rest; rfl)

theorem openWrite_named [DecidableEq Path] (named : disk.entries path = some file) (granted : Bool) :
    (disk.openWrite path granted).1.entries path = some file := by
  unfold openWrite
  split
  · rw [named]
    exact named
  · exact named

theorem close_draft (draft : disk.Draft path file handle written) (count : Nat) :
    ∃ after before content, disk.close handle count = some after ∧ after.Settled path file content ∧
      disk.files[file]? = some before ∧ before <+: content ∧ content <+: written ∧
      (written.length ≤ count → content = written) := by
  obtain ⟨flushed, first, kept, before, content, was, stored, longer, within, complete⟩ := flush_draft draft count
  obtain ⟨stream, _, found, -⟩ := kept.stored
  refine ⟨flushed.setStream handle none, before, content, by rw [close, first]; rfl, ?_, was, longer, within, complete⟩
  refine ⟨kept.named, stored, kept.alone, ?_⟩
  intro other next here same writes
  rw [setStream, stream?, stream?_set found] at here
  split at here
  · cases here
  · next apart => exact apart (kept.only other next here same writes)

end Writing

section Reading

variable {file handle : Nat} {content : Bytes}

theorem flush_total (sound : disk.Sound) {stream : Stream} (found : disk.stream? handle = some stream) (count : Nat) :
    ∃ after, disk.flush handle count = some after := by
  have bound := sound.streams_lt handle stream found
  exact ⟨_, flush_eq found (List.getElem?_eq_getElem bound) count⟩

theorem close_total (sound : disk.Sound) {stream : Stream} (found : disk.stream? handle = some stream) (count : Nat) :
    ∃ after, disk.close handle count = some after := by
  obtain ⟨flushed, done⟩ := flush_total sound found count
  exact ⟨flushed.setStream handle none, by rw [close, done]; rfl⟩

theorem readWhole_eq {stream : Stream} (found : disk.stream? handle = some stream) (reads : stream.writes = false)
    (stored : disk.files[stream.file]? = some content) {taken : Nat} (whole : content.length ≤ taken) :
    ∃ after, disk.readWhole handle taken = some (after, content) ∧
      after.stream? handle = some { stream with offset := 0, buffer := [] } := by
  have bound := (List.getElem?_eq_some_iff.mp stored).1
  obtain ⟨flushed, done⟩ : ∃ flushed, disk.flush handle stream.buffer.length = some flushed :=
    ⟨_, flush_eq found stored _⟩
  obtain ⟨_, -, here⟩ := stream?_flush done
  have kept : flushed.files[stream.file]? = some content := by
    rw [flush_eq found stored] at done
    cases done
    rw [reads, if_neg Bool.false_ne_true, List.getElem?_set_self bound]
  refine ⟨flushed.setStream handle (some { stream with offset := 0, buffer := [] }), ?_, ?_⟩
  · simp [readWhole, found, done, kept, reads, List.take_of_length_le whole, Nat.min_eq_right whole]
  · rw [setStream, stream?, stream?_set here, if_pos rfl]

theorem readWhole_settled (sound : disk.Sound) (settled : disk.Settled path file content) {taken : Nat}
    (whole : content.length ≤ taken) (count : Nat) :
    ∃ opened handle read after, disk.openRead path true = (opened, some handle) ∧
      opened.readWhole handle taken = some (read, content) ∧ read.close handle count = some after := by
  have openSound := sound.openRead path true
  have opens : disk.openRead path true = disk.opened { file, writes := false } := by
    rw [openRead, settled.named]
    rfl
  rw [opens] at openSound ⊢
  have found : (disk.opened { file, writes := false }).1.stream? disk.streams.length =
      some { file, writes := false } := by rw [stream?_opened, if_pos rfl]
  obtain ⟨read, reads, here⟩ := readWhole_eq found rfl settled.stored whole
  obtain ⟨after, closes⟩ := close_total (openSound.readWhole reads) here count
  exact ⟨_, _, read, after, rfl, reads, closes⟩

end Reading

end Disk

end SoulLib.Semantics
