import SoulLib.FileSystem.AsyncFileManager

/-! What coroutines read while one of them writes.

One coroutine writes a file once, any number of coroutines read it, and all of them
may do anything to other files. What is in the file is the old content until the write
empties it, and from then on a growing prefix of the new one. A read takes the size
first and the bytes piece by piece in later steps.
-/

set_option autoImplicit false

namespace SoulLib.FileSystem.AsyncFiles

open SoulLib.Semantics (Bytes Disk Pool System Stream)

variable {Path : Type}

def Op.task : Op Path → Nat
  | read _ task _ | measure _ task _ _ | fetch _ task _ _ _ _ | finishRead _ task _ _ _ | write _ task _ _
  | put task _ _ _ | finishWrite task _ _ _ => task

def Event.task : Event Path → Nat
  | emptied task _ | didRead _ task _ _ | didWrite task _ _ => task

section Definitions

variable (path : Path) (file : Nat) (old new : Bytes) (writer : Nat)

/-- The file was emptied for the write. -/
def Begun (shared : Shared Path) : Prop := Event.emptied writer path ∈ shared.log

/-- Some first bytes of the old content, and from there on bytes of the new one. -/
def Mixed (found : Bytes) : Prop :=
  ∃ count ≤ old.length, ∃ middle, middle <+: new.drop count ∧ found = old.take count ++ middle

/-- A prefix of the new content, or what a read of the old size has mixed, with zeros up to that size. -/
def Seen (data : Bytes) : Prop :=
  data <+: new ∨ ∃ found, Mixed old new found ∧ found.length ≤ old.length ∧ data = filled old.length found

def Event.Tells : Event Path → Prop
  | didRead manager _ other result => other = path → result.error = false →
      ∃ data, Seen old new data ∧ manager.encryption.decrypt data = some result.data
  | emptied .. | didWrite .. => True

structure Known (shared : Shared Path) : Prop where
  sound : shared.disk.Sound
  named : shared.disk.entries path = some file
  alone : shared.disk.Alone path file
  before : ¬Begun path writer shared → shared.disk.files[file]? = some old
  since : Begun path writer shared → ∃ content, shared.disk.files[file]? = some content ∧ content <+: new
  tells : ∀ event ∈ shared.log, event.Tells path old new

/-- A read of the path holds a handle of the file. -/
def Reads (shared : Shared Path) (other : Path) (handle : Nat) : Prop :=
  handle < shared.disk.streams.length ∧ ∀ stream, shared.disk.stream? handle = some stream →
    stream.writes = false ∧ (other = path → stream.file = file)

/-- A read that has taken the size before the file was emptied, or since. -/
inductive Fetching (shared : Shared Path) (size : Nat) (data : Bytes) : Prop where
  | before (taken : size = old.length) (bound : data.length ≤ size) (mixed : Mixed old new data)
      (yet : ¬Begun path writer shared → data <+: old)
  | since (begun : Begun path writer shared)
      (stored : ∃ content, shared.disk.files[file]? = some content ∧ size ≤ content.length)
      (bound : data.length ≤ size) (part : data <+: new)

/-- An operation of certain tasks that cannot change the file. -/
def Harmless (tasks : Nat → Prop) (shared : Shared Path) : Op Path → Prop
  | .read _ task _ => tasks task
  | .measure _ task other handle => tasks task ∧ Reads path file shared other handle
  | .fetch _ task other handle size data => tasks task ∧ Reads path file shared other handle ∧
      (other = path → Fetching path file old new writer shared size data)
  | .finishRead _ task other handle result => tasks task ∧ Reads path file shared other handle ∧
      (other = path → result.error = false → Seen old new result.data)
  | .write _ task other _ => tasks task ∧ other ≠ path
  | .put task _ handle _ | .finishWrite task _ handle _ =>
      tasks task ∧ handle < shared.disk.streams.length ∧ shared.disk.Foreign handle file

/-- A step of one of the tasks that spares the file. -/
structure Quiet (tasks : Nat → Prop) (shared shared' : Shared Path) : Prop where
  spares : Disk.Spares path file shared.disk shared'.disk
  ages : shared.disk.Ages shared'.disk
  sound : shared'.disk.Sound
  log : ∃ events, shared'.log = shared.log ++ events ∧ ∀ event ∈ events, tasks event.task ∧ event.Tells path old new

/-- What a later state keeps of an earlier one. -/
structure Later (shared shared' : Shared Path) : Prop where
  ages : shared.disk.Ages shared'.disk
  log : ∃ events, shared'.log = shared.log ++ events
  longer : Begun path writer shared → ∀ content, shared.disk.files[file]? = some content →
    ∃ after, shared'.disk.files[file]? = some after ∧ content.length ≤ after.length

end Definitions

variable {path : Path} {file : Nat} {old new : Bytes} {writer : Nat} {tasks : Nat → Prop}
  {shared shared' : Shared Path} {op : Op Path} {choice : Choice} {pushed : List (Op Path)}

section Harmless

theorem Begun.later (begun : Begun path writer shared) (later : Later path file writer shared shared') :
    Begun path writer shared' := by
  obtain ⟨events, log⟩ := later.log
  rw [Begun, log]
  exact List.mem_append_left _ begun

theorem Reads.later {other : Path} {handle : Nat} (reads : Reads path file shared other handle)
    (later : Later path file writer shared shared') : Reads path file shared' other handle := by
  refine ⟨Nat.lt_of_lt_of_le reads.1 later.ages.length_le, ?_⟩
  intro stream found
  obtain ⟨earlier, was, sameFile, sameMode⟩ := later.ages.kept handle reads.1 stream found
  obtain ⟨silent, same⟩ := reads.2 earlier was
  exact ⟨sameMode ▸ silent, fun here => sameFile ▸ same here⟩

theorem Reads.foreign {other : Path} {handle : Nat} (reads : Reads path file shared other handle) :
    shared.disk.Foreign handle file := fun stream found _ => (reads.2 stream found).1

theorem Reads.stored {other : Path} {handle : Nat} {content : Bytes} (reads : Reads path file shared other handle)
    (stored : streamed shared.disk handle = some content) (here : other = path) :
    shared.disk.files[file]? = some content := by
  obtain ⟨stream, found, stored⟩ := Option.bind_eq_some_iff.mp stored
  exact (reads.2 stream found).2 here ▸ stored

theorem foreign_later {handle : Nat} (bound : handle < shared.disk.streams.length)
    (foreign : shared.disk.Foreign handle file) (later : Later path file writer shared shared') :
    shared'.disk.Foreign handle file := by
  intro stream found same
  obtain ⟨earlier, was, sameFile, sameMode⟩ := later.ages.kept handle bound stream found
  exact sameMode ▸ foreign earlier was (sameFile.trans same)

theorem Fetching.later {size : Nat} {data : Bytes} (fetching : Fetching path file old new writer shared size data)
    (later : Later path file writer shared shared') : Fetching path file old new writer shared' size data := by
  cases fetching with
  | before taken bound mixed yet => exact .before taken bound mixed fun still => yet fun begun => still (begun.later later)
  | since begun stored bound part =>
      obtain ⟨content, here, within⟩ := stored
      obtain ⟨after, now, longer⟩ := later.longer begun content here
      exact .since (begun.later later) ⟨after, now, Nat.le_trans within longer⟩ bound part

theorem Harmless.later (harmless : Harmless path file old new writer tasks shared op)
    (later : Later path file writer shared shared') : Harmless path file old new writer tasks shared' op := by
  cases op with
  | read | write => exact harmless
  | measure => exact ⟨harmless.1, harmless.2.later later⟩
  | fetch => exact ⟨harmless.1, harmless.2.1.later later, fun here => (harmless.2.2 here).later later⟩
  | finishRead => exact ⟨harmless.1, harmless.2.1.later later, harmless.2.2⟩
  | put | finishWrite =>
      exact ⟨harmless.1, Nat.lt_of_lt_of_le harmless.2.1 later.ages.length_le,
        foreign_later harmless.2.1 harmless.2.2 later⟩

end Harmless

section Steps

theorem isPrefix_piece {data content : Bytes} (part : data <+: content) (size accepted : Nat) :
    data ++ piece content size data accepted <+: content := by
  obtain ⟨rest, rfl⟩ := part
  rw [piece, List.drop_left, List.prefix_append_right_inj]
  exact List.take_prefix _ _

theorem length_piece_le {data content : Bytes} {size : Nat} (bound : data.length ≤ size) (accepted : Nat) :
    (data ++ piece content size data accepted).length ≤ size := by
  rw [List.length_append, piece, List.length_take]
  omega

theorem filled_full {data : Bytes} {size : Nat} (full : data.length = size) : filled size data = data := by
  rw [filled, full, Nat.sub_self, List.replicate_zero, List.append_nil]

theorem mixed_of_isPrefix {data : Bytes} (part : data <+: old) : Mixed old new data :=
  ⟨data.length, part.length_le, [], List.nil_prefix, by rw [List.append_nil]; exact List.prefix_iff_eq_take.mp part⟩

theorem Mixed.piece {data content : Bytes} (mixed : Mixed old new data) (within : content <+: new)
    (short : data.length < content.length) (size accepted : Nat) :
    Mixed old new (data ++ piece content size data accepted) := by
  obtain ⟨count, bound, middle, part, rfl⟩ := mixed
  obtain ⟨further, rfl⟩ := within
  have length : (old.take count ++ middle).length = count + middle.length := by
    rw [List.length_append, List.length_take, Nat.min_eq_left bound]
  have reaches : count ≤ content.length := by omega
  rw [List.drop_append_of_le_length reaches] at part
  have inside : middle <+: content.drop count := by
    refine List.prefix_of_prefix_length_le part (List.prefix_append _ _) ?_
    rw [List.length_drop]
    omega
  obtain ⟨left, split⟩ := inside
  have next : content.drop (count + middle.length) = left := by rw [← List.drop_drop, ← split, List.drop_left]
  refine ⟨count, bound, middle ++ left.take (min accepted (size - (count + middle.length))), ?_, ?_⟩
  · rw [List.drop_append_of_le_length reaches, ← split, List.append_assoc, List.prefix_append_right_inj]
    exact (List.take_prefix _ _).trans (List.prefix_append _ _)
  · rw [AsyncFiles.piece, length, next, List.append_assoc]

theorem Known.fetched (known : Known path file old new writer shared) {content data : Bytes} {size : Nat}
    (stored : shared.disk.files[file]? = some content) (fetching : Fetching path file old new writer shared size data)
    (short : data.length < content.length) (accepted : Nat) :
    Fetching path file old new writer shared size (data ++ piece content size data accepted) := by
  by_cases begun : Begun path writer shared
  · obtain ⟨part, now, within⟩ := known.since begun
    obtain rfl : part = content := Option.some.inj (now.symm.trans stored)
    cases fetching with
    | before taken bound mixed yet =>
        exact .before taken (length_piece_le bound accepted) (mixed.piece within short size accepted)
          fun still => absurd begun still
    | since begun there bound part_ =>
        have inside : data <+: part := List.prefix_of_prefix_length_le part_ within (by omega)
        exact .since begun there (length_piece_le bound accepted) ((isPrefix_piece inside size accepted).trans within)
  · obtain rfl : old = content := Option.some.inj ((known.before begun).symm.trans stored)
    cases fetching with
    | before taken bound mixed yet =>
        have part := isPrefix_piece (yet begun) size accepted
        exact .before taken (length_piece_le bound accepted) (mixed_of_isPrefix part) fun _ => part
    | since absurdly there bound part => exact absurd absurdly begun

/-- The read is at the size, or at the end of the file. -/
theorem Fetching.seen {content data : Bytes} {size : Nat} (stored : shared.disk.files[file]? = some content)
    (fetching : Fetching path file old new writer shared size data)
    (ended : ¬(data.length < size ∧ data.length < content.length)) : Seen old new (filled size data) := by
  cases fetching with
  | before taken bound mixed yet =>
      subst taken
      exact .inr ⟨data, mixed, bound, rfl⟩
  | since begun there bound part =>
      obtain ⟨now, here, within⟩ := there
      obtain rfl : now = content := Option.some.inj (here.symm.trans stored)
      rw [filled_full (by omega)]
      exact .inl part

theorem Known.measured (known : Known path file old new writer shared) {content : Bytes}
    (stored : shared.disk.files[file]? = some content) :
    Fetching path file old new writer shared content.length [] := by
  by_cases begun : Begun path writer shared
  · exact .since begun ⟨content, stored, Nat.le_refl _⟩ (Nat.zero_le _) List.nil_prefix
  · obtain rfl : old = content := Option.some.inj ((known.before begun).symm.trans stored)
    exact .before rfl (Nat.zero_le _) (mixed_of_isPrefix List.nil_prefix) fun _ => List.nil_prefix

theorem Quiet.of_disk {disk : Disk Path} (spares : Disk.Spares path file shared.disk disk)
    (ages : shared.disk.Ages disk) (sound : disk.Sound) :
    Quiet path file old new tasks shared { shared with disk } :=
  ⟨spares, ages, sound, [], by simp, fun _ none => by cases none⟩

theorem Quiet.of_event {disk : Disk Path} {event : Event Path} (spares : Disk.Spares path file shared.disk disk)
    (ages : shared.disk.Ages disk) (sound : disk.Sound) (task : tasks event.task) (tells : event.Tells path old new) :
    Quiet path file old new tasks shared { disk, log := shared.log ++ [event] } := by
  refine ⟨spares, ages, sound, [event], rfl, ?_⟩
  intro other member
  obtain rfl := List.mem_singleton.mp member
  exact ⟨task, tells⟩

theorem Quiet.later (quiet : Quiet path file old new tasks shared shared') :
    Later path file writer shared shared' := by
  obtain ⟨events, log, -⟩ := quiet.log
  exact ⟨quiet.ages, ⟨events, log⟩, fun _ content stored => ⟨content, quiet.spares.stored.trans stored, Nat.le_refl _⟩⟩

theorem Quiet.begun (quiet : Quiet path file old new tasks shared shared') (other : ¬tasks writer) :
    Begun path writer shared' ↔ Begun path writer shared := by
  obtain ⟨events, log, of⟩ := quiet.log
  rw [Begun, log, List.mem_append]
  exact or_iff_left fun among => other (of _ among).1

theorem Known.quiet (known : Known path file old new writer shared)
    (quiet : Quiet path file old new tasks shared shared') (other : ¬tasks writer) :
    Known path file old new writer shared' where
  sound := quiet.sound
  named := quiet.spares.named.trans known.named
  alone another names := known.alone another (quiet.spares.alone another names)
  before yet := quiet.spares.stored.trans (known.before fun begun => yet ((quiet.begun other).mpr begun))
  since begun := by
    obtain ⟨content, stored, within⟩ := known.since ((quiet.begun other).mp begun)
    exact ⟨content, quiet.spares.stored.trans stored, within⟩
  tells event member := by
    obtain ⟨events, log, of⟩ := quiet.log
    rw [log] at member
    rcases List.mem_append.mp member with earlier | now
    · exact known.tells event earlier
    · exact (of event now).2

theorem Known.tells_concat {event : Event Path} (known : Known path file old new writer shared)
    (tells : event.Tells path old new) : ∀ other ∈ shared.log ++ [event], other.Tells path old new := by
  intro other member
  rcases List.mem_append.mp member with earlier | now
  · exact known.tells other earlier
  · obtain rfl := List.mem_singleton.mp now
    exact tells

theorem received_fine {manager : AsyncFileManager} {result received : ReadFileResult}
    (receives : manager.received result = some received) (fine : received.error = false) :
    result.error = false ∧ manager.encryption.decrypt result.data = some received.data := by
  unfold AsyncFileManager.received at receives
  split at receives
  · next failed =>
      cases receives
      rw [fine] at failed
      cases failed
  · next succeeded =>
      obtain ⟨data, decrypts, rfl⟩ := Option.map_eq_some_iff.mp receives
      exact ⟨by simpa using succeeded, decrypts⟩

section Operations

variable {manager : AsyncFileManager} {task handle : Nat} {other : Path} {disk : Disk Path}

theorem harmless_opened (known : Known path file old new writer shared) (mine : tasks task)
    (opens : shared.disk.openRead other choice.granted = (disk, some handle)) :
    Quiet path file old new tasks shared { shared with disk } ∧
      Harmless path file old new writer tasks { shared with disk } (.measure manager task other handle) := by
  have spares : Disk.Spares path file shared.disk (shared.disk.openRead other choice.granted).1 :=
    Disk.spares_openRead path file other choice.granted
  have ages : shared.disk.Ages (shared.disk.openRead other choice.granted).1 := Disk.ages_openRead _ _
  have sound := known.sound.openRead other choice.granted
  rw [opens] at spares ages sound
  obtain ⟨target, names, bound, found⟩ := Disk.openRead_opened opens
  refine ⟨.of_disk spares ages sound, mine, bound, ?_⟩
  intro stream here
  cases found.symm.trans here
  refine ⟨rfl, ?_⟩
  rintro rfl
  exact Option.some.inj (names.symm.trans known.named)

theorem harmless_put {buffer : Bytes} {middle : Disk Path} {written : Nat}
    (known : Known path file old new writer shared) (bound : handle < shared.disk.streams.length)
    (foreign : shared.disk.Foreign handle file)
    (puts : shared.disk.put handle buffer choice.accepted = some (middle, written))
    (flushes : middle.flush handle choice.reaching = some disk) :
    Quiet path file old new tasks shared { shared with disk } := by
  have first : Disk.Spares path file shared.disk middle := Disk.spares_put path foreign puts
  have older := Disk.ages_put puts
  have still : middle.Foreign handle file := by
    intro stream found same
    obtain ⟨earlier, was, sameFile, sameMode⟩ := older.kept handle bound stream found
    exact sameMode ▸ foreign earlier was (sameFile.trans same)
  exact .of_disk (first.trans (Disk.spares_flush path still flushes)) (older.trans (Disk.ages_flush flushes))
    ((known.sound.put puts).flush flushes)

variable [DecidableEq Path]

theorem harmless_emptied {encrypted : Bytes} (known : Known path file old new writer shared) (mine : tasks task)
    (elsewhere : other ≠ path) (opens : shared.disk.openWrite other choice.granted = (disk, some handle)) :
    Quiet path file old new tasks shared { disk, log := shared.log ++ [.emptied task other] } ∧
      Harmless path file old new writer tasks { disk, log := shared.log ++ [.emptied task other] }
        (.put task other handle encrypted) := by
  have spares : Disk.Spares path file shared.disk (shared.disk.openWrite other choice.granted).1 :=
    Disk.spares_openWrite known.sound known.named known.alone fun _ => elsewhere
  have ages : shared.disk.Ages (shared.disk.openWrite other choice.granted).1 := Disk.ages_openWrite _ _
  have sound := known.sound.openWrite other choice.granted
  rw [opens] at spares ages sound
  obtain ⟨target, names, bound, found⟩ := Disk.openWrite_opened opens
  refine ⟨.of_event spares ages sound mine trivial, mine, bound, ?_⟩
  intro stream here same
  cases found.symm.trans here
  -- The other path would name the file.
  exact absurd (known.alone other (spares.alone other (same ▸ names))) elsewhere

end Operations

variable [DecidableEq Path]

theorem harmless_moves (known : Known path file old new writer shared)
    (harmless : Harmless path file old new writer tasks shared op) (moves : Moves shared choice op shared' pushed) :
    Quiet path file old new tasks shared shared' ∧
      ∀ next ∈ pushed, Harmless path file old new writer tasks shared' next := by
  have unmoved : Quiet path file old new tasks shared shared := .of_disk (.refl _ _ _) (.refl _) known.sound
  cases moves with
  | opened opens =>
      obtain ⟨quiet, left⟩ := harmless_opened known harmless opens
      exact ⟨quiet, List.forall_mem_singleton.mpr left⟩
  | unopened =>
      refine ⟨.of_event (.refl _ _ _) (.refl _) known.sound harmless ?_, by simp⟩
      intro _ failed
      cases failed
  -- a read remembers what it has seen of the file so far
  | measured stored =>
      refine ⟨unmoved, List.forall_mem_singleton.mpr ⟨harmless.1, harmless.2, ?_⟩⟩
      exact fun here => known.measured (harmless.2.stored stored here)
  | failed =>
      refine ⟨unmoved, List.forall_mem_singleton.mpr ⟨harmless.1, harmless.2.1, ?_⟩⟩
      intro _ fine
      cases fine
  | fetched stored more =>
      refine ⟨unmoved, List.forall_mem_singleton.mpr ⟨harmless.1, harmless.2.1, ?_⟩⟩
      exact fun here => known.fetched (harmless.2.1.stored stored here) (harmless.2.2 here) more.2 choice.accepted
  | ended stored all =>
      refine ⟨unmoved, List.forall_mem_singleton.mpr ⟨harmless.1, harmless.2.1, ?_⟩⟩
      exact fun here _ => (harmless.2.2 here).seen (harmless.2.1.stored stored here) all
  | @received manager task other handle result received disk closes receives =>
      refine ⟨.of_event (Disk.spares_close path harmless.2.1.foreign closes) (Disk.ages_close closes)
        (known.sound.close closes) harmless.1 ?_, by simp⟩
      intro here fine
      obtain ⟨succeeded, plain⟩ := received_fine receives fine
      exact ⟨result.data, harmless.2.2 here succeeded, plain⟩
  | emptied _ opens =>
      obtain ⟨quiet, left⟩ := harmless_emptied known harmless.1 harmless.2 opens
      exact ⟨quiet, List.forall_mem_singleton.mpr left⟩
  | refused => exact ⟨.of_event (.refl _ _ _) (.refl _) known.sound harmless.1 trivial, by simp⟩
  | put puts flushes =>
      -- a put goes to a stream of another file, so this one is spared
      have quiet : Quiet path file old new tasks shared { shared with disk := _ } :=
        harmless_put known harmless.2.1 harmless.2.2 puts flushes
      refine ⟨quiet, List.forall_mem_singleton.mpr ?_⟩
      have later : Later path file writer shared { shared with disk := _ } := quiet.later
      exact ⟨harmless.1, Nat.lt_of_lt_of_le harmless.2.1 quiet.ages.length_le,
        foreign_later harmless.2.1 harmless.2.2 later⟩
  | reached _ flushes =>
      have quiet : Quiet path file old new tasks shared { shared with disk := _ } :=
        .of_disk (Disk.spares_flush path harmless.2.2 flushes) (Disk.ages_flush flushes) (known.sound.flush flushes)
      exact ⟨quiet, List.forall_mem_singleton.mpr (harmless.later quiet.later)⟩
  | closed _ closes =>
      exact ⟨.of_event (Disk.spares_close path harmless.2.2 closes) (Disk.ages_close closes)
        (known.sound.close closes) harmless.1 trivial, by simp⟩

end Steps

section Own

/-- Not under way yet. -/
def Op.IsCall : Op Path → Prop
  | read .. | write .. => True
  | measure .. | fetch .. | finishRead .. | put .. | finishWrite .. => False

/-- What is under way agrees with what is in the file. -/
def Exact (path : Path) (file : Nat) (shared : Shared Path) : Op Path → Prop
  | .fetch _ _ other _ size data => other = path → ∀ content, shared.disk.files[file]? = some content →
      size = content.length ∧ data <+: content
  | .finishRead _ _ other _ result => other = path → result.error = false → shared.disk.files[file]? = some result.data
  | _ => True

def Silent (path : Path) (writer : Nat) (tasks : Nat → Prop) (shared : Shared Path) : Prop :=
  ∀ event ∈ shared.log, ¬tasks event.task ∧ event ≠ .didWrite writer path false

/-- The coroutine that writes: before the write, during it, and after it. -/
inductive Own (path : Path) (file : Nat) (old new : Bytes) (writer : Nat) (tasks : Nat → Prop) (lossless : Prop)
    (shared : Shared Path) : List (Op Path) → Prop where
  | waiting {manager : AsyncFileManager} {data : Bytes} {stack front rest : List (Op Path)} :
      stack = front ++ .write manager writer path data :: rest → manager.encryption.encrypt data = some new →
      ¬Begun path writer shared → shared.disk.WrittenBy (fun _ => False) file → Silent path writer tasks shared →
      (∀ op ∈ front, Harmless path file old new writer (fun task => ¬tasks task ∧ task ≠ writer) shared op) →
      (∀ op ∈ rest, op.IsCall ∧ Harmless path file old new writer tasks shared op) →
      Own path file old new writer tasks lossless shared stack
  | putting {handle : Nat} {rest : List (Op Path)} : Begun path writer shared →
      shared.disk.Draft path file handle [] → Silent path writer tasks shared →
      (∀ op ∈ rest, op.IsCall ∧ Harmless path file old new writer tasks shared op) →
      Own path file old new writer tasks lossless shared (.put writer path handle new :: rest)
  | closing {handle : Nat} {error : Bool} {written : Bytes} {rest : List (Op Path)} : Begun path writer shared →
      shared.disk.Draft path file handle written → written <+: new → (error = false → written = new) →
      Silent path writer tasks shared →
      (∀ op ∈ rest, op.IsCall ∧ Harmless path file old new writer tasks shared op) →
      Own path file old new writer tasks lossless shared (.finishWrite writer path handle error :: rest)
  | ended {stack : List (Op Path)} : shared.disk.WrittenBy (fun _ => False) file →
      (lossless → Event.didWrite writer path false ∈ shared.log → shared.disk.files[file]? = some new) →
      (∀ manager task result, Event.didRead manager task path result ∈ shared.log → tasks task → result.error = false →
        ∃ content, shared.disk.files[file]? = some content ∧ manager.encryption.decrypt content = some result.data) →
      (∀ op ∈ stack, Harmless path file old new writer tasks shared op ∧ Exact path file shared op) →
      Own path file old new writer tasks lossless shared stack

variable {lossless : Prop} {stack : List (Op Path)}

theorem Exact.same (exact_ : Exact path file shared op)
    (stored : shared'.disk.files[file]? = shared.disk.files[file]?) : Exact path file shared' op := by
  cases op with
  | fetch => exact fun here content now => exact_ here content (stored ▸ now)
  | finishRead => exact fun here fine => stored.trans (exact_ here fine)
  | read | measure | write | put | finishWrite => trivial

theorem Exact.of_call (call : op.IsCall) : Exact path file shared op := by
  cases op with
  | read | write => trivial
  | measure | fetch | finishRead | put | finishWrite => cases call

theorem Silent.quiet {others : Nat → Prop} (silent : Silent path writer tasks shared)
    (quiet : Quiet path file old new others shared shared')
    (apart : ∀ task, others task → ¬tasks task ∧ task ≠ writer) : Silent path writer tasks shared' := by
  obtain ⟨events, log, of⟩ := quiet.log
  intro event member
  rw [log] at member
  rcases List.mem_append.mp member with earlier | now
  · exact silent event earlier
  · refine ⟨(apart _ (of event now).1).1, ?_⟩
    rintro rfl
    exact (apart _ (of _ now).1).2 rfl

theorem writtenBy_spared {allowed : Nat → Prop} {disk after : Disk Path} (written : disk.WrittenBy allowed file)
    (spares : Disk.Spares path file disk after) : after.WrittenBy allowed file :=
  fun handle stream found same writes =>
    written handle stream ((spares.writers handle stream same writes).mp found) same writes

theorem Own.quiet {others : Nat → Prop} (own : Own path file old new writer tasks lossless shared stack)
    (quiet : Quiet path file old new others shared shared')
    (apart : ∀ task, others task → ¬tasks task ∧ task ≠ writer) :
    Own path file old new writer tasks lossless shared' stack := by
  have later : Later path file writer shared shared' := quiet.later
  obtain ⟨events, log, of⟩ := quiet.log
  have begun : Begun path writer shared' ↔ Begun path writer shared := quiet.begun fun mine => (apart _ mine).2 rfl
  have calls {rest : List (Op Path)} (before : ∀ op ∈ rest, op.IsCall ∧ Harmless path file old new writer tasks shared op) :
      ∀ op ∈ rest, op.IsCall ∧ Harmless path file old new writer tasks shared' op :=
    fun op member => ⟨(before op member).1, (before op member).2.later later⟩
  cases own with
  | waiting same encrypts yet unwritten silent front rest =>
      exact .waiting same encrypts (fun now => yet (begun.mp now)) (writtenBy_spared unwritten quiet.spares)
        (silent.quiet quiet apart) (fun op member => (front op member).later later) (calls rest)
  | putting since draft silent rest =>
      exact .putting (begun.mpr since) (draft.spared quiet.spares) (silent.quiet quiet apart) (calls rest)
  | closing since draft within whole silent rest =>
      exact .closing (begun.mpr since) (draft.spared quiet.spares) within whole (silent.quiet quiet apart) (calls rest)
  | ended unwritten done reads rest =>
      refine .ended (writtenBy_spared unwritten quiet.spares) ?_ ?_ ?_
      · intro all wrote
        rw [log] at wrote
        rcases List.mem_append.mp wrote with earlier | now
        · exact quiet.spares.stored.trans (done all earlier)
        · exact absurd rfl (apart _ (of _ now).1).2
      · intro manager task result read mine fine
        rw [log] at read
        rcases List.mem_append.mp read with earlier | now
        · obtain ⟨content, stored, decrypts⟩ := reads manager task result earlier mine fine
          exact ⟨content, quiet.spares.stored.trans stored, decrypts⟩
        · exact absurd mine (apart _ (of _ now).1).1
      · exact fun op member => ⟨(rest op member).1.later later, (rest op member).2.same quiet.spares.stored⟩

/-- What the own reads find once nothing is written. -/
theorem exact_moves [DecidableEq Path]
    (harmless : Harmless path file old new writer tasks shared op) (exact_ : Exact path file shared op)
    (moves : Moves shared choice op shared' pushed) :
    (∀ next ∈ pushed, Exact path file shared next) ∧
      ∀ manager task result, Event.didRead manager task path result ∈ shared'.log →
        Event.didRead manager task path result ∈ shared.log ∨ (result.error = false →
          ∃ content, shared.disk.files[file]? = some content ∧
            manager.encryption.decrypt content = some result.data) := by
  cases moves with
  | opened | put | reached => exact ⟨List.forall_mem_singleton.mpr trivial, fun _ _ _ => .inl⟩
  | emptied => exact ⟨List.forall_mem_singleton.mpr trivial, fun _ _ _ read => .inl (by simpa using read)⟩
  | refused | closed => exact ⟨by simp, fun _ _ _ read => .inl (by simpa using read)⟩
  | unopened =>
      refine ⟨by simp, ?_⟩
      intro _ _ result read
      rcases List.mem_append.mp read with earlier | now
      · exact .inl earlier
      · cases List.mem_singleton.mp now
        exact .inr fun fine => by cases fine
  -- nothing writes the file any more: what is read grows along one content
  | measured stored =>
      refine ⟨List.forall_mem_singleton.mpr ?_, fun _ _ _ => .inl⟩
      intro here content there
      obtain rfl := Option.some.inj ((harmless.2.stored stored here).symm.trans there)
      exact ⟨rfl, List.nil_prefix⟩
  | failed =>
      refine ⟨List.forall_mem_singleton.mpr ?_, fun _ _ _ => .inl⟩
      intro _ fine
      cases fine
  | fetched stored more =>
      refine ⟨List.forall_mem_singleton.mpr ?_, fun _ _ _ => .inl⟩
      intro here content there
      obtain ⟨size, part⟩ := exact_ here content there
      obtain rfl := Option.some.inj ((harmless.2.1.stored stored here).symm.trans there)
      exact ⟨size, isPrefix_piece part _ choice.accepted⟩
  | ended stored all =>
      refine ⟨List.forall_mem_singleton.mpr ?_, fun _ _ _ => .inl⟩
      intro here _
      have there := harmless.2.1.stored stored here
      obtain ⟨size, part⟩ := exact_ here _ there
      -- a prefix of the size of the content is all of it
      have bound := part.length_le
      have whole := part.eq_of_length (by omega)
      rw [there, ← whole, filled_full (by rw [size, whole])]
  | received closes receives =>
      refine ⟨by simp, ?_⟩
      intro _ _ _ read
      rcases List.mem_append.mp read with earlier | now
      · exact .inl earlier
      · cases List.mem_singleton.mp now
        refine .inr fun fine => ?_
        obtain ⟨succeeded, plain⟩ := received_fine receives fine
        exact ⟨_, exact_ rfl succeeded, plain⟩

/-- What a step of the coroutine that writes establishes. -/
structure Moved (path : Path) (file : Nat) (old new : Bytes) (writer : Nat) (tasks : Nat → Prop) (lossless : Prop)
    (shared shared' : Shared Path) (stack : List (Op Path)) : Prop where
  known : Known path file old new writer shared'
  own : Own path file old new writer tasks lossless shared' stack
  later : Later path file writer shared shared'

section Writing

variable {rest : List (Op Path)} {manager : AsyncFileManager} {data written : Bytes} {handle : Nat} {error : Bool}

theorem moved_emptied [DecidableEq Path] {disk : Disk Path} (known : Known path file old new writer shared)
    (yet : ¬Begun path writer shared) (unwritten : shared.disk.WrittenBy (fun _ => False) file)
    (silent : Silent path writer tasks shared)
    (calls : ∀ op ∈ rest, op.IsCall ∧ Harmless path file old new writer tasks shared op) (other : ¬tasks writer)
    (opens : shared.disk.openWrite path choice.granted = (disk, some handle)) :
    Moved path file old new writer tasks lossless shared { disk, log := shared.log ++ [.emptied writer path] }
      (.put writer path handle new :: rest) := by
  -- no stream writes the file, so it can be opened and emptied
  have available : shared.disk.Available path := by
    intro target names
    obtain rfl := Option.some.inj (known.named.symm.trans names)
    exact ⟨known.alone, unwritten⟩
  have granted : choice.granted = true := by
    by_contra refused
    rw [Bool.not_eq_true] at refused
    rw [refused] at opens
    cases opens
  rw [granted] at opens
  obtain ⟨target, fresh, after, makes, draft⟩ := Disk.openWrite_draft known.sound available
  cases opens.symm.trans makes
  have named := Disk.openWrite_named known.named true
  have sound := known.sound.openWrite path true
  have ages : shared.disk.Ages (shared.disk.openWrite path true).1 := Disk.ages_openWrite path true
  rw [makes] at named sound ages
  obtain rfl := Option.some.inj (draft.named.symm.trans named)
  have begun : Begun path writer { disk, log := shared.log ++ [.emptied writer path] } := by simp [Begun]
  have later : Later path target writer shared { disk, log := shared.log ++ [.emptied writer path] } :=
    ⟨ages, ⟨_, rfl⟩, fun absurdly => absurd absurdly yet⟩
  refine ⟨⟨sound, named, draft.alone, fun never => absurd begun never, ?_, ?_⟩, ?_, later⟩
  · intro _
    -- right after the opening the file is empty, which is a prefix of anything
    obtain ⟨stream, content, -, -, -, stored, -, empty⟩ := draft.stored
    obtain ⟨rfl, -⟩ := List.append_eq_nil_iff.mp empty
    exact ⟨[], stored, List.nil_prefix⟩
  · exact known.tells_concat trivial
  · refine .putting begun draft ?_ fun op member => ⟨(calls op member).1, (calls op member).2.later later⟩
    intro event member
    rcases List.mem_append.mp member with earlier | now
    · exact silent event earlier
    · obtain rfl := List.mem_singleton.mp now
      exact ⟨other, by simp⟩

theorem moved_refused (known : Known path file old new writer shared) (yet : ¬Begun path writer shared)
    (unwritten : shared.disk.WrittenBy (fun _ => False) file) (silent : Silent path writer tasks shared)
    (calls : ∀ op ∈ rest, op.IsCall ∧ Harmless path file old new writer tasks shared op) :
    Moved path file old new writer tasks lossless shared
      { shared with log := shared.log ++ [.didWrite writer path true] } rest := by
  have later : Later path file writer shared { shared with log := shared.log ++ [.didWrite writer path true] } :=
    ⟨.refl _, ⟨_, rfl⟩, fun absurdly => absurd absurdly yet⟩
  have still : ¬Begun path writer { shared with log := shared.log ++ [.didWrite writer path true] } := by
    simpa [Begun] using yet
  refine ⟨⟨known.sound, known.named, known.alone, fun _ => known.before yet, fun now => absurd now still, ?_⟩,
    ?_, later⟩
  · exact known.tells_concat trivial
  · refine .ended unwritten ?_ ?_ fun op member => ⟨(calls op member).2.later later, .of_call (calls op member).1⟩
    · intro _ wrote
      rcases List.mem_append.mp wrote with earlier | now
      · exact absurd rfl (silent _ earlier).2
      · simp at now
    · intro _ _ result read mine
      rcases List.mem_append.mp read with earlier | now
      · exact absurd mine (silent _ earlier).1
      · simp at now

theorem moved_putting {middle disk : Disk Path} {accepted : Nat} (known : Known path file old new writer shared)
    (begun : Begun path writer shared) (draft : shared.disk.Draft path file handle [])
    (silent : Silent path writer tasks shared)
    (calls : ∀ op ∈ rest, op.IsCall ∧ Harmless path file old new writer tasks shared op)
    (puts : shared.disk.put handle new choice.accepted = some (middle, accepted))
    (flushes : middle.flush handle choice.reaching = some disk) :
    Moved path file old new writer tasks lossless shared { shared with disk }
      (.finishWrite writer path handle (accepted < new.length) :: rest) := by
  obtain ⟨after, makes, drafted⟩ := Disk.put_draft draft new choice.accepted
  cases puts.symm.trans makes
  obtain ⟨flushed, done, kept, before, content, was, stored, longer, within, -⟩ :=
    Disk.flush_draft drafted choice.reaching
  cases flushes.symm.trans done
  rw [Disk.files_put puts] at was
  have later : Later path file writer shared { shared with disk } := by
    refine ⟨(Disk.ages_put puts).trans (Disk.ages_flush flushes), ⟨[], by simp⟩, ?_⟩
    intro _ earlier here
    obtain rfl := Option.some.inj (was.symm.trans here)
    exact ⟨content, stored, longer.length_le⟩
  have part : new.take choice.accepted <+: new := List.take_prefix _ _
  refine ⟨⟨(known.sound.put puts).flush flushes, kept.named, kept.alone, fun never => absurd begun never,
    fun _ => ⟨content, stored, within.trans part⟩, known.tells⟩, ?_, later⟩
  refine .closing begun kept part ?_ silent fun op member => ⟨(calls op member).1, (calls op member).2.later later⟩
  intro fine
  simp only [decide_eq_false_iff_not, Nat.not_lt] at fine
  rw [List.nil_append, List.take_of_length_le (by omega)]

theorem moved_pieces {disk : Disk Path} (known : Known path file old new writer shared)
    (begun : Begun path writer shared) (draft : shared.disk.Draft path file handle written) (part : written <+: new)
    (whole : error = false → written = new) (silent : Silent path writer tasks shared)
    (calls : ∀ op ∈ rest, op.IsCall ∧ Harmless path file old new writer tasks shared op)
    (flushes : shared.disk.flush handle choice.reaching = some disk) :
    Moved path file old new writer tasks lossless shared { shared with disk }
      (.finishWrite writer path handle error :: rest) := by
  obtain ⟨flushed, done, kept, before, content, was, stored, longer, within, -⟩ := Disk.flush_draft draft choice.reaching
  cases flushes.symm.trans done
  have later : Later path file writer shared { shared with disk } := by
    refine ⟨Disk.ages_flush flushes, ⟨[], by simp⟩, ?_⟩
    intro _ earlier here
    obtain rfl := Option.some.inj (was.symm.trans here)
    exact ⟨content, stored, longer.length_le⟩
  refine ⟨⟨known.sound.flush flushes, kept.named, kept.alone, fun never => absurd begun never,
    fun _ => ⟨content, stored, within.trans part⟩, known.tells⟩, ?_, later⟩
  exact .closing begun kept part whole silent fun op member => ⟨(calls op member).1, (calls op member).2.later later⟩

theorem moved_closing {disk : Disk Path} (known : Known path file old new writer shared)
    (begun : Begun path writer shared) (draft : shared.disk.Draft path file handle written) (part : written <+: new)
    (whole : error = false → written = new) (silent : Silent path writer tasks shared)
    (calls : ∀ op ∈ rest, op.IsCall ∧ Harmless path file old new writer tasks shared op)
    (enough : lossless → new.length ≤ choice.reaching)
    (closes : shared.disk.close handle choice.reaching = some disk) :
    Moved path file old new writer tasks lossless shared
      { disk, log := shared.log ++ [.didWrite writer path error] } rest := by
  obtain ⟨after, before, content, done, settled, was, longer, within, complete⟩ :=
    Disk.close_draft draft choice.reaching
  cases closes.symm.trans done
  have later : Later path file writer shared { disk, log := shared.log ++ [.didWrite writer path error] } := by
    refine ⟨Disk.ages_close closes, ⟨_, rfl⟩, ?_⟩
    intro _ earlier here
    obtain rfl := Option.some.inj (was.symm.trans here)
    exact ⟨content, settled.stored, longer.length_le⟩
  have still := begun.later later
  refine ⟨⟨known.sound.close closes, settled.named, settled.alone, fun never => absurd still never,
    fun _ => ⟨content, settled.stored, within.trans part⟩, ?_⟩, ?_, later⟩
  · exact known.tells_concat trivial
  · refine .ended settled.unwritten ?_ ?_ fun op member =>
      ⟨(calls op member).2.later later, .of_call (calls op member).1⟩
    · intro all wrote
      rcases List.mem_append.mp wrote with earlier | now
      · exact absurd rfl (silent _ earlier).2
      · cases List.mem_singleton.mp now
        obtain rfl := whole rfl
        rw [← complete (enough all)]
        exact settled.stored
    · intro _ _ result read mine
      rcases List.mem_append.mp read with earlier | now
      · exact absurd mine (silent _ earlier).1
      · simp at now

end Writing

theorem Own.step [DecidableEq Path] (known : Known path file old new writer shared)
    (own : Own path file old new writer tasks lossless shared (op :: stack)) (other : ¬tasks writer)
    (enough : (∃ handle error, op = .finishWrite writer path handle error) → choice.pieces = false → lossless →
      new.length ≤ choice.reaching)
    (moves : Moves shared choice op shared' pushed) :
    Moved path file old new writer tasks lossless shared shared' (pushed ++ stack) := by
  cases own with
  | @waiting _ _ _ front _ same encrypts yet unwritten silent before calls =>
      cases front with
      -- the write itself comes next
      | nil =>
          cases same
          cases moves with
          | emptied encrypted opens =>
              obtain rfl := Option.some.inj (encrypted.symm.trans encrypts)
              exact moved_emptied known yet unwritten silent calls other opens
          | refused => exact moved_refused known yet unwritten silent calls
      -- a call before the write, which leaves the path alone
      | cons next front =>
          cases same
          obtain ⟨quiet, left⟩ := harmless_moves known (before op List.mem_cons_self) moves
          have later : Later path file writer shared shared' := quiet.later
          have others : ¬(¬tasks writer ∧ writer ≠ writer) := fun mine => mine.2 rfl
          refine ⟨known.quiet quiet others, ?_, later⟩
          refine .waiting (List.append_assoc _ _ _).symm encrypts (fun now => yet ((quiet.begun others).mp now))
            (writtenBy_spared unwritten quiet.spares) (silent.quiet quiet fun _ => id) ?_
            fun op member => ⟨(calls op member).1, (calls op member).2.later later⟩
          intro op member
          rcases List.mem_append.mp member with fresh | waiting
          · exact left op fresh
          · exact (before op (List.mem_cons_of_mem _ waiting)).later later
  | putting begun draft silent calls =>
      cases moves with
      | put puts flushes => exact moved_putting known begun draft silent calls puts flushes
  | closing begun draft part whole silent calls =>
      cases moves with
      | reached _ flushes => exact moved_pieces known begun draft part whole silent calls flushes
      | closed ends closes =>
          exact moved_closing known begun draft part whole silent calls (enough ⟨_, _, rfl⟩ ends) closes
  | ended unwritten done reads safe =>
      obtain ⟨harmless, exact_⟩ := safe op List.mem_cons_self
      obtain ⟨quiet, left⟩ := harmless_moves known harmless moves
      obtain ⟨leftExact, told⟩ := exact_moves harmless exact_ moves
      obtain ⟨events, log, of⟩ := quiet.log
      refine ⟨known.quiet quiet other, .ended (writtenBy_spared unwritten quiet.spares) ?_ ?_ ?_, quiet.later⟩
      -- the write is over, so its event is not of this step
      · intro all wrote
        rw [log] at wrote
        rcases List.mem_append.mp wrote with earlier | now
        · exact quiet.spares.stored.trans (done all earlier)
        · exact absurd (of _ now).1 other
      · intro manager task result read mine fine
        rw [quiet.spares.stored]
        rcases told manager task result read with earlier | now
        · exact reads manager task result earlier mine fine
        · exact now fine
      · intro next member
        rcases List.mem_append.mp member with fresh | waiting
        · exact ⟨left next fresh, (leftExact next fresh).same quiet.spares.stored⟩
        · obtain ⟨spared, agrees⟩ := safe next (List.mem_cons_of_mem _ waiting)
          exact ⟨spared.later quiet.later, agrees.same quiet.spares.stored⟩

end Own

section Runs

/-- A call that does not write the path. -/
def Op.Leaves (path : Path) : Op Path → Prop
  | read .. => True
  | write _ _ other _ => other ≠ path
  | measure .. | fetch .. | finishRead .. | put .. | finishWrite .. => False

/-- Coroutines at their start, with all their calls ahead. One of the calls is the only write of the path; `tasks`
are the later calls of its coroutine. -/
structure OneWriter (path : Path) (file : Nat) (old new : Bytes) (writer : Nat) (tasks : Nat → Prop)
    (manager : AsyncFileManager) (data : Bytes) (coroutine : Nat) (start : Pool (Shared Path) (Op Path)) : Prop where
  sound : start.shared.disk.Sound
  settled : start.shared.disk.Settled path file old
  log : start.shared.log = []
  encrypts : manager.encryption.encrypt data = some new
  begins : ∃ front rest, start.threads[coroutine]? = some (front ++ .write manager writer path data :: rest) ∧
    (∀ op ∈ front, op.Leaves path ∧ ¬tasks op.task ∧ op.task ≠ writer) ∧ ∀ op ∈ rest, op.Leaves path ∧ tasks op.task
  apart : ¬tasks writer
  others : ∀ i ≠ coroutine, ∀ stack, start.threads[i]? = some stack →
    ∀ op ∈ stack, op.Leaves path ∧ ¬tasks op.task ∧ op.task ≠ writer

theorem harmless_of_leaves (leaves : op.Leaves path) (task : tasks op.task) :
    op.IsCall ∧ Harmless path file old new writer tasks shared op := by
  cases op with
  | read => exact ⟨trivial, task⟩
  | write => exact ⟨trivial, task, leaves⟩
  | measure | fetch | finishRead | put | finishWrite => cases leaves

variable [DecidableEq Path] {manager : AsyncFileManager} {data : Bytes} {coroutine : Nat}
  {start pool : Pool (Shared Path) (Op Path)}
  {guard : Shared Path → Multiset (Op Path) → Op Path → Choice → Prop}

theorem OneWriter.along (lossless : Prop)
    (starts : OneWriter path file old new writer tasks manager data coroutine start)
    (enough : ∀ shared pending op choice, guard shared pending op choice →
      (∃ handle error, op = .finishWrite writer path handle error) → choice.pieces = false → lossless →
        new.length ≤ choice.reaching)
    (reach : (Pool.machine execute).Reaches (Pool.admits guard) start pool) :
    Known path file old new writer pool.shared ∧
      ∃ stack, Own path file old new writer tasks lossless pool.shared stack := by
  have empty (event : Event Path) : event ∉ start.shared.log := by simp [starts.log]
  have yet : ¬Begun path writer start.shared := empty _
  obtain ⟨front, rest, found, before, calls⟩ := starts.begins
  have known : Known path file old new writer start.shared :=
    ⟨starts.sound, starts.settled.named, starts.settled.alone, fun _ => starts.settled.stored,
      fun begun => absurd begun yet, fun event member => absurd member (empty event)⟩
  have own : Own path file old new writer tasks lossless start.shared
      (front ++ .write manager writer path data :: rest) :=
    .waiting rfl starts.encrypts yet starts.settled.unwritten (fun event member => absurd member (empty event))
      (fun op member => (harmless_of_leaves (before op member).1 (before op member).2).2)
      fun op member => harmless_of_leaves (calls op member).1 (calls op member).2
  -- the coroutine that writes keeps Own, every other one stays Harmless
  obtain ⟨along, ⟨stack, -, owned⟩, -⟩ := Pool.invariant_apart coroutine
    (Known path file old new writer) (Own path file old new writer tasks lossless)
    (fun shared stack =>
      ∀ op ∈ stack, Harmless path file old new writer (fun task => ¬tasks task ∧ task ≠ writer) shared op)
    known ⟨_, found, own⟩
    (by
      intro i other stack at_ op member
      obtain ⟨leaves, task⟩ := starts.others i other stack at_ op member
      exact (harmless_of_leaves leaves task).2)
    (by
      intro shared shared' op pushed rest choice pending knows owns guards taken
      obtain ⟨knows, owns, later⟩ := Own.step knows owns starts.apart (enough _ _ _ _ guards) (moves_of_execute taken)
      exact ⟨knows, owns, fun stack harmless op member => (harmless op member).later later⟩)
    (by
      intro shared shared' op pushed rest choice knows harmless taken
      obtain ⟨quiet, left⟩ := harmless_moves knows (harmless op List.mem_cons_self) (moves_of_execute taken)
      refine ⟨knows.quiet quiet fun mine => mine.2 rfl, ?_, fun stack owns => owns.quiet quiet fun _ => id,
        fun stack safe op member => (safe op member).later quiet.later⟩
      intro next member
      rcases List.mem_append.mp member with fresh | waiting
      · exact left next fresh
      · exact (harmless next (List.mem_cons_of_mem _ waiting)).later quiet.later)
    reach
  exact ⟨along, stack, owned⟩

/-- A read that reports no error while another coroutine writes the file decrypts a prefix of the new content, or
content of the old size: first bytes of the old content, then bytes of the new one, then zeros. -/
theorem reads_during_write (starts : OneWriter path file old new writer tasks manager data coroutine start)
    (reach : (Pool.machine execute).Reaches (Pool.admits fun _ _ _ _ => True) start pool)
    {reader : AsyncFileManager} {task : Nat} {result : ReadFileResult}
    (read : Event.didRead reader task path result ∈ pool.shared.log) (fine : result.error = false) :
    ∃ content, Seen old new content ∧ reader.encryption.decrypt content = some result.data := by
  have along := OneWriter.along False starts (fun _ _ _ _ _ _ _ impossible => impossible.elim) reach
  exact along.1.tells _ read rfl fine

/-- A file of three bytes. One coroutine reads it, replaces it by two bytes and reads them back, and another
reads it. -/
def twoCoroutines : Pool (Shared String) (Op String) where
  shared := { disk := { entries := fun path => if path = "a" then some 0 else none, files := [[1, 2, 3]] } }
  threads :=
    [[.read (.make none) 3 "a", .write (.make none) 0 "a" [8, 9], .read (.make none) 1 "a"],
      [.read (.make none) 2 "a"]]

theorem twoCoroutines_oneWriter :
    OneWriter "a" 0 [1, 2, 3] [8, 9] 0 (· = 1) (.make none) [8, 9] 0 twoCoroutines where
  sound := by
    refine ⟨?_, fun handle stream found => by cases found⟩
    intro path file names
    simp only [twoCoroutines] at names
    split at names
    · cases names
      decide
    · cases names
  settled := by
    refine ⟨rfl, rfl, ?_, fun handle stream found => by cases found⟩
    intro other names
    simp only [twoCoroutines] at names
    split at names
    · assumption
    · cases names
  log := rfl
  encrypts := rfl
  begins := by
    refine ⟨[.read (.make none) 3 "a"], [.read (.make none) 1 "a"], rfl, ?_, ?_⟩
    · intro op member
      obtain rfl := List.mem_singleton.mp member
      exact ⟨trivial, by decide, by decide⟩
    · intro op member
      obtain rfl := List.mem_singleton.mp member
      exact ⟨trivial, rfl⟩
  apart := by decide
  others i differs stack found op member := by
    match i with
    | 0 => exact absurd rfl differs
    | 1 =>
        cases found
        obtain rfl := List.mem_singleton.mp member
        exact ⟨trivial, by decide, by decide⟩
    | i + 2 => cases found

/-- The other coroutine takes the size and the first byte before the write, and the second byte after it. -/
theorem reads_during_write_torn : ∃ pool,
    (Pool.machine execute).Reaches (Pool.admits fun _ _ _ _ => True) twoCoroutines pool ∧
      Event.didRead (.make none) 2 "a" { data := [1, 9, 0] } ∈ pool.shared.log ∧
      ∃ content, Seen [1, 2, 3] [8, 9] content ∧ NoEncryption.decrypt content = some [1, 9, 0] := by
  obtain ⟨pool, ran, read⟩ : ∃ pool, (Pool.machine execute).run (Pool.admits fun _ _ _ _ => True) twoCoroutines
      [(1, {}), (1, {}), (1, { accepted := 1 }), (0, { granted := false }), (0, {}),
        (0, { accepted := 2, reaching := 1 }), (0, { pieces := true, reaching := 2 }), (1, { accepted := 2 }), (1, {}),
        (1, {})] = some pool ∧
        Event.didRead (.make none) 2 "a" { data := [1, 9, 0] } ∈ pool.shared.log :=
    ⟨_, rfl, List.mem_append_right _ List.mem_cons_self⟩
  have reach := System.reaches_of_run ran
  exact ⟨pool, reach, read, reads_during_write twoCoroutines_oneWriter reach read rfl⟩

/-- A coroutine that writes a text and reads it after that gets it back, unless a call reports an error,
whatever the other coroutines read and write elsewhere. Closing a written file has to put all bytes to it,
which is not reported. -/
theorem read_after_write (starts : OneWriter path file old new writer tasks manager data coroutine start)
    (restores : manager.encryption.decrypt new = some data)
    (reach : (Pool.machine execute).Reaches (Pool.admits fun _ _ op choice =>
      ∀ handle error, op = .finishWrite writer path handle error → choice.pieces = false →
        new.length ≤ choice.reaching) start pool)
    {task : Nat} {result : ReadFileResult} (own : tasks task)
    (wrote : Event.didWrite writer path false ∈ pool.shared.log)
    (read : Event.didRead manager task path result ∈ pool.shared.log) :
    readText result = .error () ∨ readText result = .ok data := by
  have along := OneWriter.along True starts
    (fun _ _ _ _ guards finishing closes _ => by
      obtain ⟨handle, error, same⟩ := finishing
      exact guards handle error same closes) reach
  unfold readText
  cases fine : result.error with
  | true => exact .inl rfl
  | false =>
      refine .inr ?_
      obtain ⟨_, stack, owns⟩ := along
      cases owns with
      | waiting _ _ _ _ silent _ _ => exact absurd rfl (silent _ wrote).2
      | putting _ _ silent _ => exact absurd rfl (silent _ wrote).2
      | closing _ _ _ _ silent _ => exact absurd rfl (silent _ wrote).2
      | ended _ done reads _ =>
          obtain ⟨content, stored, decrypts⟩ := reads manager task result read own fine
          obtain rfl := Option.some.inj ((done trivial wrote).symm.trans stored)
          obtain rfl := Option.some.inj (restores.symm.trans decrypts)
          rfl

/-- The other coroutine reads during the write. -/
theorem read_after_write_racing : ∃ pool, ∃ result : ReadFileResult,
    (Pool.machine execute).Reaches (Pool.admits fun _ _ op choice =>
        ∀ handle error, op = .finishWrite 0 "a" handle error → choice.pieces = false →
          [(8 : BitVec 8), 9].length ≤ choice.reaching)
        twoCoroutines pool ∧
      Event.didRead (.make none) 1 "a" result ∈ pool.shared.log ∧
      (readText result = .error () ∨ readText result = .ok [8, 9]) := by
  obtain ⟨pool, ran, wrote, read⟩ : ∃ pool,
      (Pool.machine execute).runWhile (fun _ label => decide (2 ≤ label.2.reaching)) twoCoroutines
        [(0, { granted := false, reaching := 2 }), (0, { reaching := 2 }), (1, { reaching := 2 }),
          (0, { accepted := 2, reaching := 2 }), (0, { reaching := 2 }), (1, { reaching := 2 }), (0, { reaching := 2 }),
          (0, { reaching := 2 }), (0, { accepted := 2, reaching := 2 }), (0, { reaching := 2 }), (0, { reaching := 2 })]
        = some pool ∧
        Event.didWrite 0 "a" false ∈ pool.shared.log ∧
        Event.didRead (.make none) 1 "a" { data := [8, 9] } ∈ pool.shared.log :=
    ⟨_, rfl, List.mem_append_left _ (List.mem_append_right _ List.mem_cons_self),
      List.mem_append_right _ List.mem_cons_self⟩
  have reach : (Pool.machine execute).Reaches (Pool.admits fun _ _ op choice =>
      ∀ handle error, op = .finishWrite 0 "a" handle error → choice.pieces = false →
        [(8 : BitVec 8), 9].length ≤ choice.reaching)
      twoCoroutines pool :=
    System.reaches_of_runWhile (fun _ _ admitted _ _ _ _ _ _ => of_decide_eq_true admitted) ran
  exact ⟨pool, _, reach, read, read_after_write twoCoroutines_oneWriter rfl reach rfl wrote read⟩

end Runs

end SoulLib.FileSystem.AsyncFiles
