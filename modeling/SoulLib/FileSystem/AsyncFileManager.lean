import SoulLib.FileSystem.FileManager
import SoulLib.Semantics.Interleaving

/-! Coroutines that read and write files through asynchronous file managers.

A thread is a coroutine with the reads and writes it still has to await. The job of
each of them runs on some worker of the pool, and takes one file operation a step:
jobs of different coroutines interleave, the steps of one job and the calls of one
coroutine do not. A transfer goes in as many pieces as the environment likes. It also
decides whether a file is opened, how many bytes a stream takes, and how many of them
reach the file before the stream is gone. The log only records what happened.
-/

set_option autoImplicit false

namespace SoulLib.FileSystem

open SoulLib.Semantics (Bytes Disk Pool System)

structure AsyncFileManager where
  encryption : IEncryptionStrategy

/-- The constructor; a null strategy is replaced. -/
def AsyncFileManager.make (encryption : Option IEncryptionStrategy) : AsyncFileManager where
  encryption := encryption.getD NoEncryption

structure ReadFileResult where
  data : Bytes := []
  error : Bool := false
  deriving DecidableEq, Repr

/-- What `read` makes of the result it awaited. -/
def AsyncFileManager.received (manager : AsyncFileManager) (result : ReadFileResult) : Option ReadFileResult :=
  if result.error then some result
  else (manager.encryption.decrypt result.data).map fun data => { result with data }

/-- `read_text` throws what `read` reports. -/
def readText (result : ReadFileResult) : Except Unit Bytes :=
  if result.error then .error () else .ok result.data

namespace AsyncFiles

variable {Path : Type}

inductive Event (Path : Type) where
  | emptied (task : Nat) (path : Path)
  | didRead (manager : AsyncFileManager) (task : Nat) (path : Path) (result : ReadFileResult)
  | didWrite (task : Nat) (path : Path) (error : Bool)

structure Shared (Path : Type) where
  disk : Disk Path
  log : List (Event Path) := []

/-- A call that is awaited, or what is left of its job. -/
inductive Op (Path : Type) where
  | read (manager : AsyncFileManager) (task : Nat) (path : Path)
  | measure (manager : AsyncFileManager) (task : Nat) (path : Path) (handle : Nat)
  | fetch (manager : AsyncFileManager) (task : Nat) (path : Path) (handle size : Nat) (data : Bytes)
  | finishRead (manager : AsyncFileManager) (task : Nat) (path : Path) (handle : Nat) (result : ReadFileResult)
  | write (manager : AsyncFileManager) (task : Nat) (path : Path) (data : Bytes)
  | put (task : Nat) (path : Path) (handle : Nat) (buffer : Bytes)
  | finishWrite (task : Nat) (path : Path) (handle : Nat) (error : Bool)

/-- What the environment decides in one step. -/
structure Choice where
  granted : Bool := true
  failed : Bool := false
  accepted : Nat := 0
  reaching : Nat := 0
  pieces : Bool := false

/-- The next bytes of the file, no more than there is room for. -/
def piece (content : Bytes) (size : Nat) (data : Bytes) (accepted : Nat) : Bytes :=
  (content.drop data.length).take (min accepted (size - data.length))

/-- The room is for so many zeros, which a file that became shorter meanwhile leaves in place. It ends the read
without an error. -/
def filled (size : Nat) (data : Bytes) : Bytes := data ++ List.replicate (size - data.length) 0

/-- The content of the file behind a stream. -/
def streamed (disk : Disk Path) (handle : Nat) : Option Bytes := do
  let stream ← disk.stream? handle
  disk.files[stream.file]?

variable [DecidableEq Path]

def execute (shared : Shared Path) (op : Op Path) (choice : Choice) : Option (Shared Path × List (Op Path)) :=
  match op with
  | .read manager task path =>
      match shared.disk.openRead path choice.granted with
      | (disk, some handle) => some ({ shared with disk }, [.measure manager task path handle])
      | (_, none) => some ({ shared with log := shared.log ++ [.didRead manager task path { error := true }] }, [])
  | .measure manager task path handle => do
      let content ← streamed shared.disk handle
      return (shared, [.fetch manager task path handle content.length []])
  | .fetch manager task path handle size data => do
      let content ← streamed shared.disk handle
      if choice.failed then return (shared, [.finishRead manager task path handle { error := true }])
      else if data.length < size ∧ data.length < content.length then
        return (shared, [.fetch manager task path handle size (data ++ piece content size data choice.accepted)])
      else return (shared, [.finishRead manager task path handle { data := filled size data }])
  | .finishRead manager task path handle result => do
      let disk ← shared.disk.close handle choice.reaching
      let result ← manager.received result
      return ({ disk, log := shared.log ++ [.didRead manager task path result] }, [])
  | .write manager task path data => do
      let encrypted ← manager.encryption.encrypt data
      match shared.disk.openWrite path choice.granted with
      | (disk, some handle) =>
          return ({ disk, log := shared.log ++ [.emptied task path] }, [.put task path handle encrypted])
      | (_, none) => return ({ shared with log := shared.log ++ [.didWrite task path true] }, [])
  | .put task path handle buffer => do
      let (disk, written) ← shared.disk.put handle buffer choice.accepted
      let disk ← disk.flush handle choice.reaching
      return ({ shared with disk }, [.finishWrite task path handle (written < buffer.length)])
  -- Some more of the bytes reach the file, or the stream is gone.
  | .finishWrite task path handle error => do
      if choice.pieces then
        let disk ← shared.disk.flush handle choice.reaching
        return ({ shared with disk }, [.finishWrite task path handle error])
      else
        let disk ← shared.disk.close handle choice.reaching
        return ({ disk, log := shared.log ++ [.didWrite task path error] }, [])

/-- Every outcome of every operation. -/
inductive Moves (shared : Shared Path) (choice : Choice) : Op Path → Shared Path → List (Op Path) → Prop where
  | opened {manager : AsyncFileManager} {task : Nat} {path : Path} {disk : Disk Path} {handle : Nat}
      (opens : shared.disk.openRead path choice.granted = (disk, some handle)) :
      Moves shared choice (.read manager task path) { shared with disk } [.measure manager task path handle]
  | unopened {manager : AsyncFileManager} {task : Nat} {path : Path} :
      Moves shared choice (.read manager task path)
        { shared with log := shared.log ++ [.didRead manager task path { error := true }] } []
  | measured {manager : AsyncFileManager} {task : Nat} {path : Path} {handle : Nat} {content : Bytes}
      (stored : streamed shared.disk handle = some content) :
      Moves shared choice (.measure manager task path handle) shared
        [.fetch manager task path handle content.length []]
  | failed {manager : AsyncFileManager} {task : Nat} {path : Path} {handle size : Nat} {data : Bytes} :
      Moves shared choice (.fetch manager task path handle size data) shared
        [.finishRead manager task path handle { error := true }]
  | fetched {manager : AsyncFileManager} {task : Nat} {path : Path} {handle size : Nat} {data content : Bytes}
      (stored : streamed shared.disk handle = some content) (more : data.length < size ∧ data.length < content.length) :
      Moves shared choice (.fetch manager task path handle size data) shared
        [.fetch manager task path handle size (data ++ piece content size data choice.accepted)]
  | ended {manager : AsyncFileManager} {task : Nat} {path : Path} {handle size : Nat} {data content : Bytes}
      (stored : streamed shared.disk handle = some content)
      (all : ¬(data.length < size ∧ data.length < content.length)) :
      Moves shared choice (.fetch manager task path handle size data) shared
        [.finishRead manager task path handle { data := filled size data }]
  | received {manager : AsyncFileManager} {task : Nat} {path : Path} {handle : Nat} {result received : ReadFileResult}
      {disk : Disk Path} (closes : shared.disk.close handle choice.reaching = some disk)
      (receives : manager.received result = some received) :
      Moves shared choice (.finishRead manager task path handle result)
        { disk, log := shared.log ++ [.didRead manager task path received] } []
  | emptied {manager : AsyncFileManager} {task : Nat} {path : Path} {data encrypted : Bytes} {disk : Disk Path}
      {handle : Nat} (encrypts : manager.encryption.encrypt data = some encrypted)
      (opens : shared.disk.openWrite path choice.granted = (disk, some handle)) :
      Moves shared choice (.write manager task path data) { disk, log := shared.log ++ [.emptied task path] }
        [.put task path handle encrypted]
  | refused {manager : AsyncFileManager} {task : Nat} {path : Path} {data : Bytes} :
      Moves shared choice (.write manager task path data)
        { shared with log := shared.log ++ [.didWrite task path true] } []
  | put {task : Nat} {path : Path} {handle written : Nat} {buffer : Bytes} {middle disk : Disk Path}
      (puts : shared.disk.put handle buffer choice.accepted = some (middle, written))
      (flushes : middle.flush handle choice.reaching = some disk) :
      Moves shared choice (.put task path handle buffer) { shared with disk }
        [.finishWrite task path handle (written < buffer.length)]
  | reached {task : Nat} {path : Path} {handle : Nat} {error : Bool} {disk : Disk Path}
      (pieces : choice.pieces = true) (flushes : shared.disk.flush handle choice.reaching = some disk) :
      Moves shared choice (.finishWrite task path handle error) { shared with disk }
        [.finishWrite task path handle error]
  | closed {task : Nat} {path : Path} {handle : Nat} {error : Bool} {disk : Disk Path}
      (whole : choice.pieces = false) (closes : shared.disk.close handle choice.reaching = some disk) :
      Moves shared choice (.finishWrite task path handle error)
        { disk, log := shared.log ++ [.didWrite task path error] } []

theorem moves_of_execute {shared shared' : Shared Path} {op : Op Path} {choice : Choice} {pushed : List (Op Path)}
    (taken : execute shared op choice = some (shared', pushed)) : Moves shared choice op shared' pushed := by
  cases op with
  | read manager task path =>
      simp only [execute] at taken
      split at taken
      · next opens =>
          cases taken
          exact .opened opens
      · cases taken
        exact .unopened
  | measure manager task path handle =>
      obtain ⟨content, stored, same⟩ := Option.bind_eq_some_iff.mp taken
      cases same
      exact .measured stored
  | fetch manager task path handle size data =>
      obtain ⟨content, stored, rest⟩ := Option.bind_eq_some_iff.mp taken
      split at rest
      · cases rest
        exact .failed
      · split at rest
        · next more =>
            cases rest
            exact .fetched stored more
        · next all =>
            cases rest
            exact .ended stored all
  | finishRead manager task path handle result =>
      obtain ⟨disk, closes, rest⟩ := Option.bind_eq_some_iff.mp taken
      obtain ⟨received, receives, same⟩ := Option.bind_eq_some_iff.mp rest
      cases same
      exact .received closes receives
  | write manager task path data =>
      obtain ⟨encrypted, encrypts, rest⟩ := Option.bind_eq_some_iff.mp taken
      split at rest
      · next opens =>
          cases rest
          exact .emptied encrypts opens
      · cases rest
        exact .refused
  | put task path handle buffer =>
      -- ofstream::write may flush, and the stream is flushed further before it is closed
      obtain ⟨⟨middle, written⟩, puts, rest⟩ := Option.bind_eq_some_iff.mp taken
      obtain ⟨disk, flushes, same⟩ := Option.bind_eq_some_iff.mp rest
      cases same
      exact .put puts flushes
  | finishWrite task path handle error =>
      simp only [execute] at taken
      split at taken
      · next pieces =>
          obtain ⟨disk, flushes, same⟩ := Option.bind_eq_some_iff.mp taken
          cases same
          exact .reached pieces flushes
      · next whole =>
          obtain ⟨disk, closes, same⟩ := Option.bind_eq_some_iff.mp taken
          cases same
          exact .closed (by simpa using whole) closes

end AsyncFiles

end SoulLib.FileSystem
