import SoulLib.FileSystem.AesEncryption
import SoulLib.Semantics.Runs
import SoulLib.Semantics.Streams

/-! The file manager over a disk whose files other parts of the program use as well.

Every call carries what the environment decides: whether `fopen` succeeds, how many
bytes a transfer takes, and how many buffered bytes `fclose` still gets to the file.
A handle that is not open, or an access of a strategy outside of its vectors, has no
meaning. On the platforms of the model the text modes of `fopen` are the binary ones.
A `Path` is the entry of a directory that a string leads to: two spellings of one
path are one `Path`.
-/

set_option autoImplicit false

namespace SoulLib.FileSystem

open SoulLib.Semantics (Bytes Disk Stream System mask)

variable {Path : Type}

/-- A pointer to `FILE`, which may be null. -/
abbrev FileHandle := Option Nat

structure IEncryptionStrategy where
  encrypt : Bytes → Option Bytes
  decrypt : Bytes → Option Bytes

def NoEncryption : IEncryptionStrategy where
  encrypt := some
  decrypt := some

def AesEncryption.strategy (cipher : AesEncryption) : IEncryptionStrategy where
  encrypt := cipher.encrypt
  decrypt := cipher.decrypt

inductive OpenMode where
  | r | rb | w | wb
  deriving DecidableEq, Repr

def fopen [DecidableEq Path] (disk : Disk Path) (path : Path) (mode : OpenMode) (granted : Bool) :
    Disk Path × FileHandle :=
  match mode with
  | .r | .rb => disk.openRead path granted
  | .w | .wb => disk.openWrite path granted

/-- The two handlers of `IFileIO` differ in the modes they open with. -/
inductive IFileIO where
  | binary | json
  deriving DecidableEq, Repr

namespace IFileIO

variable (io : IFileIO) (disk : Disk Path)

def readMode : IFileIO → OpenMode
  | binary => .rb
  | json => .r

def writeMode : IFileIO → OpenMode
  | binary => .wb
  | json => .w

def openRead [DecidableEq Path] (path : Path) (granted : Bool) : Disk Path × FileHandle :=
  fopen disk path io.readMode granted

def openWrite [DecidableEq Path] (path : Path) (granted : Bool) : Disk Path × FileHandle :=
  fopen disk path io.writeMode granted

def read (_ : IFileIO) (handle : FileHandle) (taken : Nat) : Option (Disk Path × Bytes) :=
  match handle with
  | none => some (disk, [])
  | some handle => disk.readWhole handle taken

def write (_ : IFileIO) (handle : FileHandle) (data : Bytes) (accepted : Nat) : Option (Disk Path × Bool) :=
  match handle with
  | none => some (disk, false)
  | some handle => (disk.put handle data accepted).map fun result => (result.1, result.2 == data.length)

def close (_ : IFileIO) (handle : FileHandle) (count : Nat) : Option (Disk Path) :=
  match handle with
  | none => some disk
  | some handle => disk.close handle count

end IFileIO

inductive FileMode where
  | read | write | readWrite
  deriving DecidableEq, Repr

structure FileManager where
  fileIO : IFileIO := .binary
  encryption : IEncryptionStrategy := NoEncryption

namespace FileManager

variable (manager : FileManager) (disk : Disk Path)

def setIOHandler (handler : IFileIO) : FileManager := { manager with fileIO := handler }

def setEncryptionStrategy (strategy : IEncryptionStrategy) : FileManager := { manager with encryption := strategy }

def exists_ (_ : FileManager) (path : Path) : Bool := (disk.entries path).isSome

section Opening

variable [DecidableEq Path]

/-- No answer stands for the exception of `std::filesystem::remove`. -/
def remove (_ : FileManager) (path : Path) (granted : Bool) : Disk Path × Option Bool :=
  let (after, removed) := disk.remove path granted
  (after, if removed || (disk.entries path).isNone then some removed else none)

def open_ (path : Path) (mode : FileMode) (granted : Bool) : Disk Path × FileHandle :=
  if mode = .read then manager.fileIO.openRead disk path granted else manager.fileIO.openWrite disk path granted

end Opening

def close (handle : FileHandle) (count : Nat) : Option (Disk Path) := manager.fileIO.close disk handle count

def readAll (handle : FileHandle) (taken : Nat) : Option (Disk Path × Bytes) := do
  let (disk, data) ← manager.fileIO.read disk handle taken
  let plain ← manager.encryption.decrypt data
  return (disk, plain)

def writeAll (handle : FileHandle) (data : Bytes) (accepted : Nat) : Option (Disk Path × Bool) := do
  let enc ← manager.encryption.encrypt data
  manager.fileIO.write disk handle enc accepted

variable [DecidableEq Path]

def save (path : Path) (data : Bytes) (granted : Bool) (accepted count : Nat) : Option (Disk Path × Bool) := do
  let (disk, handle) := manager.open_ disk path .write granted
  let (disk, ok) ← manager.writeAll disk handle data accepted
  let disk ← manager.close disk handle count
  return (disk, ok)

def load (path : Path) (granted : Bool) (taken count : Nat) : Option (Disk Path × Bytes) := do
  let (disk, handle) := manager.open_ disk path .read granted
  let (disk, data) ← manager.readAll disk handle taken
  let disk ← manager.close disk handle count
  return (disk, data)

/-- The characters of a string are bytes. -/
def saveJson (path : Path) (json : Bytes) (granted : Bool) (accepted count : Nat) : Option (Disk Path × Bool) :=
  manager.save disk path json granted accepted count

def loadJson (path : Path) (granted : Bool) (taken count : Nat) : Option (Disk Path × Bytes) :=
  manager.load disk path granted taken count

end FileManager

/-- What a program does with the manager; `flush` is the environment's. -/
inductive FileCall (Path : Type) where
  | setIOHandler (handler : IFileIO)
  | setEncryptionStrategy (strategy : IEncryptionStrategy)
  | remove (path : Path) (granted : Bool)
  | open_ (path : Path) (mode : FileMode) (granted : Bool)
  | close (handle : FileHandle) (count : Nat)
  | readAll (handle : FileHandle) (taken : Nat)
  | writeAll (handle : FileHandle) (data : Bytes) (accepted : Nat)
  | save (path : Path) (data : Bytes) (granted : Bool) (accepted count : Nat)
  | load (path : Path) (granted : Bool) (taken count : Nat)
  | saveJson (path : Path) (json : Bytes) (granted : Bool) (accepted count : Nat)
  | loadJson (path : Path) (granted : Bool) (taken count : Nat)
  | flush (handle count : Nat)

structure FileWorld (Path : Type) where
  disk : Disk Path
  manager : FileManager := {}

namespace FileWorld

def withDisk (world : FileWorld Path) (disk : Disk Path) : FileWorld Path := { world with disk }

variable [DecidableEq Path] (world : FileWorld Path)

def step : FileCall Path → Option (FileWorld Path)
  | .setIOHandler handler => some { world with manager := world.manager.setIOHandler handler }
  | .setEncryptionStrategy strategy => some { world with manager := world.manager.setEncryptionStrategy strategy }
  | .remove path granted => some (world.withDisk (world.manager.remove world.disk path granted).1)
  | .open_ path mode granted => some (world.withDisk (world.manager.open_ world.disk path mode granted).1)
  | .close handle count => (world.manager.close world.disk handle count).map world.withDisk
  | .readAll handle taken => (world.manager.readAll world.disk handle taken).map fun result => world.withDisk result.1
  | .writeAll handle data accepted =>
      (world.manager.writeAll world.disk handle data accepted).map fun result => world.withDisk result.1
  | .save path data granted accepted count =>
      (world.manager.save world.disk path data granted accepted count).map fun result => world.withDisk result.1
  | .load path granted taken count =>
      (world.manager.load world.disk path granted taken count).map fun result => world.withDisk result.1
  | .saveJson path json granted accepted count =>
      (world.manager.saveJson world.disk path json granted accepted count).map fun result => world.withDisk result.1
  | .loadJson path granted taken count =>
      (world.manager.loadJson world.disk path granted taken count).map fun result => world.withDisk result.1
  | .flush handle count => (world.disk.flush handle count).map world.withDisk

def system : System (FileWorld Path) (FileCall Path) where
  step := step

end FileWorld

/-- The call empties, replaces or unlinks the file of the path. -/
def FileCall.Rewrites (path : Path) : FileCall Path → Prop
  | open_ other mode granted => other = path ∧ mode ≠ .read ∧ granted = true
  | save other _ granted _ _ | saveJson other _ granted _ _ | remove other granted => other = path ∧ granted = true
  | _ => False

/-- The call is given the handle. -/
def FileCall.Uses (handle : Nat) : FileCall Path → Prop
  | close other _ | readAll other _ | writeAll other _ _ => other = some handle
  | flush other _ => other = handle
  | _ => False

end SoulLib.FileSystem
