import Mathlib.Order.Defs.Unbundled
import SoulLib.Memory.TaggedHeap

/-! The vector with inline storage.

A method takes the object and the heap and returns both, or the exception of the
allocation that failed. Elements live in cells, of the inline storage or of a block
of the heap; what a destroyed element reads as is left open. Sizes are numbers, and
the three places where the code multiplies or adds them wrap at 64 bits.
-/

set_option autoImplicit false

namespace SoulLib.Containers

open SoulLib.Memory (Heap BadAlloc OperatorNew Buffer MemoryTag)

def vectorTag : MemoryTag := Memory.makeLiteralTag "SoulVector"

/-- What the element type, `SmallCapacity` and the standard library decide. -/
structure Platform (T : Type) where
  sizeof : Nat
  smallCapacity : Nat
  new : OperatorNew
  moved : T → T
  sort : (T → T → Bool) → List T → List T
  sizeof_pos : 0 < sizeof
  smallCapacity_pos : 0 < smallCapacity
  object_fits : smallCapacity * sizeof < 2 ^ 63
  sort_perm : ∀ comp list, (sort comp list).Perm list
  sort_sorted : ∀ comp list, (IsStrictWeakOrder T fun a b => comp a b = true) →
    (sort comp list).Pairwise fun a b => comp b a = false

/-- What `data_` points to. -/
inductive Storage where
  | small
  | heap (address : Nat)
  deriving DecidableEq, Repr

structure SoulVector (T : Type) where
  manager : Nat
  data : Storage := .small
  size : Nat := 0
  capacity : Nat
  smallStorage : Cells T := Cells.empty

/-- What an element is constructed from: a value, or an element of the vector itself, which is
read when the new one is constructed. -/
inductive Argument (T : Type) where
  | value (cell : Option T)
  | element (storage : Storage) (index : Nat) (garbage : T)

namespace SoulVector

variable {T : Type}

/-- A vector together with the heap. -/
abbrev Result (T : Type) : Type := SoulVector T × Heap T

section Storage

variable (this : SoulVector T) (heap : Heap T)

/-- The cells that `data_` points to. -/
def elements : Cells T :=
  match this.data with
  | .small => this.smallStorage
  | .heap address => heap.cells address

def setElements (cells : Cells T) : Result T :=
  match this.data with
  | .small => ({ this with smallStorage := cells }, heap)
  | .heap address => (this, heap.setCells address cells)

def usingSmallStorage : Bool := this.data = .small

def destroyRange (beginIndex endIndex : Nat) : Result T :=
  this.setElements heap ((this.elements heap).destroyRange beginIndex (endIndex - beginIndex))

/-- Release the block that `data_` points to. -/
def deallocateData : Heap T :=
  match this.data with
  | .small => heap
  | .heap address => heap.deallocate this.manager address

def getAll : List T := (this.elements heap).toList this.size

def findAll (pred : T → Bool) : List T := (this.getAll heap).filter pred

def findFirst (pred : T → Bool) : Option T := (this.getAll heap).find? pred

end Storage

end SoulVector

/-- The element that is copied or moved; nothing is there any more once it was destroyed. -/
def Argument.read {T : Type} (this : SoulVector T) (heap : Heap T) : Argument T → Option T
  | .value cell => cell
  | .element .small index garbage => (this.smallStorage index).or (some garbage)
  | .element (.heap address) index garbage => (heap.cells address index).or (some garbage)

namespace SoulVector

variable {T : Type} (platform : Platform T)

/-- The constructor from an allocator. -/
def make (manager : Nat) : SoulVector T where
  manager
  capacity := platform.smallCapacity

def moveToSmall (this : SoulVector T) (heap : Heap T) : Result T :=
  match this.data with
  | .small => (this, heap)
  | .heap address =>
      let cells := Cells.relocateRange platform.moved (heap.cells address) this.smallStorage 0 this.size
      ({ this with data := .small, capacity := platform.smallCapacity, smallStorage := cells.2 },
        (heap.setCells address cells.1).deallocate this.manager address)

def reallocate (this : SoulVector T) (heap : Heap T) (requestedCapacity : Nat) : Except BadAlloc (Result T) := do
  let targetCapacity :=
    if requestedCapacity ≤ platform.smallCapacity then platform.smallCapacity else requestedCapacity
  if targetCapacity ≤ platform.smallCapacity then
    if this.usingSmallStorage then return (this, heap) else return moveToSmall platform this heap
  else
    let (newData, heap) ← heap.allocate platform.new platform.sizeof vectorTag this.manager targetCapacity
    let cells := Cells.moveRange platform.moved (this.elements heap) (heap.cells newData) 0 this.size
    let (this, heap) := this.setElements (heap.setCells newData cells.2) cells.1
    let (this, heap) := this.destroyRange heap 0 this.size
    return ({ this with data := .heap newData, capacity := targetCapacity }, this.deallocateData heap)

def emplaceBackInternal (this : SoulVector T) (heap : Heap T) (value : Argument T) : Except BadAlloc (Result T) := do
  let desired := if this.capacity = 0 then platform.smallCapacity else this.capacity * 2 % 2 ^ 64
  let (this, heap) ← (if this.size = this.capacity then reallocate platform this heap desired else .ok (this, heap) :
    Except BadAlloc (Result T))
  let (this, heap) := this.setElements heap ((this.elements heap).set this.size (value.read this heap))
  return ({ this with size := this.size + 1 }, heap)

def reserve (this : SoulVector T) (heap : Heap T) (newCapacity : Nat) : Except BadAlloc (Result T) :=
  if newCapacity ≤ this.capacity then .ok (this, heap) else reallocate platform this heap newCapacity

def shrinkToFit (this : SoulVector T) (heap : Heap T) : Except BadAlloc (Result T) :=
  if this.size ≤ platform.smallCapacity && !this.usingSmallStorage then .ok (moveToSmall platform this heap)
  else if this.size < this.capacity && !this.usingSmallStorage then reallocate platform this heap this.size
  else .ok (this, heap)

def clear (this : SoulVector T) (heap : Heap T) : Result T :=
  let (this, heap) := this.destroyRange heap 0 this.size
  ({ this with size := 0 }, heap)

def insert (this : SoulVector T) (heap : Heap T) (value : T) : Except BadAlloc (Result T) :=
  emplaceBackInternal platform this heap (.value (some value))

/-- `insert` with a reference to an element of the vector. -/
def insertElement (this : SoulVector T) (heap : Heap T) (index : Nat) (garbage : T) : Except BadAlloc (Result T) :=
  emplaceBackInternal platform this heap (.element this.data index garbage)

/-- `remove`, where the argument says which elements are equal to the value. -/
def removeBy (drops : Cells T → T → Bool) (this : SoulVector T) (heap : Heap T) : Result T :=
  let removed := Cells.removeRange platform.moved drops (this.elements heap) 0 0 this.size
  let (this, heap) := this.setElements heap removed.1
  let (this, heap) := this.destroyRange heap removed.2 this.size
  ({ this with size := removed.2 }, heap)

def remove [BEq T] (this : SoulVector T) (heap : Heap T) (value : T) : Result T :=
  removeBy platform (fun _ element => element == value) this heap

/-- `remove` with a reference to an element of the vector, which is read at every comparison. -/
def removeElement [BEq T] (this : SoulVector T) (heap : Heap T) (index : Nat) : Result T :=
  removeBy platform (fun cells element => (cells index).any fun value => element == value) this heap

/-- `pos` is the distance of the pointer from `begin()`. -/
def erase (this : SoulVector T) (heap : Heap T) (pos : Int) : Result T :=
  if pos < 0 ∨ this.size ≤ pos then (this, heap)
  else
    let shifted := Cells.shiftRange platform.moved (this.elements heap) pos.toNat (this.size - 1 - pos.toNat)
    let (this, heap) := this.setElements heap (shifted.set (this.size - 1) none)
    ({ this with size := this.size - 1 }, heap)

def sort (this : SoulVector T) (heap : Heap T) (comp : T → T → Bool) : Result T :=
  let sorted := platform.sort comp (this.getAll heap)
  this.setElements heap fun index => if index < this.size then sorted[index]? else this.elements heap index

/-- The loop over a range of other elements. -/
def emplaceAll (this : SoulVector T) (heap : Heap T) : List T → Except BadAlloc (Result T)
  | [] => .ok (this, heap)
  | value :: rest => do
      let (this, heap) ← emplaceBackInternal platform this heap (.value (some value))
      emplaceAll this heap rest

/-- The range may not know its size. -/
def appendRange (this : SoulVector T) (heap : Heap T) (sized : Bool) (range : List T) : Except BadAlloc (Result T) := do
  let (this, heap) ← (if sized && 0 < range.length then
      reserve platform this heap ((this.size + range.length) % 2 ^ 64) else .ok (this, heap) :
    Except BadAlloc (Result T))
  emplaceAll platform this heap range

/-- The loop over the elements that were there when it began. -/
def emplaceElements (garbage : T) (storage : Storage) (this : SoulVector T) (heap : Heap T) (index : Nat) :
    Nat → Except BadAlloc (Result T)
  | 0 => .ok (this, heap)
  | count + 1 => do
      let (this, heap) ← emplaceBackInternal platform this heap (.element storage index garbage)
      emplaceElements garbage storage this heap (index + 1) count

/-- `append_range` with the vector itself. -/
def appendSelf (this : SoulVector T) (heap : Heap T) (garbage : T) : Except BadAlloc (Result T) := do
  let (this, heap) ← (if 0 < this.size then
      reserve platform this heap ((this.size + this.size) % 2 ^ 64) else .ok (this, heap) :
    Except BadAlloc (Result T))
  emplaceElements platform garbage this.data this heap 0 this.size

def releaseStorage (this : SoulVector T) (heap : Heap T) : Result T :=
  let (this, heap) := this.destroyRange heap 0 this.size
  ({ this with data := .small, capacity := platform.smallCapacity, size := 0 }, this.deallocateData heap)

/-- The elements of another inline vector are moved over one by one. -/
def adoptElements (this other : SoulVector T) (heap : Heap T) (index : Nat) :
    Nat → Except BadAlloc (SoulVector T × Result T)
  | 0 => .ok (this, other, heap)
  | count + 1 => do
      let cell := other.smallStorage index
      let other := { other with smallStorage := other.smallStorage.set index (cell.map platform.moved) }
      let (this, heap) ← emplaceBackInternal platform this heap (.value cell)
      adoptElements this { other with smallStorage := other.smallStorage.set index none } heap (index + 1) count

def adoptFrom (this other : SoulVector T) (heap : Heap T) : Except BadAlloc (SoulVector T × Result T) :=
  match other.data with
  | .small => do
      let this := { this with data := .small, capacity := platform.smallCapacity, size := 0 }
      let (this, other, heap) ← adoptElements platform this other heap 0 other.size
      return (this, { other with size := 0 }, heap)
  | .heap address =>
      .ok ({ this with data := .heap address, size := other.size, capacity := other.capacity },
        { other with data := .small, size := 0, capacity := platform.smallCapacity }, heap)

/-- The move constructor. -/
def moveFrom (other : SoulVector T) (heap : Heap T) : Except BadAlloc (SoulVector T × Result T) :=
  adoptFrom platform (make platform other.manager) other heap

/-- Move assignment from another vector. -/
def moveAssign (this other : SoulVector T) (heap : Heap T) : Except BadAlloc (SoulVector T × Result T) :=
  let (this, heap) := releaseStorage platform this heap
  adoptFrom platform { this with manager := other.manager } other heap

def copyElements (this other : SoulVector T) (heap : Heap T) (index : Nat) : Nat → Except BadAlloc (Result T)
  | 0 => .ok (this, heap)
  | count + 1 => do
      let (this, heap) ← emplaceBackInternal platform this heap (.value (other.elements heap index))
      copyElements this other heap (index + 1) count

/-- The copy constructor. -/
def copyFrom (other : SoulVector T) (heap : Heap T) : Except BadAlloc (Result T) := do
  let (this, heap) ← reserve platform (make platform other.manager) heap other.size
  copyElements platform this other heap 0 other.size

/-- `swap` with another vector. -/
def swap (this other : SoulVector T) (heap : Heap T) : Except BadAlloc (SoulVector T × Result T) := do
  let (tmp, other, heap) ← moveFrom platform other heap
  let (other, this, heap) ← moveAssign platform other this heap
  let (this, tmp, heap) ← moveAssign platform this tmp heap
  return (this, other, (releaseStorage platform tmp heap).2)

/-- Copy assignment from another vector. -/
def copyAssign (this other : SoulVector T) (heap : Heap T) : Except BadAlloc (Result T) := do
  let (tmp, heap) ← copyFrom platform other heap
  let (this, tmp, heap) ← swap platform this tmp heap
  return (this, (releaseStorage platform tmp heap).2)

/-- The constructor from an initializer list. -/
def ofList (manager : Nat) (heap : Heap T) (init : List T) : Except BadAlloc (Result T) := do
  let (this, heap) ← reserve platform (make platform manager) heap init.length
  emplaceAll platform this heap init

/-- The constructor from a range. -/
def ofRange (manager : Nat) (heap : Heap T) (sized : Bool) (range : List T) : Except BadAlloc (Result T) :=
  appendRange platform (make platform manager) heap sized range

end SoulVector

end SoulLib.Containers
