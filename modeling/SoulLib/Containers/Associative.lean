import SoulLib.Containers.OrderedList
import SoulLib.Containers.Sequences
import SoulLib.Containers.SoulFlatMap

/-! The ordered and the hashed containers.

What the standard library stores in a tree is a list in order here. The order of a
hashed container is chosen anew whenever an element is added.
-/

set_option autoImplicit false

namespace SoulLib.Containers

/-- The order that a hash table has after an element was added to it. -/
structure Rehash (α : Type) where
  arrange : List α → List α
  perm : ∀ list, (arrange list).Perm list

/-- A platform whose sorts are stable. -/
def Platform.stable (T : Type) : Platform T where
  sizeof := 24
  smallCapacity := 5
  new := .above
  moved := id
  sort := stableSort
  sizeof_pos := by decide
  smallCapacity_pos := by decide
  object_fits := by decide
  sort_perm := fun _ => stableSort_perm
  sort_sorted := fun _ list _ => pairwise_stableSort list

structure SoulSet (T : Type) where
  data : List T := []

structure SoulMultiset (T : Type) where
  data : List T := []

structure SoulMap (K V : Type) where
  data : List (K × V) := []

structure SoulMultimap (K V : Type) where
  data : List (K × V) := []

structure SoulUnorderedSet (T : Type) where
  data : List T := []

structure SoulUnorderedMap (K V : Type) where
  data : List (K × V) := []

variable {T K V : Type}

namespace SoulSet

variable (less : T → T → Bool) (this : SoulSet T)

def insert (value : T) : SoulSet T := ⟨insertOr less (fun present => present) value this.data⟩

def remove (value : T) : SoulSet T := ⟨eraseEquivalent less value this.data⟩

def getAll : List T := this.data

def sort (_ : T → T → Bool) : SoulSet T := this

def insertRange (range : List T) : SoulSet T := range.foldl (insert less) this

def toContainer : IContainer T := .ofList this.data

end SoulSet

namespace SoulMultiset

variable (less : T → T → Bool) (this : SoulMultiset T)

def insert (value : T) : SoulMultiset T := ⟨insertBehind less value this.data⟩

def remove (value : T) : SoulMultiset T := ⟨eraseEquivalent less value this.data⟩

def getAll : List T := this.data

def sort (_ : T → T → Bool) : SoulMultiset T := this

def insertRange (range : List T) : SoulMultiset T := range.foldl (insert less) this

def toContainer : IContainer T := .ofList this.data

end SoulMultiset

/-- Entries in the order of their keys. -/
def byKey (compare : K → K → Bool) (a b : K × V) : Bool := compare a.1 b.1

namespace SoulMap

variable (compare : K → K → Bool) (this : SoulMap K V)

/-- An assignment to `operator[]`: an entry that is there keeps its key. -/
def insert (kv : K × V) : SoulMap K V := ⟨insertOr (byKey compare) (fun entry => (entry.1, kv.2)) kv this.data⟩

def remove (kv : K × V) : SoulMap K V := ⟨eraseEquivalent (byKey compare) kv this.data⟩

def getAll : List (K × V) := this.data

def sort (_ : K × V → K × V → Bool) : SoulMap K V := this

def insertRange (range : List (K × V)) : SoulMap K V := range.foldl (insert compare) this

def toContainer : IContainer (K × V) := .ofList this.data

end SoulMap

namespace SoulMultimap

variable (compare : K → K → Bool) (this : SoulMultimap K V)

def insert (kv : K × V) : SoulMultimap K V := ⟨insertBehind (byKey compare) kv this.data⟩

/-- The loop over the range of the key stops at the first entry with the value. -/
def remove [BEq V] (kv : K × V) : SoulMultimap K V :=
  ⟨lowerPart (byKey compare) kv this.data ++
    (equalRange (byKey compare) kv this.data).eraseP (fun entry => entry.2 == kv.2) ++
    upperPart (byKey compare) kv this.data⟩

def getAll : List (K × V) := this.data

def sort (_ : K × V → K × V → Bool) : SoulMultimap K V := this

def insertRange (range : List (K × V)) : SoulMultimap K V := range.foldl (insert compare) this

end SoulMultimap

def SoulFlatMap.toContainer (this : SoulFlatMap K V) : IContainer (K × V) := .ofList this.getAll

namespace SoulUnorderedSet

variable [BEq T] (rehash : Rehash T) (this : SoulUnorderedSet T)

def insert (value : T) : SoulUnorderedSet T :=
  if this.data.any (· == value) then this else ⟨rehash.arrange (value :: this.data)⟩

def remove (value : T) : SoulUnorderedSet T := ⟨this.data.filter fun element => !(element == value)⟩

def getAll : List T := this.data

def insertRange (range : List T) : SoulUnorderedSet T := range.foldl (insert rehash) this

/-- What was sorted in a vector goes into the table again. -/
def sort (platform : Platform T) (comp : T → T → Bool) : SoulUnorderedSet T :=
  insertRange rehash {} (platform.sort comp this.getAll)

def toContainer : IContainer T := .ofList this.data

end SoulUnorderedSet

namespace SoulUnorderedMap

variable [BEq K] (rehash : Rehash (K × V)) (this : SoulUnorderedMap K V)

def insert (kv : K × V) : SoulUnorderedMap K V :=
  if this.data.any (·.1 == kv.1) then
    ⟨this.data.map fun entry => if entry.1 == kv.1 then (entry.1, kv.2) else entry⟩
  else ⟨rehash.arrange (kv :: this.data)⟩

def remove (kv : K × V) : SoulUnorderedMap K V := ⟨this.data.filter fun entry => !(entry.1 == kv.1)⟩

def getAll : List (K × V) := this.data

def insertRange (range : List (K × V)) : SoulUnorderedMap K V := range.foldl (insert rehash) this

def sort (platform : Platform (K × V)) (comp : K × V → K × V → Bool) : SoulUnorderedMap K V :=
  insertRange rehash {} (platform.sort comp this.getAll)

def toContainer : IContainer (K × V) := .ofList this.data

end SoulUnorderedMap

end SoulLib.Containers
