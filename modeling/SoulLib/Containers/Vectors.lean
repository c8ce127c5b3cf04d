import Mathlib.Data.List.Basic
import SoulLib.Containers.SoulVector
import SoulLib.Semantics.Runs

/-! Any number of vectors on one heap, and what their operations do to lists.

A vector is known by its position in the order of construction. The list side has
no capacities, no storage and no managers.
-/

set_option autoImplicit false

namespace SoulLib.Containers

open SoulLib.Memory (Heap BadAlloc)
open SoulLib.Semantics (System)

/-- `garbage` is what a destroyed element reads as. -/
inductive VectorAction (T : Type) where
  | construct (manager : Nat)
  | ofList (manager : Nat) (init : List T)
  | ofRange (manager : Nat) (sized : Bool) (range : List T)
  | copy (other : Nat)
  | move (other : Nat)
  | copyAssign (this other : Nat)
  | moveAssign (this other : Nat)
  | swap (this other : Nat)
  | insert (this : Nat) (value : T)
  | insertElement (this index : Nat) (garbage : T)
  | remove (this : Nat) (value : T)
  | removeElement (this index : Nat)
  | erase (this : Nat) (pos : Int)
  | appendRange (this : Nat) (sized : Bool) (range : List T)
  | appendSelf (this : Nat) (garbage : T)
  | reserve (this newCapacity : Nat)
  | shrinkToFit (this : Nat)
  | clear (this : Nat)
  | sort (this : Nat) (comp : T → T → Bool)
  | destroy (this : Nat)

/-- The vectors constructed so far; a destroyed one is no more. -/
structure Vectors (T : Type) where
  objects : List (Option (SoulVector T)) := []
  heap : Heap T := {}

/-- A removed value is not an element of the vector. -/
def VectorAction.RemovesOutside {T : Type} : VectorAction T → Prop
  | .removeElement .. => False
  | _ => True

namespace Vectors

variable {T : Type} (vectors : Vectors T)

def object (index : Nat) : Option (SoulVector T) := (vectors.objects[index]?).join

/-- A new vector. -/
def add (result : Except BadAlloc (SoulVector.Result T)) : Option (Vectors T) :=
  result.toOption.map fun result => { objects := vectors.objects ++ [some result.1], heap := result.2 }

/-- A method of one vector. -/
def update (this : Nat) (method : SoulVector T → Heap T → Except BadAlloc (SoulVector.Result T)) : Option (Vectors T) :=
  (vectors.object this).bind fun vector =>
    (method vector vectors.heap).toOption.map fun result =>
      { objects := vectors.objects.set this (some result.1), heap := result.2 }

/-- A method that changes two vectors, and does nothing if they are the same. -/
def updateBoth (this other : Nat)
    (method : SoulVector T → SoulVector T → Heap T → Except BadAlloc (SoulVector T × SoulVector.Result T)) :
    Option (Vectors T) :=
  (vectors.object this).bind fun vector => (vectors.object other).bind fun source =>
    if this = other then some vectors
    else
      (method vector source vectors.heap).toOption.map fun result =>
        { objects := (vectors.objects.set this (some result.1)).set other (some result.2.1), heap := result.2.2 }

def copyAssign (platform : Platform T) (this other : Nat) : Option (Vectors T) :=
  (vectors.object other).bind fun source =>
    if this = other then some vectors
    else vectors.update this fun vector heap => SoulVector.copyAssign platform vector source heap

def move (platform : Platform T) (other : Nat) : Option (Vectors T) :=
  (vectors.object other).bind fun source =>
    (SoulVector.moveFrom platform source vectors.heap).toOption.map fun result =>
      { objects := vectors.objects.set other (some result.2.1) ++ [some result.1], heap := result.2.2 }

def destroy (platform : Platform T) (this : Nat) : Option (Vectors T) :=
  (vectors.object this).map fun vector =>
    { objects := vectors.objects.set this none, heap := (SoulVector.releaseStorage platform vector vectors.heap).2 }

/-- `none` when a vector does not exist or an allocation fails. -/
def step [BEq T] (platform : Platform T) : VectorAction T → Option (Vectors T)
  | .construct manager => vectors.add (.ok (.make platform manager, vectors.heap))
  | .ofList manager init => vectors.add (SoulVector.ofList platform manager vectors.heap init)
  | .ofRange manager sized range => vectors.add (SoulVector.ofRange platform manager vectors.heap sized range)
  | .copy other => (vectors.object other).bind fun source => vectors.add (SoulVector.copyFrom platform source vectors.heap)
  | .move other => vectors.move platform other
  | .copyAssign this other => vectors.copyAssign platform this other
  | .moveAssign this other => vectors.updateBoth this other (SoulVector.moveAssign platform)
  | .swap this other => vectors.updateBoth this other (SoulVector.swap platform)
  | .insert this value => vectors.update this fun vector heap => vector.insert platform heap value
  | .insertElement this index garbage =>
      vectors.update this fun vector heap => vector.insertElement platform heap index garbage
  | .remove this value => vectors.update this fun vector heap => .ok (vector.remove platform heap value)
  | .removeElement this index => vectors.update this fun vector heap => .ok (vector.removeElement platform heap index)
  | .erase this pos => vectors.update this fun vector heap => .ok (vector.erase platform heap pos)
  | .appendRange this sized range =>
      vectors.update this fun vector heap => vector.appendRange platform heap sized range
  | .appendSelf this garbage => vectors.update this fun vector heap => vector.appendSelf platform heap garbage
  | .reserve this newCapacity => vectors.update this fun vector heap => vector.reserve platform heap newCapacity
  | .shrinkToFit this => vectors.update this fun vector heap => vector.shrinkToFit platform heap
  | .clear this => vectors.update this fun vector heap => .ok (vector.clear heap)
  | .sort this comp => vectors.update this fun vector heap => .ok (vector.sort platform heap comp)
  | .destroy this => vectors.destroy platform this

/-- Byte counts do not wrap, references are to elements, and sorts are by strict total orders. -/
def Admits (platform : Platform T) : VectorAction T → Prop
  | .ofList _ init => init.length * platform.sizeof < 2 ^ 64
  | .ofRange _ sized range => sized = true → range.length * platform.sizeof < 2 ^ 64
  | .insertElement this index _ | .removeElement this index => ∀ vector ∈ vectors.object this, index < vector.size
  | .appendRange this sized range => sized = true → ∀ vector ∈ vectors.object this,
      (vector.size + range.length) * platform.sizeof < 2 ^ 64
  | .reserve _ newCapacity => newCapacity * platform.sizeof < 2 ^ 64
  | .sort _ comp => IsStrictTotalOrder T fun a b => comp a b = true
  | _ => True

/-- No element of a full vector is inserted into that vector. -/
def Unaliased : VectorAction T → Prop
  | .insertElement this _ _ => ∀ vector ∈ vectors.object this, vector.size ≠ vector.capacity
  | _ => True

/-- The vectors under any sequence of operations. -/
def system [BEq T] (platform : Platform T) : System (Vectors T) (VectorAction T) where
  step := fun vectors action => vectors.step platform action

end Vectors

/-- The lists that the vectors stand for. -/
abbrev Lists (T : Type) : Type := List (Option (List T))

namespace Lists

variable {T : Type} (lists : Lists T)

def list (index : Nat) : Option (List T) := (lists[index]?).join

def update (this : Nat) (change : List T → List T) : Lists T :=
  lists.set this ((lists.list this).map change)

/-- The operations on lists. -/
def step [BEq T] : VectorAction T → Lists T
  | .construct _ => lists ++ [some []]
  | .ofList _ init => lists ++ [some init]
  | .ofRange _ _ range => lists ++ [some range]
  | .copy other => lists ++ [lists.list other]
  | .move other => lists.set other (some []) ++ [lists.list other]
  | .copyAssign this other => lists.set this (lists.list other)
  | .moveAssign this other =>
      if this = other then lists else (lists.set this (lists.list other)).set other (some [])
  | .swap this other => (lists.set this (lists.list other)).set other (lists.list this)
  | .insert this value => lists.update this fun list => list ++ [value]
  | .insertElement this index _ => lists.update this fun list => list ++ (list[index]?).toList
  | .remove this value => lists.update this fun list => list.filter fun element => !(element == value)
  | .removeElement this index => lists.update this fun list =>
      list.filter fun element => !(list[index]?).any fun value => element == value
  | .erase this pos => lists.update this fun list =>
      if pos < 0 ∨ list.length ≤ pos then list else list.eraseIdx pos.toNat
  | .appendRange this _ range => lists.update this fun list => list ++ range
  | .appendSelf this _ => lists.update this fun list => list ++ list
  | .reserve .. | .shrinkToFit _ => lists
  | .clear this => lists.update this fun _ => []
  | .sort this comp => lists.update this fun list => list.mergeSort fun a b => !comp b a
  | .destroy this => lists.set this none

end Lists

/-- The vectors, and next to them the lists under the same operations. -/
def vectorsAndLists {T : Type} [BEq T] (platform : Platform T) : System (Vectors T × Lists T) (VectorAction T) where
  step := fun state action => (state.1.step platform action).map fun vectors => (vectors, state.2.step action)

end SoulLib.Containers
