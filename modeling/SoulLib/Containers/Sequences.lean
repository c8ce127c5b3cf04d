import SoulLib.Containers.Comparator
import SoulLib.Containers.VectorMethods

/-! The other sequential containers.

What the standard library stores in a deque or a list is a list here. The array is
kept with all its places, and the loop that closes a gap writes them one by one.
-/

set_option autoImplicit false

namespace SoulLib.Containers

/-- What a container answers through its interface. -/
structure IContainer (T : Type) where
  getAll : List T
  size : Nat
  findAll : (T → Bool) → List T
  findFirst : (T → Bool) → Option T

def IContainer.ofList {T : Type} (list : List T) : IContainer T where
  getAll := list
  size := list.length
  findAll := fun pred => list.filter pred
  findFirst := fun pred => list.find? pred

/-- The two hold the same elements, each in its own order. -/
structure IContainer.Rearranged {T : Type} (first second : IContainer T) : Prop where
  getAll : first.getAll.Perm second.getAll
  size : first.size = second.size
  findAll : ∀ pred, (first.findAll pred).Perm (second.findAll pred)
  findFirst : ∀ pred, (first.findFirst pred).isSome = (second.findFirst pred).isSome

theorem IContainer.rearranged_ofList {T : Type} {list other : List T} (perm : list.Perm other) :
    (ofList list).Rearranged (ofList other) where
  getAll := perm
  size := perm.length_eq
  findAll pred := perm.filter pred
  findFirst pred := by
    show (list.find? pred).isSome = (other.find? pred).isSome
    rw [Bool.eq_iff_iff, List.find?_isSome, List.find?_isSome]
    simp only [perm.mem_iff]

structure SoulDeque (T : Type) where
  data : List T := []

structure SoulList (T : Type) where
  data : List T := []

/-- All `N` places, of which the first `currentSize` are in use. -/
structure SoulArray (T : Type) (N : Nat) where
  data : List T
  currentSize : Nat
  length_eq : data.length = N
  size_le : currentSize ≤ N

variable {T : Type} (platform : Platform T)

namespace SoulVector

def toContainer (this : SoulVector T) (heap : Memory.Heap T) : IContainer T where
  getAll := this.getAll heap
  size := this.size
  findAll := this.findAll heap
  findFirst := this.findFirst heap

end SoulVector

namespace SoulDeque

variable (this : SoulDeque T)

def insert (value : T) : SoulDeque T := ⟨this.data ++ [value]⟩

def remove [BEq T] (value : T) : SoulDeque T := ⟨this.data.filter fun element => !(element == value)⟩

def getAll : List T := this.data

def size : Nat := this.data.length

def findAll (pred : T → Bool) : List T := this.data.filter pred

def findFirst (pred : T → Bool) : Option T := this.data.find? pred

/-- The elements are sorted in a vector and assigned back. -/
def sort (comp : T → T → Bool) : SoulDeque T := ⟨platform.sort comp this.getAll⟩

def toContainer : IContainer T where
  getAll := this.getAll
  size := this.size
  findAll := this.findAll
  findFirst := this.findFirst

end SoulDeque

namespace SoulList

variable (this : SoulList T)

def insert (value : T) : SoulList T := ⟨this.data ++ [value]⟩

def remove [BEq T] (value : T) : SoulList T := ⟨this.data.filter fun element => !(element == value)⟩

def getAll : List T := this.data

def size : Nat := this.data.length

def findAll (pred : T → Bool) : List T := this.data.filter pred

def findFirst (pred : T → Bool) : Option T := this.data.find? pred

/-- `std::list::sort` is stable. -/
def sort (comp : T → T → Bool) : SoulList T := ⟨stableSort comp this.data⟩

def toContainer : IContainer T where
  getAll := this.getAll
  size := this.size
  findAll := this.findAll
  findFirst := this.findFirst

end SoulList

/-- `std::copy` of `count` elements behind a position one position to the front. -/
def copyRange (data : List T) (it : Nat) : Nat → List T
  | 0 => data
  | count + 1 =>
      match data[it + 1]? with
      | some value => copyRange (data.set it value) (it + 1) count
      | none => data

theorem length_copyRange (data : List T) (it count : Nat) : (copyRange data it count).length = data.length := by
  induction count generalizing data it with
  | zero => rfl
  | succ count ih =>
      rw [copyRange]
      split
      · rw [ih, List.length_set]
      · rfl

theorem copyRange_append (front rest tail : List T) (value : T) :
    ∃ left, copyRange (front ++ value :: (rest ++ tail)) front.length rest.length = front ++ rest ++ left :: tail := by
  induction rest generalizing front value with
  | nil => exact ⟨value, by simp [copyRange]⟩
  | cons next rest ih =>
      have here : (front ++ value :: (next :: rest ++ tail))[front.length + 1]? = some next := by simp
      have written : (front ++ value :: (next :: rest ++ tail)).set front.length next =
          (front ++ [next]) ++ next :: (rest ++ tail) := by simp
      obtain ⟨left, copied⟩ := ih (front ++ [next]) next
      rw [List.length_append, List.length_singleton] at copied
      refine ⟨left, ?_⟩
      rw [List.length_cons, copyRange, here]
      simp only [written]
      rw [copied, List.append_assoc front, List.singleton_append]

namespace SoulArray

variable {N : Nat} (this : SoulArray T N)

/-- An array whose places hold whatever was there. -/
def make (data : List T) (length_eq : data.length = N) : SoulArray T N where
  data
  currentSize := 0
  length_eq
  size_le := Nat.zero_le N

def getAll : List T := this.data.take this.currentSize

def size : Nat := this.currentSize

def insert (value : T) : SoulArray T N :=
  if room : this.currentSize < N then
    { data := this.data.set this.currentSize value
      currentSize := this.currentSize + 1
      length_eq := by rw [List.length_set, this.length_eq]
      size_le := room }
  else this

def remove [BEq T] (value : T) : SoulArray T N :=
  let it := this.getAll.findIdx fun element => element == value
  if it < this.currentSize then
    { data := copyRange this.data it (this.currentSize - (it + 1))
      currentSize := this.currentSize - 1
      length_eq := by rw [length_copyRange, this.length_eq]
      size_le := Nat.le_trans (Nat.sub_le _ _) this.size_le }
  else this

def findAll (pred : T → Bool) : List T := this.getAll.filter pred

def findFirst (pred : T → Bool) : Option T := this.getAll.find? pred

def sort (comp : T → T → Bool) : SoulArray T N where
  data := platform.sort comp this.getAll ++ this.data.drop this.currentSize
  currentSize := this.currentSize
  length_eq := by
    rw [List.length_append, (platform.sort_perm comp _).length_eq, ← List.length_append, getAll, List.take_append_drop,
      this.length_eq]
  size_le := this.size_le

def toContainer : IContainer T where
  getAll := this.getAll
  size := this.size
  findAll := this.findAll
  findFirst := this.findFirst

variable {this}

theorem length_getAll : this.getAll.length = this.currentSize := by
  rw [getAll, List.length_take, this.length_eq]
  exact Nat.min_eq_left this.size_le

theorem getAll_insert (room : this.currentSize < N) (value : T) : (this.insert value).getAll = this.getAll ++ [value] := by
  have bound : this.currentSize < this.data.length := by rwa [this.length_eq]
  rw [insert, dif_pos room]
  show (this.data.set this.currentSize value).take (this.currentSize + 1) = _
  rw [List.take_add_one, List.take_set_of_le (Nat.le_refl _), List.getElem?_set_self bound]
  rfl

theorem getAll_remove [BEq T] (value : T) :
    (this.remove value).getAll = this.getAll.eraseP fun element => element == value := by
  have length : this.getAll.length = this.currentSize := length_getAll
  have whole : this.getAll ++ this.data.drop this.currentSize = this.data := List.take_append_drop _ _
  rw [remove]
  split
  · next found =>
      rw [← length] at found
      obtain ⟨present, member, equal⟩ := List.findIdx_lt_length.mp found
      obtain ⟨dropped, front, rest, kept, equal, same, erased⟩ :=
        @List.exists_of_eraseP _ (fun element => element == value) _ _ member equal
      have it : this.getAll.findIdx (fun element => element == value) = front.length := by
        rw [same, List.findIdx_append, List.findIdx_eq_length_of_false fun other within => by simpa using kept other within,
          if_neg (Nat.lt_irrefl _), List.findIdx_cons, equal]
        simp
      have count : this.currentSize - (front.length + 1) = rest.length := by
        rw [← length, same, List.length_append, List.length_cons]
        omega
      obtain ⟨left, copied⟩ := copyRange_append front rest (this.data.drop this.currentSize) dropped
      rw [← List.cons_append, ← List.append_assoc, ← same, whole] at copied
      have size : this.currentSize - 1 = (front ++ rest).length := by
        rw [← length, same, List.length_append, List.length_append, List.length_cons]
        omega
      rw [erased]
      show (copyRange this.data (this.getAll.findIdx _) (this.currentSize - (this.getAll.findIdx _ + 1))).take
        (this.currentSize - 1) = front ++ rest
      rw [it, count, copied, size]
      exact List.take_left
  · next absent =>
      rw [← length, List.findIdx_lt_length] at absent
      symm
      exact List.eraseP_of_forall_not fun other member equal => absent ⟨other, member, equal⟩

theorem getAll_sort (comp : T → T → Bool) : (this.sort platform comp).getAll = platform.sort comp this.getAll := by
  have length : (platform.sort comp this.getAll).length = this.currentSize := by
    rw [(platform.sort_perm comp _).length_eq, length_getAll]
  show (platform.sort comp this.getAll ++ this.data.drop this.currentSize).take this.currentSize = _
  rw [← length]
  exact List.take_left

end SoulArray

end SoulLib.Containers
