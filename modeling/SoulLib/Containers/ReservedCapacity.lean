import SoulLib.Containers.VectorRuns

/-! What backs the capacity of a vector.

The allocator computes a number of bytes, and the vector keeps a number of elements.
-/

set_option autoImplicit false

namespace SoulLib.Containers

open SoulLib.Memory (Heap BadAlloc MemoryManager)
open SoulLib.Semantics (System)
open SoulVector (Result Holds Method)

/-- The calls that make a vector larger. -/
inductive GrowingCall (T : Type) where
  | reserve (newCapacity : Nat)
  | insert (value : T)

namespace GrowingCall

variable {T : Type}

def run (platform : Platform T) (this : SoulVector T) (heap : Heap T) : GrowingCall T → Except BadAlloc (Result T)
  | .reserve newCapacity => this.reserve platform heap newCapacity
  | .insert value => this.insert platform heap value

/-- The number of bytes of a larger capacity does not wrap. -/
def Fits (platform : Platform T) (this : SoulVector T) : GrowingCall T → Prop
  | .reserve newCapacity => this.capacity < newCapacity → newCapacity * platform.sizeof < 2 ^ 64
  | .insert _ => True

end GrowingCall

/-- One vector, and calls that return normally. -/
def growth {T : Type} (platform : Platform T) : System (Result T) (GrowingCall T) where
  step := fun state call => (call.run platform state.1 state.2).toOption

/-- The block of a vector was requested with enough bytes for its capacity and for its elements. -/
def Backed {T : Type} (platform : Platform T) (state : Result T) : Prop :=
  ∀ address, state.1.data = .heap address →
    ∃ info, (state.2.managers state.1.manager).info address = some info ∧
      state.1.capacity * platform.sizeof ≤ info.size ∧ state.1.size * platform.sizeof ≤ info.size

namespace SoulVector

variable {T : Type} {platform : Platform T} {heap heap' : Heap T} {this this' grown : SoulVector T} {list : List T}
  {requested : Nat}

theorem reallocate_registers (holds : Holds platform heap this list) (large : platform.smallCapacity < requested)
    (returned : reallocate platform this heap requested = .ok (grown, heap')) :
    ∃ address, grown.data = .heap address ∧ grown.capacity = requested ∧ grown.size = this.size ∧
      (heap'.managers grown.manager).info address = some ⟨requested * platform.sizeof % 2 ^ 64, vectorTag⟩ := by
  obtain ⟨newData, allocated, got, rest⟩ := reallocate_large large returned
  have registered := Heap.allocate_registers got
  cases holds with
  | inline fits =>
      cases rest
      exact ⟨newData, rfl, rfl, rfl, registered⟩
  | @heap manager address capacity list fits small bytes live cells =>
      have differs : newData ≠ address := by
        rintro rfl
        exact (Heap.allocate_eq_ok got).2.1 live
      cases rest
      refine ⟨newData, rfl, rfl, rfl, ?_⟩
      exact (Heap.deallocate_info_of_ne differs).trans registered

theorem reallocate_backed_iff (holds : Holds platform heap this list) (large : platform.smallCapacity < requested)
    (room : list.length ≤ requested) (returned : reallocate platform this heap requested = .ok (grown, heap')) :
    Backed platform (grown, heap') ↔ requested * platform.sizeof < 2 ^ 64 := by
  obtain ⟨address, data, capacity, size, registered⟩ := reallocate_registers holds large returned
  constructor
  · intro backed
    -- What was requested is a remainder, and so below the modulus.
    obtain ⟨info, found, enough, -⟩ := backed address data
    obtain rfl := Option.some.inj (registered.symm.trans found)
    rw [capacity] at enough
    exact Nat.lt_of_le_of_lt enough (Nat.mod_lt _ (by decide))
  · intro exact other same
    cases data.symm.trans same
    refine ⟨_, registered, ?_, ?_⟩
    · rw [capacity, Nat.mod_eq_of_lt exact]
    · rw [size, holds.size_eq, Nat.mod_eq_of_lt exact]
      exact Nat.mul_le_mul_right _ room

theorem construct_backed {cells : Cells T} (backed : Backed platform (this, heap)) (room : this.size < this.capacity) :
    Backed platform
      ({ (this.setElements heap cells).1 with size := (this.setElements heap cells).1.size + 1 },
        (this.setElements heap cells).2) := by
  obtain ⟨manager, data, size, capacity, smallStorage⟩ := this
  intro address same
  cases data with
  | small => cases same
  | heap other =>
      cases same
      obtain ⟨info, found, enough, -⟩ := backed address rfl
      refine ⟨info, found, enough, ?_⟩
      exact Nat.le_trans (Nat.mul_le_mul_right _ room) enough

theorem grow_backed (holds : Holds platform heap this list) (backed : Backed platform (this, heap))
    (returned : grow platform this heap = .ok (grown, heap')) : Backed platform (grown, heap') := by
  by_cases full : this.size = this.capacity
  · -- A backed capacity is below `2 ^ 63` bytes, so twice that does not wrap.
    obtain ⟨same, large, exact⟩ := holds.grow_full full
    have fits := holds.size_le
    rw [same] at returned
    exact (reallocate_backed_iff holds large (by omega) returned).mpr exact
  · obtain ⟨rfl, rfl⟩ := (grow_spec holds returned).2.2 full
    exact backed

end SoulVector

section Runs

variable {T : Type} {platform : Platform T} {heap : Heap T} {this : SoulVector T} {list : List T} {state after : Result T}
  {call : GrowingCall T}

theorem backed_make (platform : Platform T) (manager : Nat) (heap : Heap T) :
    Backed platform (SoulVector.make platform manager, heap) := by
  rintro address ⟨⟩

theorem GrowingCall.run_backed_iff (holds : Holds platform heap this list) (backed : Backed platform (this, heap))
    (returned : call.run platform this heap = .ok after) :
    (Backed platform after ↔ call.Fits platform this) ∧
      (call.Fits platform this → ∃ list', Holds platform after.2 after.1 list') := by
  obtain ⟨this', heap'⟩ := after
  cases call with
  | reserve newCapacity =>
      simp only [run, Fits] at returned ⊢
      by_cases enough : newCapacity ≤ this.capacity
      · rw [SoulVector.reserve, if_pos enough] at returned
        cases returned
        exact ⟨⟨fun _ more => absurd more (Nat.not_lt.mpr enough), fun _ => backed⟩, fun _ => ⟨list, holds⟩⟩
      · have more := Nat.lt_of_not_le enough
        have small := holds.smallCapacity_le
        have fits := holds.size_le
        have reallocated := returned
        rw [SoulVector.reserve, if_neg enough] at reallocated
        refine ⟨(SoulVector.reallocate_backed_iff holds (by omega) (by omega) reallocated).trans ?_, ?_⟩
        · exact ⟨fun exact _ => exact, fun exact => exact more⟩
        · intro exact
          exact ⟨list, (SoulVector.reserve_spec holds (exact more) returned).1.holds⟩
  | insert value =>
      simp only [run, Fits] at returned ⊢
      refine ⟨⟨fun _ => trivial, fun _ => ?_⟩, fun _ => ⟨_, (SoulVector.emplaceValue_spec holds returned).holds⟩⟩
      obtain ⟨⟨grown, heap₁⟩, grows, rest⟩ := SoulVector.bind_eq_ok.mp returned
      obtain ⟨method, room, -⟩ := SoulVector.grow_spec holds grows
      cases rest
      refine SoulVector.construct_backed (SoulVector.grow_backed holds backed grows) ?_
      rw [method.holds.size_eq]
      exact room

/-- In every run in which no reserved number of bytes wraps the vector stays backed, and the next
call keeps it so exactly if its number of bytes does not wrap either. -/
theorem reaches_backed_iff {manager : Nat}
    (reach : (growth platform).Reaches (fun state call => call.Fits platform state.1)
      (SoulVector.make platform manager, heap) state) :
    Backed platform state ∧
      ∀ call after, (growth platform).step state call = some after →
        (Backed platform after ↔ call.Fits platform state.1) := by
  have sound : Backed platform state ∧ ∃ list, Holds platform state.2 state.1 list := by
    apply reach.invariant
    · exact ⟨backed_make platform manager heap, [], Holds.make platform heap manager⟩
    · -- The bound on the bytes that growing relies on comes with `Holds`.
      rintro ⟨this, heap⟩ call after - ⟨backed, list, holds⟩ fits taken
      obtain ⟨exactly, keeps⟩ := GrowingCall.run_backed_iff holds backed (Vectors.toOption_eq_some.mp taken)
      exact ⟨exactly.mpr fits, keeps fits⟩
  obtain ⟨backed, list, holds⟩ := sound
  refine ⟨backed, ?_⟩
  intro call after taken
  exact (GrowingCall.run_backed_iff holds backed (Vectors.toOption_eq_some.mp taken)).1

end Runs

/-- Three strings, in a block of which four were reserved. -/
theorem reaches_backed_iff_strings : ∃ state, (growth Vectors.strings).Reaches
    (fun state call => call.Fits Vectors.strings state.1) (SoulVector.make Vectors.strings 0, {}) state ∧
      state.1.capacity = 4 ∧ Backed Vectors.strings state := by
  have begun : (growth Vectors.strings).Reaches (fun state call => call.Fits Vectors.strings state.1)
    (SoulVector.make Vectors.strings 0, {}) (SoulVector.make Vectors.strings 0, {}) := .start
  have reserved := begun.andThen (.reserve 4) rfl (fun _ => (by decide : 4 * 32 < 2 ^ 64))
  have reach := reserved.andThen (.insert ['a']) rfl trivial
  exact ⟨_, reach, rfl, (reaches_backed_iff reach).1⟩

/-- The bytes of a capacity of `2 ^ 59` strings wrap to none. -/
theorem reserve_wraps : ∃ state, (growth Vectors.strings).step (SoulVector.make Vectors.strings 0, {}) (.reserve (2 ^ 59)) =
    some state ∧ state.1.capacity = 2 ^ 59 ∧ ¬ Backed Vectors.strings state := by
  refine ⟨_, rfl, rfl, ?_⟩
  intro backed
  have exactly := GrowingCall.run_backed_iff (Holds.make Vectors.strings {} 0) (backed_make Vectors.strings 0 {})
    (rfl : (GrowingCall.reserve (2 ^ 59)).run Vectors.strings (SoulVector.make Vectors.strings 0) {} = .ok _)
  exact absurd (exactly.1.mp backed (by decide)) (by decide)

end SoulLib.Containers
