import SoulLib.Memory.ArenaAllocator

/-! The addresses that an arena returns.

`allocate` aligns the offset, and `operator new` only promises `kAlignment` for the
start of the buffer.
-/

set_option autoImplicit false

namespace SoulLib.Memory

/-- `alignof(std::max_align_t)`. -/
def kAlignment : Nat := 16

/-- The memory that `allocateArena` gets from `operator new`. -/
structure ArenaBuffer where
  address : BitVec 64
  aligned : kAlignment ∣ address.toNat

/-- A type of objects that an arena can create. -/
structure ObjectType where
  sizeOf : BitVec 64
  alignOf : Alignment
  deriving DecidableEq, Repr

namespace ArenaRun

/-- The pointer that `allocate` returns. -/
def allocate (run : ArenaRun) (buffer : ArenaBuffer) (size : BitVec 64) (alignment : Alignment) :
    Except ArenaError (BitVec 64) :=
  (run.result size alignment).map fun current => buffer.address + current

def create (run : ArenaRun) (buffer : ArenaBuffer) (type : ObjectType) : Except ArenaError (BitVec 64) :=
  run.allocate buffer type.sizeOf type.alignOf

end ArenaRun

theorem dvd_roundUp (value alignment : Nat) : alignment ∣ roundUp value alignment := Nat.dvd_mul_left _ _

variable {alignment : Alignment}

theorem Alignment.dvd_word (alignment : Alignment) : 2 ^ alignment.exponent ∣ 2 ^ 64 :=
  Nat.pow_dvd_pow 2 (Nat.le_of_lt alignment.bound)

/-- The offset is aligned even where the rounding wraps. -/
theorem ArenaAllocator.dvd_align (value : BitVec 64) (alignment : Alignment) :
    2 ^ alignment.exponent ∣ (align value alignment.value).toNat := by
  rw [toNat_align]
  exact (Nat.dvd_mod_iff alignment.dvd_word).mpr (dvd_roundUp _ _)

theorem Alignment.dvd_kAlignment_iff : 2 ^ alignment.exponent ∣ kAlignment ↔ 2 ^ alignment.exponent ≤ kAlignment := by
  constructor
  · exact Nat.le_of_dvd (by decide)
  · intro small
    have bound : alignment.exponent ≤ 4 := (Nat.pow_le_pow_iff_right (by decide)).mp small
    exact Nat.pow_dvd_pow 2 bound

namespace ArenaRun

variable {run : ArenaRun} {buffer : ArenaBuffer} {size address : BitVec 64}

theorem allocate_cases (returned : run.allocate buffer size alignment = .ok address) :
    address = buffer.address + ArenaAllocator.align run.arena.offset alignment.value := by
  unfold allocate at returned
  by_cases within : run.exactEnd size alignment % 2 ^ 64 ≤ run.arena.capacity.toNat
  · rw [result, result_ok within] at returned
    exact (Except.ok.inj returned).symm
  · rw [result, result_error (Nat.lt_of_not_le within)] at returned
    cases returned

theorem allocate_dvd_iff (returned : run.allocate buffer size alignment = .ok address) :
    2 ^ alignment.exponent ∣ address.toNat ↔ 2 ^ alignment.exponent ∣ buffer.address.toNat := by
  rw [allocate_cases returned, BitVec.toNat_add, Nat.dvd_mod_iff alignment.dvd_word]
  exact (Nat.dvd_add_iff_left (ArenaAllocator.dvd_align _ _)).symm

end ArenaRun

/-- The start of the buffer has the alignment: `operator new` promises it, or it happens to. -/
def Alignment.Provided (alignment : Alignment) (buffer : ArenaBuffer) : Prop :=
  2 ^ alignment.exponent ≤ kAlignment ∨ 2 ^ alignment.exponent ∣ buffer.address.toNat

theorem Alignment.provided_iff {buffer : ArenaBuffer} :
    alignment.Provided buffer ↔ 2 ^ alignment.exponent ∣ buffer.address.toNat := by
  constructor
  · rintro (small | aligned)
    · exact (Alignment.dvd_kAlignment_iff.mpr small).trans buffer.aligned
    · exact aligned
  · exact .inr

/-- Whatever was allocated before, a pointer is aligned as requested exactly when the buffer
provides the alignment. -/
theorem arena_aligned_iff (run : ArenaRun) (buffer : ArenaBuffer) (address : BitVec 64) :
    (∀ size alignment, run.allocate buffer size alignment = .ok address →
      (2 ^ alignment.exponent ∣ address.toNat ↔ alignment.Provided buffer)) ∧
    ∀ type : ObjectType, run.create buffer type = .ok address →
      (2 ^ type.alignOf.exponent ∣ address.toNat ↔ type.alignOf.Provided buffer) := by
  have exact : ∀ size alignment, run.allocate buffer size alignment = .ok address →
      (2 ^ alignment.exponent ∣ address.toNat ↔ alignment.Provided buffer) := by
    intro size alignment returned
    rw [ArenaRun.allocate_dvd_iff returned, Alignment.provided_iff]
  exact ⟨exact, fun type returned => exact type.sizeOf type.alignOf returned⟩

/-- A buffer with no more than the alignment that was asked for. -/
def plainBuffer : ArenaBuffer where
  address := 4112
  aligned := by decide

/-- Five bytes are in use when an object of eight-byte alignment is created. -/
theorem arena_aligned_small :
    let run := ArenaRun.step { arena := { capacity := 256 } } (.allocate 5 ⟨0, by decide⟩)
    run.create plainBuffer ⟨24, ⟨3, by decide⟩⟩ = .ok 4120 ∧ 2 ^ 3 ∣ (4120 : BitVec 64).toNat := by
  have returned : (ArenaRun.step { arena := { capacity := 256 } } (.allocate 5 ⟨0, by decide⟩)).create plainBuffer
      ⟨24, ⟨3, by decide⟩⟩ = .ok 4120 := by decide
  exact ⟨returned, ((arena_aligned_iff _ plainBuffer 4120).2 _ returned).mpr (.inl (by decide))⟩

/-- The first pointer is the start of the buffer, whatever alignment was asked for. -/
theorem arena_misaligned :
    ArenaRun.allocate { arena := { capacity := 256 } } plainBuffer 64 ⟨6, by decide⟩ = .ok 4112 ∧
      ¬2 ^ 6 ∣ (4112 : BitVec 64).toNat := by
  decide

end SoulLib.Memory
