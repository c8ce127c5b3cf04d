import Mathlib.Data.Nat.Bitwise
import Mathlib.Tactic.Ring

/-! The arena allocator.

An address is its distance from the start of the buffer, and `size_t` has 64
bits. The exact arithmetic that the bounds check is meant to do is on natural
numbers.
-/

set_option autoImplicit false

namespace SoulLib.Memory

/-- A power of two that fits `size_t`. -/
structure Alignment where
  exponent : Nat
  bound : exponent < 64
  deriving DecidableEq, Repr

def Alignment.value (alignment : Alignment) : BitVec 64 := BitVec.twoPow 64 alignment.exponent

inductive ArenaError where
  | invalidArgument
  | badAlloc
  deriving DecidableEq, Repr

structure ArenaAllocator where
  capacity : BitVec 64
  offset : BitVec 64 := 0
  deriving DecidableEq, Repr

namespace ArenaAllocator

/-- The constructor. -/
def make (capacity : BitVec 64) : Except ArenaError ArenaAllocator :=
  if capacity = 0 then .error .invalidArgument else .ok { capacity }

def align (value alignment : BitVec 64) : BitVec 64 := (value + (alignment - 1)) &&& ~~~(alignment - 1)

def allocate (arena : ArenaAllocator) (size alignment : BitVec 64) :
    ArenaAllocator × Except ArenaError (BitVec 64) :=
  let current := align arena.offset alignment
  if arena.capacity < current + size then (arena, .error .badAlloc)
  else ({ arena with offset := current + size }, .ok current)

def reset (arena : ArenaAllocator) : ArenaAllocator := { arena with offset := 0 }

def used (arena : ArenaAllocator) : BitVec 64 := arena.offset

def remaining (arena : ArenaAllocator) : BitVec 64 := arena.capacity - arena.offset

end ArenaAllocator

/-- The least multiple of the alignment that is not below the value. -/
def roundUp (value alignment : Nat) : Nat := (value + (alignment - 1)) / alignment * alignment

theorem le_roundUp (value : Nat) {alignment : Nat} (positive : 0 < alignment) : value ≤ roundUp value alignment := by
  have quotient := Nat.div_add_mod (value + (alignment - 1)) alignment
  have remainder := Nat.mod_lt (value + (alignment - 1)) positive
  rw [Nat.mul_comm] at quotient
  unfold roundUp
  omega

section Words

variable {width exponent : Nat}

theorem toNat_twoPow_sub_one (bound : exponent < width) :
    (BitVec.twoPow width exponent - 1).toNat = 2 ^ exponent - 1 := by
  have small : 2 ^ exponent < 2 ^ width := Nat.pow_lt_pow_right (by omega) bound
  have positive : 0 < 2 ^ exponent := Nat.two_pow_pos exponent
  have one : (1 : BitVec width).toNat = 1 := Nat.mod_eq_of_lt (Nat.lt_of_le_of_lt positive small)
  have power : (BitVec.twoPow width exponent).toNat = 2 ^ exponent := by
    rw [BitVec.toNat_twoPow, Nat.mod_eq_of_lt small]
  rw [BitVec.toNat_sub_of_le, power, one]
  rw [BitVec.le_def, power, one]
  exact positive

theorem and_not_eq_shift (value : BitVec width) (bound : exponent < width) :
    value &&& ~~~(BitVec.twoPow width exponent - 1) = (value >>> exponent) <<< exponent := by
  apply BitVec.eq_of_getLsbD_eq
  intro i small
  have low : (BitVec.twoPow width exponent - 1).getLsbD i = decide (i < exponent) := by
    rw [BitVec.getLsbD, toNat_twoPow_sub_one bound, Nat.testBit_two_pow_sub_one]
  rw [BitVec.getLsbD_and, BitVec.getLsbD_not, BitVec.getLsbD_shiftLeft, BitVec.getLsbD_ushiftRight, low]
  by_cases cleared : i < exponent
  · simp [cleared]
  · have back : exponent + (i - exponent) = i := by omega
    simp [cleared, small, back]

theorem toNat_and_not (value : BitVec width) (bound : exponent < width) :
    (value &&& ~~~(BitVec.twoPow width exponent - 1)).toNat = value.toNat / 2 ^ exponent * 2 ^ exponent := by
  rw [and_not_eq_shift value bound, BitVec.toNat_shiftLeft, BitVec.toNat_ushiftRight, Nat.shiftLeft_eq,
    Nat.shiftRight_eq_div_pow, Nat.mod_eq_of_lt]
  exact Nat.lt_of_le_of_lt (Nat.div_mul_le_self _ _) value.isLt

theorem mod_div_mul (value : Nat) (bound : exponent ≤ width) :
    value % 2 ^ width / 2 ^ exponent * 2 ^ exponent = value / 2 ^ exponent * 2 ^ exponent % 2 ^ width := by
  obtain ⟨rest, rfl⟩ := Nat.exists_eq_add_of_le bound
  rw [Nat.pow_add, Nat.mod_mul_right_div_self, Nat.mul_comm (2 ^ exponent) (2 ^ rest), ← Nat.mul_mod_mul_right]

end Words

namespace ArenaAllocator

theorem toNat_align (value : BitVec 64) (alignment : Alignment) :
    (align value alignment.value).toNat = roundUp value.toNat (2 ^ alignment.exponent) % 2 ^ 64 := by
  unfold align roundUp Alignment.value
  rw [toNat_and_not _ alignment.bound, BitVec.toNat_add, toNat_twoPow_sub_one alignment.bound,
    mod_div_mul _ (Nat.le_of_lt alignment.bound)]

end ArenaAllocator

/-- What user code calls. -/
inductive ArenaCall where
  | allocate (size : BitVec 64) (alignment : Alignment)
  | reset
  deriving DecidableEq, Repr

/-- An arena, and the ranges it has returned since it was last reset. -/
structure ArenaRun where
  arena : ArenaAllocator
  live : List (Nat × Nat) := []

namespace ArenaRun

/-- The outcome of `allocate`. -/
def result (run : ArenaRun) (size : BitVec 64) (alignment : Alignment) : Except ArenaError (BitVec 64) :=
  (run.arena.allocate size alignment.value).2

def step (run : ArenaRun) : ArenaCall → ArenaRun
  | .allocate size alignment =>
      { arena := (run.arena.allocate size alignment.value).1
        live := match run.result size alignment with
          | .ok address => run.live ++ [(address.toNat, address.toNat + size.toNat)]
          | .error _ => run.live }
  | .reset => { arena := run.arena.reset, live := [] }

/-- The aligned offset plus the size, in exact arithmetic. -/
def exactEnd (run : ArenaRun) (size : BitVec 64) (alignment : Alignment) : Nat :=
  roundUp run.arena.offset.toNat (2 ^ alignment.exponent) + size.toNat

/-- What one call promises: it succeeds when the range fits, returns a range inside the
arena that meets no other, and leaves the arena alone when it throws. -/
structure Allocates (run : ArenaRun) (size : BitVec 64) (alignment : Alignment) : Prop where
  succeeds : (∃ address, run.result size alignment = .ok address) ↔
    run.exactEnd size alignment ≤ run.arena.capacity.toNat
  inside : ∀ address, run.result size alignment = .ok address →
    address.toNat + size.toNat ≤ run.arena.capacity.toNat ∧
      ∀ range ∈ run.live, ∀ byte, range.1 ≤ byte → byte < range.2 →
        ¬(address.toNat ≤ byte ∧ byte < address.toNat + size.toNat)
  unchanged : ∀ error, run.result size alignment = .error error → run.step (.allocate size alignment) = run

/-- `used` stays within the capacity, so `remaining` does not wrap. -/
structure Within (run : ArenaRun) : Prop where
  used : run.arena.used.toNat ≤ run.arena.capacity.toNat
  remaining : run.arena.remaining.toNat = run.arena.capacity.toNat - run.arena.used.toNat

/-- Every call of a run keeps its promise. -/
def Behaves (run : ArenaRun) : List ArenaCall → Prop
  | [] => run.Within
  | call :: rest => run.Within ∧
      (match call with
        | .allocate size alignment => run.Allocates size alignment
        | .reset => True) ∧
      (run.step call).Behaves rest

/-- The sum that the bounds check tests does not wrap to a value within the capacity. -/
def Fits (run : ArenaRun) : ArenaCall → Prop
  | .allocate size alignment =>
      run.exactEnd size alignment % 2 ^ 64 ≤ run.arena.capacity.toNat → run.exactEnd size alignment < 2 ^ 64
  | .reset => True

def AllFit (run : ArenaRun) : List ArenaCall → Prop
  | [] => True
  | call :: rest => run.Fits call ∧ (run.step call).AllFit rest

instance (run : ArenaRun) : (call : ArenaCall) → Decidable (run.Fits call)
  | .allocate size alignment => inferInstanceAs (Decidable
      (run.exactEnd size alignment % 2 ^ 64 ≤ run.arena.capacity.toNat → run.exactEnd size alignment < 2 ^ 64))
  | .reset => inferInstanceAs (Decidable True)

instance decidableAllFit : (run : ArenaRun) → (calls : List ArenaCall) → Decidable (run.AllFit calls)
  | _, [] => inferInstanceAs (Decidable True)
  | run, call :: rest =>
      have := decidableAllFit (run.step call) rest
      inferInstanceAs (Decidable (run.Fits call ∧ (run.step call).AllFit rest))

/-- The ranges in use end at or before the offset. -/
structure Sound (run : ArenaRun) : Prop where
  used : run.arena.offset.toNat ≤ run.arena.capacity.toNat
  before : ∀ range ∈ run.live, range.2 ≤ run.arena.offset.toNat

theorem Sound.within {run : ArenaRun} (sound : run.Sound) : run.Within := by
  refine ⟨sound.used, ?_⟩
  rw [ArenaAllocator.remaining, ArenaAllocator.used, BitVec.toNat_sub_of_le (BitVec.le_def.mpr sound.used)]

variable {run : ArenaRun} {size : BitVec 64} {alignment : Alignment}

theorem toNat_end (run : ArenaRun) (size : BitVec 64) (alignment : Alignment) :
    (ArenaAllocator.align run.arena.offset alignment.value + size).toNat = run.exactEnd size alignment % 2 ^ 64 := by
  rw [BitVec.toNat_add, ArenaAllocator.toNat_align, exactEnd, Nat.mod_add_mod]

theorem result_ok (fits : run.exactEnd size alignment % 2 ^ 64 ≤ run.arena.capacity.toNat) :
    run.arena.allocate size alignment.value =
      ({ run.arena with offset := ArenaAllocator.align run.arena.offset alignment.value + size },
        .ok (ArenaAllocator.align run.arena.offset alignment.value)) := by
  have room : ¬run.arena.capacity < ArenaAllocator.align run.arena.offset alignment.value + size := by
    rw [BitVec.lt_def, toNat_end]
    omega
  simp [ArenaAllocator.allocate, room]

theorem result_error (full : run.arena.capacity.toNat < run.exactEnd size alignment % 2 ^ 64) :
    run.arena.allocate size alignment.value = (run.arena, .error .badAlloc) := by
  have room : run.arena.capacity < ArenaAllocator.align run.arena.offset alignment.value + size := by
    rw [BitVec.lt_def, toNat_end]
    exact full
  simp [ArenaAllocator.allocate, room]

/-- A call that succeeds without wrapping takes the next free range. -/
theorem fitted (fits : run.exactEnd size alignment < 2 ^ 64) :
    run.arena.offset.toNat ≤ (ArenaAllocator.align run.arena.offset alignment.value).toNat ∧
      (ArenaAllocator.align run.arena.offset alignment.value).toNat + size.toNat = run.exactEnd size alignment := by
  have above : run.arena.offset.toNat ≤ roundUp run.arena.offset.toNat (2 ^ alignment.exponent) :=
    le_roundUp _ (Nat.two_pow_pos _)
  unfold exactEnd at fits ⊢
  rw [ArenaAllocator.toNat_align, Nat.mod_eq_of_lt (by omega)]
  exact ⟨above, rfl⟩

theorem Sound.allocates_iff (sound : run.Sound) :
    run.Allocates size alignment ↔ run.Fits (.allocate size alignment) := by
  have word : run.arena.capacity.toNat < 2 ^ 64 := run.arena.capacity.isLt
  constructor
  · intro allocates within
    have granted : ∃ address, run.result size alignment = .ok address :=
      ⟨_, congrArg Prod.snd (result_ok within)⟩
    have exact := allocates.succeeds.mp granted
    omega
  · intro fits
    -- The code compares the wrapped end with the capacity; only a wrap can make it differ from the exact end.
    by_cases within : run.exactEnd size alignment % 2 ^ 64 ≤ run.arena.capacity.toNat
    · have small : run.exactEnd size alignment < 2 ^ 64 := fits within
      obtain ⟨above, ends⟩ := fitted small
      have granted : run.result size alignment = .ok (ArenaAllocator.align run.arena.offset alignment.value) :=
        congrArg Prod.snd (result_ok within)
      rw [Nat.mod_eq_of_lt small] at within
      constructor
      · exact ⟨fun _ => within, fun _ => ⟨_, granted⟩⟩
      · intro address returned
        obtain rfl : ArenaAllocator.align run.arena.offset alignment.value = address :=
          Except.ok.inj (granted.symm.trans returned)
        refine ⟨ends.le.trans within, ?_⟩
        intro range member byte low high
        have before := sound.before range member
        omega
      · intro error thrown
        cases granted.symm.trans thrown
    · have thrown : run.arena.allocate size alignment.value = (run.arena, .error .badAlloc) :=
        result_error (by omega)
      have failed : run.result size alignment = .error .badAlloc := congrArg Prod.snd thrown
      constructor
      · constructor
        · rintro ⟨address, returned⟩
          cases failed.symm.trans returned
        · intro exact
          rw [Nat.mod_eq_of_lt (by omega)] at within
          exact absurd exact within
      · intro address returned
        cases failed.symm.trans returned
      · intro error _
        simp [step, result, thrown]

theorem Sound.step (sound : run.Sound) {call : ArenaCall} (fits : run.Fits call) : (run.step call).Sound := by
  cases call with
  | reset => exact ⟨Nat.zero_le _, fun range member => absurd member List.not_mem_nil⟩
  | allocate size alignment =>
      by_cases within : run.exactEnd size alignment % 2 ^ 64 ≤ run.arena.capacity.toNat
      · have small : run.exactEnd size alignment < 2 ^ 64 := fits within
        obtain ⟨above, ends⟩ := fitted small
        have offset : (run.step (.allocate size alignment)).arena.offset.toNat = run.exactEnd size alignment := by
          simp only [ArenaRun.step, result_ok within]
          rw [toNat_end, Nat.mod_eq_of_lt small]
        have capacity : (run.step (.allocate size alignment)).arena.capacity = run.arena.capacity := by
          simp only [ArenaRun.step, result_ok within]
        constructor
        · rw [offset, capacity, ← Nat.mod_eq_of_lt small]
          exact within
        · intro range member
          rw [offset]
          simp only [ArenaRun.step, result, result_ok within] at member
          rcases List.mem_append.mp member with old | new
          · have before := sound.before range old
            omega
          · rw [List.mem_singleton.mp new]
            exact ends.le
      · have thrown : run.arena.allocate size alignment.value = (run.arena, .error .badAlloc) :=
          result_error (by omega)
        have same : run.step (.allocate size alignment) = run := by
          simp [ArenaRun.step, result, thrown]
        rw [same]
        exact sound

theorem Sound.behaves_iff (sound : run.Sound) (calls : List ArenaCall) : run.Behaves calls ↔ run.AllFit calls := by
  induction calls generalizing run with
  | nil => exact ⟨fun _ => trivial, fun _ => sound.within⟩
  | cons call rest ih =>
      have here : (match call with
          | .allocate size alignment => run.Allocates size alignment
          | .reset => True) ↔ run.Fits call := by
        cases call with
        | allocate size alignment => exact sound.allocates_iff
        | reset => exact Iff.rfl
      constructor
      · rintro ⟨-, kept, later⟩
        have fits := here.mp kept
        exact ⟨fits, (ih (sound.step fits)).mp later⟩
      · rintro ⟨fits, later⟩
        exact ⟨sound.within, here.mpr fits, (ih (sound.step fits)).mpr later⟩

end ArenaRun

/-- Every run of an arena that was constructed. -/
theorem arena_behaves_iff {capacity : BitVec 64} {arena : ArenaAllocator}
    (made : ArenaAllocator.make capacity = .ok arena) (calls : List ArenaCall) :
    ArenaRun.Behaves { arena } calls ↔ ArenaRun.AllFit { arena } calls := by
  have fresh : arena.offset = 0 := by
    unfold ArenaAllocator.make at made
    split at made
    · cases made
    · cases made
      rfl
  apply ArenaRun.Sound.behaves_iff
  constructor
  · simp [fresh]
  · intro range member
    cases member

/-- Two allocations, one that does not fit, and a third after `reset`. -/
theorem arena_behaves_small : ArenaRun.Behaves { arena := { capacity := 256 } }
    [.allocate 65 ⟨4, by decide⟩, .allocate 32 ⟨3, by decide⟩, .allocate 512 ⟨0, by decide⟩, .reset,
      .allocate 256 ⟨63, by decide⟩] :=
  (arena_behaves_iff (rfl : ArenaAllocator.make 256 = .ok { capacity := 256 }) _).mpr (by decide)

/-- The sum of the offset 16 and the size `2 ^ 64 - 8` wraps to 8: the call succeeds, and the
next one returns an address inside the first range. -/
theorem arena_wraps :
    let run : ArenaRun := { arena := { capacity := 64 } }
    let calls : List ArenaCall := [.allocate 16 ⟨0, by decide⟩, .allocate (-8) ⟨0, by decide⟩]
    ¬run.Behaves calls ∧ (calls.foldl ArenaRun.step run).live = [(0, 16), (16, 2 ^ 64 + 8)] ∧
      (calls.foldl ArenaRun.step run).arena.used = 8 ∧
      (calls.foldl ArenaRun.step run).result 8 ⟨0, by decide⟩ = .ok 8 := by
  refine ⟨?_, by decide, by decide, by decide⟩
  intro behaves
  have sound : ArenaRun.Sound { arena := { capacity := 64 } } :=
    ⟨by decide, fun range member => absurd member List.not_mem_nil⟩
  exact absurd ((sound.behaves_iff _).mp behaves) (by decide)

end SoulLib.Memory
