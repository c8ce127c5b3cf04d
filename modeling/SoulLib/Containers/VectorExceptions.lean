import SoulLib.Containers.VectorRuns

/-! Elements whose copies may throw.

Elements that cannot be moved without an exception are copied when the vector relocates
them. A copy is known by the slot it is made for; an exception leaves the vector and the
heap as they are when it is thrown.
-/

set_option autoImplicit false

namespace SoulLib.Containers

open SoulLib.Memory (Heap BadAlloc MemoryManager)
open SoulVector (Result Holds)

namespace Cells

variable {T E : Type} (throws : Nat → Option E)

/-- The loop of `reallocate`, with the position and the target when a copy throws. -/
def constructRange (source target : Cells T) (first : Nat) : Nat → Except (E × Nat × Cells T) (Cells T)
  | 0 => .ok target
  | count + 1 =>
      match throws first with
      | some exception => .error (exception, first, target)
      | none => constructRange source (target.set first (source first)) (first + 1) count

/-- The loop of `move_to_small`, which destroys each element when it has been copied. -/
def transferRange (source target : Cells T) (first : Nat) :
    Nat → Except (E × Cells T × Cells T) (Cells T × Cells T)
  | 0 => .ok (source, target)
  | count + 1 =>
      match throws first with
      | some exception => .error (exception, source, target)
      | none => transferRange (source.set first none) (target.set first (source first)) (first + 1) count

end Cells

/-- What was being done when an exception was thrown: the elements were relocated by `reallocate`
or `move_to_small`, or the inserted one was constructed. -/
inductive Origin where
  | relocation
  | construction
  deriving DecidableEq, Repr

structure Failure (T E : Type) where
  origin : Origin
  thrown : BadAlloc ⊕ E
  left : Result T

/-- The calls that relocate elements. -/
inductive RelocatingCall (T : Type) where
  | reserve (newCapacity : Nat)
  | insert (value : Argument T)
  | shrinkToFit

namespace ThrowingVector

variable {T E : Type} (platform : Platform T) (throws : Nat → Option E)

def moveToSmall (this : SoulVector T) (heap : Heap T) : Except (Failure T E) (Result T) :=
  match this.data with
  | .small => .ok (this, heap)
  | .heap address =>
      match Cells.transferRange throws (heap.cells address) this.smallStorage 0 this.size with
      | .error (exception, source, destination) =>
          -- `data_`, `size_` and `capacity_` are written only after the loop.
          .error ⟨.relocation, .inr exception, ({ this with smallStorage := destination }, heap.setCells address source)⟩
      | .ok (source, destination) =>
          .ok ({ this with data := .small, capacity := platform.smallCapacity, smallStorage := destination },
            (heap.setCells address source).deallocate this.manager address)

def reallocate (this : SoulVector T) (heap : Heap T) (requestedCapacity : Nat) : Except (Failure T E) (Result T) :=
  let targetCapacity :=
    if requestedCapacity ≤ platform.smallCapacity then platform.smallCapacity else requestedCapacity
  if targetCapacity ≤ platform.smallCapacity then
    if this.usingSmallStorage then .ok (this, heap) else moveToSmall platform throws this heap
  else
    match heap.allocate platform.new platform.sizeof vectorTag this.manager targetCapacity with
    | .error refused => .error ⟨.relocation, .inl refused, (this, heap)⟩
    | .ok (newData, heap) =>
        match Cells.constructRange throws (this.elements heap) (heap.cells newData) 0 this.size with
        | .error (exception, i, cells) =>
            -- The catch block: the copies made so far and their block are given up.
            let heap := heap.setCells newData (cells.destroyRange 0 i)
            .error ⟨.relocation, .inr exception, (this, heap.deallocate this.manager newData)⟩
        | .ok cells =>
            -- Nothing throws from here on.
            let (this, heap) := this.destroyRange (heap.setCells newData cells) 0 this.size
            .ok ({ this with data := .heap newData, capacity := targetCapacity }, this.deallocateData heap)

def emplaceBackInternal (this : SoulVector T) (heap : Heap T) (value : Argument T) :
    Except (Failure T E) (Result T) := do
  let desired := if this.capacity = 0 then platform.smallCapacity else this.capacity * 2 % 2 ^ 64
  let (this, heap) ← (if this.size = this.capacity then reallocate platform throws this heap desired
    else .ok (this, heap) : Except (Failure T E) (Result T))
  -- The element that is inserted is copied last.
  match throws this.size with
  | some exception => .error ⟨.construction, .inr exception, (this, heap)⟩
  | none =>
      let (this, heap) := this.setElements heap ((this.elements heap).set this.size (value.read this heap))
      .ok ({ this with size := this.size + 1 }, heap)

def reserve (this : SoulVector T) (heap : Heap T) (newCapacity : Nat) : Except (Failure T E) (Result T) :=
  if newCapacity ≤ this.capacity then .ok (this, heap) else reallocate platform throws this heap newCapacity

def shrinkToFit (this : SoulVector T) (heap : Heap T) : Except (Failure T E) (Result T) :=
  if this.size ≤ platform.smallCapacity && !this.usingSmallStorage then moveToSmall platform throws this heap
  else if this.size < this.capacity && !this.usingSmallStorage then reallocate platform throws this heap this.size
  else .ok (this, heap)

def run (this : SoulVector T) (heap : Heap T) : RelocatingCall T → Except (Failure T E) (Result T)
  | .reserve newCapacity => reserve platform throws this heap newCapacity
  | .insert value => emplaceBackInternal platform throws this heap value
  | .shrinkToFit => shrinkToFit platform throws this heap

end ThrowingVector

/-- The elements of a vector, in a buffer that is live. -/
structure Intact {T : Type} (platform : Platform T) (heap : Heap T) (this : SoulVector T) (list : List T) : Prop where
  size_eq : this.size = list.length
  elements_eq : this.elements heap = Cells.ofList list
  smallCapacity_le : platform.smallCapacity ≤ this.capacity
  bytes_lt : list.length * platform.sizeof < 2 ^ 63
  live : ∀ address, this.data = .heap address → address ∈ heap.live

theorem Intact.of_holds {T : Type} {platform : Platform T} {heap : Heap T} {this : SoulVector T} {list : List T}
    (holds : Holds platform heap this list) : Intact platform heap this list where
  size_eq := holds.size_eq
  elements_eq := holds.elements_eq
  smallCapacity_le := holds.smallCapacity_le
  bytes_lt := Nat.lt_of_le_of_lt (Nat.mul_le_mul_right _ holds.size_le) holds.bytes_lt
  live := by
    rintro address data
    cases holds with
    | inline fits => cases data
    | heap fits large bytes live cells =>
        cases data
        exact live

/-- What a throwing call leaves is what it was called on. -/
structure Unchanged {T : Type} (before after : Result T) : Prop where
  size : after.1.size = before.1.size
  capacity : after.1.capacity = before.1.capacity
  data : after.1.data = before.1.data
  getAll : after.1.getAll after.2 = before.1.getAll before.2
  slots : ∀ index < after.1.size, (after.1.elements after.2 index).isSome = true
  live : after.2.live = before.2.live
  registered : ∀ manager address found, (after.2.managers manager).info address = some found →
    (before.2.managers manager).info address = some found

/-- A call that moves elements back into the small storage throws at the first of them, if at all. -/
def RelocatingCall.Safe {T E : Type} (platform : Platform T) (throws : Nat → Option E) (this : SoulVector T) :
    RelocatingCall T → Prop
  | .shrinkToFit => this.size ≤ platform.smallCapacity → this.usingSmallStorage = false → (throws 0).isSome = true
  | .reserve _ | .insert _ => True

section Loops

variable {T E : Type} {throws : Nat → Option E} {source target source' target' : Cells T} {exception : E}
  {first count : Nat}

theorem Cells.transferRange_front {index : Nat} (front : index < first)
    (thrown : Cells.transferRange throws source target first count = .error (exception, source', target')) :
    source' index = source index := by
  induction count generalizing source target first with
  | zero => cases thrown
  | succ count ih =>
      rw [Cells.transferRange] at thrown
      split at thrown
      · cases thrown
        rfl
      · rw [ih (Nat.lt_succ_of_lt front) thrown, Cells.set, if_neg (Nat.ne_of_lt front)]

theorem Cells.transferRange_cases
    (thrown : Cells.transferRange throws source target first count = .error (exception, source', target')) :
    0 < count ∧ ((throws first).isSome = true ∧ source' = source ∨ throws first = none ∧ source' first = none) := by
  cases count with
  | zero => cases thrown
  | succ count =>
      refine ⟨Nat.succ_pos _, ?_⟩
      rw [Cells.transferRange] at thrown
      split at thrown
      · next throwing =>
          cases thrown
          rw [throwing]
          exact .inl ⟨rfl, rfl⟩
      · next quiet =>
          refine .inr ⟨quiet, ?_⟩
          rw [Cells.transferRange_front (Nat.lt_succ_self first) thrown, Cells.set, if_pos rfl]

end Loops

section Quiet

variable {T E : Type} {platform : Platform T} {heap : Heap T} {this : SoulVector T} {list : List T}

theorem Cells.set_map_id (source : Cells T) (index : Nat) : source.set index ((source index).map id) = source := by
  funext other
  rw [Cells.set, Option.map_id_fun, id]
  split
  · next same => rw [same]
  · rfl

theorem Cells.constructRange_quiet (source target : Cells T) (first count : Nat) :
    Cells.constructRange (fun _ => (none : Option E)) source target first count =
      .ok (Cells.moveRange id source target first count).2 := by
  induction count generalizing target first with
  | zero => rfl
  | succ count ih =>
      rw [Cells.moveRange, Cells.set_map_id]
      exact ih _ _

theorem Cells.moveRange_id (source target : Cells T) (first count : Nat) :
    (Cells.moveRange id source target first count).1 = source := by
  induction count generalizing target first with
  | zero => rfl
  | succ count ih =>
      rw [Cells.moveRange, Cells.set_map_id]
      exact ih _ _

theorem Cells.transferRange_quiet (source target : Cells T) (first count : Nat) :
    Cells.transferRange (fun _ => (none : Option E)) source target first count =
      .ok (Cells.relocateRange id source target first count) := by
  induction count generalizing source target first with
  | zero => rfl
  | succ count ih =>
      rw [Cells.relocateRange, Cells.set_map_id]
      exact ih _ _ _

theorem moveToSmall_quiet (copied : platform.moved = id) :
    ThrowingVector.moveToSmall platform (fun _ => (none : Option E)) this heap =
      .ok (SoulVector.moveToSmall platform this heap) := by
  unfold ThrowingVector.moveToSmall SoulVector.moveToSmall
  cases this.data with
  | small => rfl
  | heap address =>
      dsimp only
      rw [Cells.transferRange_quiet, copied]

theorem Intact.reallocate_quiet (intact : Intact platform heap this list) (copied : platform.moved = id)
    (requested : Nat) :
    (ThrowingVector.reallocate platform (fun _ => (none : Option E)) this heap requested).toOption =
      (SoulVector.reallocate platform this heap requested).toOption := by
  unfold ThrowingVector.reallocate SoulVector.reallocate
  by_cases small : requested ≤ platform.smallCapacity
  · rw [if_pos small, if_pos (Nat.le_refl _), if_pos (Nat.le_refl _), moveToSmall_quiet copied]
    split
    · rfl
    · rfl
  · rw [if_neg small, if_neg small, if_neg small]
    cases allocated : heap.allocate platform.new platform.sizeof vectorTag this.manager requested with
    | error refused => rfl
    | ok got =>
        obtain ⟨newData, heap₁⟩ := got
        obtain ⟨-, fresh, -, -⟩ := Heap.allocate_eq_ok allocated
        -- Copying leaves the old buffer as it is, so writing it back changes nothing.
        have same : ∀ cells, this.setElements (heap₁.setCells newData cells) (this.elements heap₁) =
            (this, heap₁.setCells newData cells) := by
          intro cells
          unfold SoulVector.setElements SoulVector.elements
          cases data : this.data with
          | small => simp only [← data]
          | heap address =>
              have differs : address ≠ newData := by
                rintro rfl
                exact fresh (intact.live address data)
              simp only [Heap.setCells, Function.update_comm differs.symm, Function.update_eq_self]
        dsimp only [bind, Except.bind]
        rw [Cells.constructRange_quiet, copied, Cells.moveRange_id, same]
        rfl

theorem toOption_bind {ε α β : Type} (first : Except ε α) (next : α → Except ε β) :
    (first >>= next).toOption = first.toOption.bind fun value => (next value).toOption := by
  cases first with
  | error failure => rfl
  | ok value => rfl

theorem Intact.run_quiet (intact : Intact platform heap this list) (copied : platform.moved = id)
    (call : RelocatingCall T) :
    (ThrowingVector.run platform (fun _ => (none : Option E)) this heap call).toOption =
      match call with
      | .reserve newCapacity => (SoulVector.reserve platform this heap newCapacity).toOption
      | .insert value => (SoulVector.emplaceBackInternal platform this heap value).toOption
      | .shrinkToFit => (SoulVector.shrinkToFit platform this heap).toOption := by
  cases call with
  | reserve newCapacity =>
      simp only [ThrowingVector.run, ThrowingVector.reserve, SoulVector.reserve]
      split
      · rfl
      · exact intact.reallocate_quiet copied newCapacity
  | shrinkToFit =>
      simp only [ThrowingVector.run, ThrowingVector.shrinkToFit, SoulVector.shrinkToFit]
      split
      · rw [moveToSmall_quiet copied]
        rfl
      · split
        · exact intact.reallocate_quiet copied this.size
        · rfl
  | insert value =>
      simp only [ThrowingVector.run, ThrowingVector.emplaceBackInternal, SoulVector.emplaceBackInternal]
      rw [toOption_bind, toOption_bind]
      by_cases full : this.size = this.capacity
      · rw [if_pos full, if_pos full, intact.reallocate_quiet copied]
        rfl
      · rw [if_neg full, if_neg full]
        rfl

end Quiet

section Failures

variable {T E : Type} {platform : Platform T} {throws : Nat → Option E} {heap : Heap T} {this : SoulVector T}
  {list : List T} {failure : Failure T E}

theorem Intact.unchanged (intact : Intact platform heap this list) : Unchanged (this, heap) (this, heap) where
  size := rfl
  capacity := rfl
  data := rfl
  getAll := rfl
  slots := by
    intro index within
    rw [intact.size_eq] at within
    rw [intact.elements_eq, Cells.ofList, List.getElem?_eq_getElem within]
    rfl
  live := rfl
  registered := fun _ _ _ found => found

/-- A block that is filled and released again leaves no trace. -/
theorem Intact.released {heap₁ : Heap T} {n ptr : Nat} (intact : Intact platform heap this list)
    (allocated : heap.allocate platform.new platform.sizeof vectorTag this.manager n = .ok (ptr, heap₁))
    (cells : Cells T) : Unchanged (this, heap) (this, (heap₁.setCells ptr cells).deallocate this.manager ptr) := by
  obtain ⟨-, fresh, live, blank⟩ := Heap.allocate_eq_ok allocated
  have nonnull : ptr ≠ 0 := by
    simp only [Heap.allocate] at allocated
    split at allocated
    · cases allocated
    · cases allocated
      exact platform.new.nonnull _ _
  -- The block is a new one, so the vector's own buffer was never written.
  have apart : this.elements ((heap₁.setCells ptr cells).deallocate this.manager ptr) = this.elements heap := by
    unfold SoulVector.elements
    cases data : this.data with
    | small => rfl
    | heap address =>
        have differs : address ≠ ptr := by
          rintro rfl
          exact fresh (intact.live address data)
        dsimp only
        rw [(Heap.deallocate_of_ne differs).1, Heap.setCells_cells, Function.update_of_ne differs, blank,
          Function.update_of_ne differs]
  refine ⟨rfl, rfl, rfl, ?_, ?_, ?_, ?_⟩
  · rw [SoulVector.getAll, SoulVector.getAll, apart]
  · intro index within
    rw [apart]
    exact intact.unchanged.slots index within
  · rw [Heap.deallocate, if_neg nonnull]
    dsimp only
    rw [Heap.setCells_live, live, List.erase_cons_head]
  · intro holder address found known
    rw [Heap.deallocate, if_neg nonnull] at known
    dsimp only at known
    rw [MemoryManager.info_update_unregister] at known
    split at known
    · cases known
    · next elsewhere =>
        simp only [Heap.allocate] at allocated
        split at allocated
        · cases allocated
        · cases allocated
          simp only [Heap.setCells, MemoryManager.info_update_register, if_neg elsewhere] at known
          exact known

variable {requested : Nat}

theorem Intact.reallocate_cases (intact : Intact platform heap this list) (large : platform.smallCapacity < requested) :
    (∃ grown, ThrowingVector.reallocate platform throws this heap requested = .ok grown ∧
      grown.1.size = this.size ∧ grown.1.capacity = requested) ∨
    ∃ failure : Failure T E, ThrowingVector.reallocate platform throws this heap requested = .error failure ∧
      failure.origin = .relocation ∧ Unchanged (this, heap) failure.left := by
  unfold ThrowingVector.reallocate
  rw [if_neg (Nat.not_le.mpr large), if_neg (Nat.not_le.mpr large)]
  cases allocated : heap.allocate platform.new platform.sizeof vectorTag this.manager requested with
  | error refused => exact .inr ⟨_, rfl, rfl, intact.unchanged⟩
  | ok got =>
      obtain ⟨newData, heap₁⟩ := got
      dsimp only
      cases Cells.constructRange throws (this.elements heap₁) (heap₁.cells newData) 0 this.size with
      | error thrown => exact .inr ⟨_, rfl, rfl, intact.released allocated _⟩
      | ok cells =>
          refine .inl ⟨_, rfl, ?_, rfl⟩
          exact (SoulVector.setElements_fields _ _ _).1

theorem Intact.moveToSmall_cases (intact : Intact platform heap this list)
    (thrown : ThrowingVector.moveToSmall platform throws this heap = .error failure) :
    failure.origin = .relocation ∧ (Unchanged (this, heap) failure.left ↔ (throws 0).isSome = true) := by
  obtain ⟨manager, data, size, capacity, smallStorage⟩ := this
  cases data with
  | small => cases thrown
  | heap address =>
      simp only [ThrowingVector.moveToSmall] at thrown
      split at thrown
      · next exception source destination throwing =>
          cases thrown
          refine ⟨rfl, ?_⟩
          have left : (SoulVector.mk manager (.heap address) size capacity destination).elements
              (heap.setCells address source) = source := Function.update_self _ _ _
          -- Either nothing was copied, or slot 0 was destroyed.
          obtain ⟨nonempty, ⟨early, rfl⟩ | ⟨quiet, gone⟩⟩ := Cells.transferRange_cases throwing
          · refine ⟨fun _ => early, fun _ => ⟨rfl, rfl, rfl, ?_, ?_, rfl, fun _ _ _ found => found⟩⟩
            · rw [SoulVector.getAll, SoulVector.getAll, left]
              rfl
            · rw [left]
              exact intact.unchanged.slots
          · constructor
            · intro unchanged
              have slot := unchanged.slots 0 nonempty
              rw [left, gone] at slot
              cases slot
            · rw [quiet]
              rintro ⟨⟩
      · cases thrown

theorem Intact.reallocate_unchanged (intact : Intact platform heap this list) (large : platform.smallCapacity < requested)
    (thrown : ThrowingVector.reallocate platform throws this heap requested = .error failure) :
    failure.origin = .relocation ∧ Unchanged (this, heap) failure.left := by
  rcases intact.reallocate_cases large with ⟨_, returned, -⟩ | ⟨_, raised, known⟩
  · rw [returned] at thrown
    cases thrown
  · rw [raised] at thrown
    cases thrown
    exact known

theorem Intact.reserve_unchanged {newCapacity : Nat} (intact : Intact platform heap this list)
    (thrown : ThrowingVector.reserve platform throws this heap newCapacity = .error failure) :
    failure.origin = .relocation ∧ Unchanged (this, heap) failure.left := by
  unfold ThrowingVector.reserve at thrown
  split at thrown
  · cases thrown
  · have small := intact.smallCapacity_le
    exact intact.reallocate_unchanged (by omega) thrown

theorem Intact.shrinkToFit_unchanged_iff (intact : Intact platform heap this list)
    (thrown : ThrowingVector.shrinkToFit platform throws this heap = .error failure) :
    failure.origin = .relocation ∧ (Unchanged (this, heap) failure.left ↔
      (this.size ≤ platform.smallCapacity → this.usingSmallStorage = false → (throws 0).isSome = true)) := by
  simp only [ThrowingVector.shrinkToFit, Bool.and_eq_true, decide_eq_true_eq, Bool.not_eq_true'] at thrown
  split at thrown
  · next fits =>
      obtain ⟨origin, exactly⟩ := intact.moveToSmall_cases thrown
      refine ⟨origin, exactly.trans ?_⟩
      exact ⟨fun early _ _ => early, fun safe => safe fits.1 fits.2⟩
  · next exceeds =>
      split at thrown
      · next less =>
          have large := Nat.not_le.mp fun within => exceeds ⟨within, less.2⟩
          obtain ⟨origin, unchanged⟩ := intact.reallocate_unchanged large thrown
          exact ⟨origin, fun _ within inHeap => absurd ⟨within, inHeap⟩ exceeds, fun _ => unchanged⟩
      · cases thrown

/-- The copy of the new element is the last one, and a full vector has grown by then. -/
theorem Intact.emplaceBackInternal_unchanged {value : Argument T} (intact : Intact platform heap this list)
    (thrown : ThrowingVector.emplaceBackInternal platform throws this heap value = .error failure) :
    failure.origin = .relocation ∧ Unchanged (this, heap) failure.left ∨
      failure.origin = .construction ∧ (Unchanged (this, heap) failure.left ↔ this.size ≠ this.capacity) := by
  simp only [ThrowingVector.emplaceBackInternal] at thrown
  by_cases full : this.size = this.capacity
  · obtain ⟨desired, large⟩ := SoulVector.desired_eq full intact.smallCapacity_le
      (by rw [intact.size_eq]; exact intact.bytes_lt)
    rw [if_pos full, desired] at thrown
    rcases intact.reallocate_cases large with ⟨⟨grown, heap₁⟩, returned, size, capacity⟩ | ⟨_, raised, known⟩
    · rw [returned] at thrown
      simp only [bind, Except.bind] at thrown
      split at thrown
      · cases thrown
        refine .inr ⟨rfl, ?_, fun room => absurd full room⟩
        -- The capacity has doubled by then.
        intro unchanged
        have same := unchanged.capacity
        have positive := platform.smallCapacity_pos
        dsimp only at same capacity
        omega
      · cases thrown
    · rw [raised] at thrown
      cases thrown
      exact .inl known
  · rw [if_neg full] at thrown
    simp only [bind, Except.bind] at thrown
    split at thrown
    · cases thrown
      exact .inr ⟨rfl, fun _ => full, fun _ => intact.unchanged⟩
    · cases thrown

/-- What a call that throws has changed: in relocating elements nothing, unless it moves them back into
the small storage and gets beyond the first one; in constructing the new element the capacity, if
the vector was full. -/
theorem run_unchanged_iff {call : RelocatingCall T} (intact : Intact platform heap this list)
    (thrown : ThrowingVector.run platform throws this heap call = .error failure) :
    (failure.origin = .relocation → (Unchanged (this, heap) failure.left ↔ call.Safe platform throws this)) ∧
      (failure.origin = .construction → (Unchanged (this, heap) failure.left ↔ this.size ≠ this.capacity)) := by
  cases call with
  | reserve newCapacity =>
      obtain ⟨origin, unchanged⟩ := intact.reserve_unchanged thrown
      rw [origin]
      exact ⟨fun _ => ⟨fun _ => trivial, fun _ => unchanged⟩, Origin.noConfusion⟩
  | shrinkToFit =>
      obtain ⟨origin, exactly⟩ := intact.shrinkToFit_unchanged_iff thrown
      rw [origin]
      exact ⟨fun _ => exactly, Origin.noConfusion⟩
  | insert value =>
      rcases intact.emplaceBackInternal_unchanged thrown with ⟨origin, unchanged⟩ | ⟨origin, exactly⟩
      · rw [origin]
        exact ⟨fun _ => ⟨fun _ => trivial, fun _ => unchanged⟩, Origin.noConfusion⟩
      · rw [origin]
        exact ⟨Origin.noConfusion, fun _ => exactly⟩

end Failures

/-- `SoulVector<T, 2>` for strings without a move constructor. -/
def copiedStrings : Platform (List Char) := { Vectors.strings with moved := id }

/-- Two strings in a block that was reserved for four. -/
def reservedForFour : Result (List Char) :=
  ({ manager := 0, data := .heap 1, size := 2, capacity := 4 },
    { live := [1]
      cells := Function.update (fun _ => Cells.empty) 1 (Cells.ofList [['a'], ['b']])
      managers := Function.update (fun _ => {}) 0 (({} : MemoryManager).registerAllocation 1 128 vectorTag)
      calls := 1 })

theorem reservedForFour_intact : Intact copiedStrings reservedForFour.2 reservedForFour.1 [['a'], ['b']] :=
  .of_holds (@Holds.heap _ copiedStrings reservedForFour.2 0 1 4 [['a'], ['b']] (by decide) (by decide) (by decide)
    (by decide) rfl)

/-- The copy for one slot throws. -/
def throwsAt (slot : Nat) : Nat → Option Unit := fun other => if other = slot then some () else none

/-- Growing throws at the second string. -/
theorem run_unchanged_iff_reserve : ∃ failure,
    ThrowingVector.run copiedStrings (throwsAt 1) reservedForFour.1 reservedForFour.2 (.reserve 8) = .error failure ∧
      failure.left.2.releases.length = 1 ∧ Unchanged reservedForFour failure.left := by
  refine ⟨_, rfl, rfl, ?_⟩
  have exactly := run_unchanged_iff reservedForFour_intact
    (rfl : ThrowingVector.run copiedStrings (throwsAt 1) reservedForFour.1 reservedForFour.2 (.reserve 8) = .error _)
  exact (exactly.1 rfl).mpr trivial

/-- Going back into the small storage throws at the second string, and the first one is gone. -/
theorem shrinkToFit_half_moves : ∃ failure,
    ThrowingVector.run copiedStrings (throwsAt 1) reservedForFour.1 reservedForFour.2 .shrinkToFit = .error failure ∧
      failure.origin = .relocation ∧ failure.left.1.size = 2 ∧ failure.left.1.elements failure.left.2 0 = none ∧
      ¬ Unchanged reservedForFour failure.left := by
  refine ⟨_, rfl, rfl, rfl, rfl, ?_⟩
  intro unchanged
  have slot := unchanged.slots 0 (by decide)
  cases slot

end SoulLib.Containers
