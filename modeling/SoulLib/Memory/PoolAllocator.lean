import SoulLib.Memory.ArenaAllocator
import SoulLib.Memory.MemoryManager
import SoulLib.Semantics.LinkedList
import SoulLib.Semantics.Runs

/-! The pool allocator.

Its free list is threaded through the blocks that nobody holds. Of the memory only
the words at the starts of blocks are kept, where a free block has its `next`. A
block that was handed out holds whatever its owner wrote.
-/

set_option autoImplicit false

namespace SoulLib.Memory

open SoulLib.Semantics (System Linked)

/-- What the template is instantiated with. -/
structure PoolTemplate where
  sizeOf : Nat
  alignOf : Nat
  blockCount : Nat
  alignment : Nat
  sizeOf_lt : sizeOf < 2 ^ 63
  alignOf_pos : 0 < alignOf
  blockCount_pos : 0 < blockCount
  blockCount_lt : blockCount < 2 ^ 64
  alignment_ge : alignOf ≤ alignment
  alignment_le : alignment ≤ 2 ^ 63

namespace PoolTemplate

variable (template : PoolTemplate)

def blockStride : Nat :=
  let required := max template.sizeOf 8
  (required + template.alignment - 1) % 2 ^ 64 / template.alignment * template.alignment % 2 ^ 64

def totalSize : Nat := template.blockStride * template.blockCount % 2 ^ 64

end PoolTemplate

structure PoolAllocator (template : PoolTemplate) where
  tag : MemoryTag
  memoryBlock : Nat
  /-- The `next` of the free node at an address. -/
  next : Nat → Option Nat
  freeList : Option Nat := none
  available : Nat := 0

namespace PoolAllocator

variable {template : PoolTemplate} (pool : PoolAllocator template)

def link (node : Nat) : PoolAllocator template :=
  { pool with next := Function.update pool.next node pool.freeList, freeList := some node }

def buildFreeList (start stride : Nat) : PoolAllocator template :=
  (List.range template.blockCount).foldl (fun pool i => pool.link (start + i * stride))
    { pool with freeList := none, available := template.blockCount }

/-- The constructor, when `operator new[]` returns `memoryBlock`. It has no meaning
when a node is written outside of the memory that was asked for. -/
def allocatePool (template : PoolTemplate) (manager : MemoryManager) (tag : MemoryTag) (memoryBlock : Nat)
    (next : Nat → Option Nat) : Option (PoolAllocator template × MemoryManager) :=
  if ∀ i < template.blockCount, i * template.blockStride + 8 ≤ template.totalSize then
    some (buildFreeList { tag, memoryBlock, next } memoryBlock template.blockStride,
      manager.registerAllocation memoryBlock template.totalSize tag)
  else none

def allocate : PoolAllocator template × Option Nat :=
  match pool.freeList with
  | none => (pool, none)
  | some node =>
      ({ pool with freeList := pool.next node, available := (pool.available + (2 ^ 64 - 1)) % 2 ^ 64 }, some node)

def deallocate (ptr : Option Nat) : PoolAllocator template :=
  match ptr with
  | none => pool
  | some node => { pool.link node with available := (pool.available + 1) % 2 ^ 64 }

def reset : PoolAllocator template := pool.buildFreeList pool.memoryBlock template.blockStride

def capacity (_ : PoolAllocator template) : Nat := template.blockCount

end PoolAllocator

namespace PoolTemplate

variable (template : PoolTemplate)

theorem alignment_pos : 0 < template.alignment := Nat.lt_of_lt_of_le template.alignOf_pos template.alignment_ge

/-- Neither the rounding nor its result wraps. -/
theorem blockStride_eq : template.blockStride = roundUp (max template.sizeOf 8) template.alignment := by
  have size := template.sizeOf_lt
  have positive := template.alignment_pos
  have small := template.alignment_le
  have below := Nat.div_mul_le_self (max template.sizeOf 8 + (template.alignment - 1)) template.alignment
  have sum : max template.sizeOf 8 + (template.alignment - 1) < 2 ^ 64 := by omega
  rw [blockStride, roundUp, Nat.add_sub_assoc positive, Nat.mod_eq_of_lt sum, Nat.mod_eq_of_lt (Nat.lt_of_le_of_lt below sum)]

theorem sizeOf_le_blockStride : template.sizeOf ≤ template.blockStride := by
  rw [blockStride_eq]
  exact Nat.le_trans (Nat.le_max_left _ _) (le_roundUp _ template.alignment_pos)

theorem node_le_blockStride : 8 ≤ template.blockStride := by
  rw [blockStride_eq]
  exact Nat.le_trans (Nat.le_max_right _ _) (le_roundUp _ template.alignment_pos)

theorem blockStride_lt : template.blockStride < 2 ^ 64 := Nat.mod_lt _ (Nat.two_pow_pos 64)

theorem nodes_inside_iff : (∀ i < template.blockCount, i * template.blockStride + 8 ≤ template.totalSize) ↔
    template.blockStride * template.blockCount < 2 ^ 64 := by
  have count := template.blockCount_pos
  have node := template.node_le_blockStride
  constructor
  · intro inside
    have last := inside (template.blockCount - 1) (by omega)
    have stride := template.blockStride_lt
    rw [Nat.sub_mul, Nat.one_mul, Nat.mul_comm] at last
    have wrapped := Nat.div_add_mod (template.blockStride * template.blockCount) (2 ^ 64)
    have whole : template.blockStride ≤ template.blockStride * template.blockCount := Nat.le_mul_of_pos_right _ count
    rw [totalSize] at last
    omega
  · intro fits i small
    have next : (i + 1) * template.blockStride ≤ template.blockCount * template.blockStride := Nat.mul_le_mul_right _ small
    rw [totalSize, Nat.mod_eq_of_lt fits, Nat.mul_comm template.blockStride]
    rw [Nat.add_mul, Nat.one_mul] at next
    omega

end PoolTemplate

namespace PoolAllocator

variable {template : PoolTemplate}

/-- The addresses of the blocks. -/
def blocks (pool : PoolAllocator template) : List Nat :=
  (List.range template.blockCount).map fun i => pool.memoryBlock + i * template.blockStride

variable {pool : PoolAllocator template}

theorem mem_blocks {ptr : Nat} :
    ptr ∈ pool.blocks ↔ ∃ i < template.blockCount, ptr = pool.memoryBlock + i * template.blockStride := by
  simp only [blocks, List.mem_map, List.mem_range, eq_comm]

theorem node_injective (template : PoolTemplate) (start : Nat) :
    Function.Injective fun i => start + i * template.blockStride := by
  intro i j same
  have positive : 0 < template.blockStride := Nat.lt_of_lt_of_le (by decide) template.node_le_blockStride
  exact Nat.eq_of_mul_eq_mul_right positive (Nat.add_left_cancel same)

theorem nodup_blocks : pool.blocks.Nodup := List.nodup_range.map (node_injective template _)

theorem length_blocks : pool.blocks.length = template.blockCount := by
  rw [blocks, List.length_map, List.length_range]

section BuildFreeList

/-- After `n` rounds the list goes back through the first `n` blocks. -/
theorem linked_rounds (pool : PoolAllocator template) (start n : Nat) (empty : pool.freeList = none) :
    let built := (List.range n).foldl (fun pool i => pool.link (start + i * template.blockStride)) pool
    Linked built.next built.freeList ((List.range n).map fun i => start + i * template.blockStride).reverse ∧
      built.memoryBlock = pool.memoryBlock ∧ built.available = pool.available := by
  induction n with
  | zero =>
      refine ⟨?_, rfl, rfl⟩
      show Linked pool.next pool.freeList []
      rw [empty]
      exact .nil
  | succ n ih =>
      simp only [List.range_succ, List.foldl_concat, List.map_append, List.reverse_append, List.map_singleton,
        List.reverse_singleton, List.singleton_append]
      refine ⟨ih.1.push ?_, ih.2⟩
      -- Blocks of different rounds have different addresses.
      intro member
      obtain ⟨i, small, same⟩ := List.mem_map.mp (List.mem_reverse.mp member)
      exact Nat.ne_of_lt (List.mem_range.mp small) (node_injective template start same)

theorem linked_buildFreeList (pool : PoolAllocator template) (start : Nat) :
    let built := pool.buildFreeList start template.blockStride
    Linked built.next built.freeList
        ((List.range template.blockCount).map fun i => start + i * template.blockStride).reverse ∧
      built.memoryBlock = pool.memoryBlock ∧ built.available = template.blockCount :=
  linked_rounds { pool with freeList := none, available := template.blockCount } start template.blockCount rfl

end BuildFreeList

/-- A pool and the blocks that are out of it. -/
structure Session (template : PoolTemplate) where
  pool : PoolAllocator template
  handed : List Nat := []

inductive Action where
  | allocate
  | deallocate (ptr : Option Nat)
  | reset
  | write (ptr : Nat) (word : Option Nat)

namespace Session

variable (session : Session template)

/-- Only blocks that are out are given back and written to. -/
def step : Action → Option (Session template)
  | .allocate => some ⟨session.pool.allocate.1, session.pool.allocate.2.toList ++ session.handed⟩
  | .deallocate none => some { session with pool := session.pool.deallocate none }
  | .deallocate (some ptr) =>
      if ptr ∈ session.handed then some ⟨session.pool.deallocate (some ptr), session.handed.erase ptr⟩ else none
  | .reset => some ⟨session.pool.reset, []⟩
  | .write ptr word =>
      if ptr ∈ session.handed then
        some { session with pool := { session.pool with next := Function.update session.pool.next ptr word } }
      else none

/-- Every block is either out or in the free list, which is counted. -/
def Partitioned : Prop :=
  ∃ free, Linked session.pool.next session.pool.freeList free ∧
    (free ++ session.handed).Perm session.pool.blocks ∧ session.pool.available = free.length

/-- No block is out twice. -/
structure Sound : Prop where
  distinct : session.handed.Nodup
  inside : ∀ ptr ∈ session.handed, ∃ i < session.pool.capacity,
    ptr = session.pool.memoryBlock + i * template.blockStride ∧
    ptr + template.sizeOf ≤ session.pool.memoryBlock + template.totalSize
  bounded : session.handed.length ≤ session.pool.capacity
  available : session.pool.available = session.pool.capacity - session.handed.length
  free : ∃ free, Linked session.pool.next session.pool.freeList free ∧ free.Nodup ∧
    ∀ ptr, ptr ∈ free ↔ ptr ∈ session.pool.blocks ∧ ptr ∉ session.handed
  exhausted : session.pool.allocate.2 = none ↔ session.handed.length = session.pool.capacity

end Session

def system (template : PoolTemplate) : System (Session template) Action where
  step := Session.step

section Steps

variable {session after : Session template} {start : Nat}

theorem memoryBlock_step {action : Action} (taken : session.step action = some after) :
    after.pool.memoryBlock = session.pool.memoryBlock := by
  cases action with
  | allocate =>
      cases taken
      unfold allocate
      split <;> rfl
  | deallocate ptr =>
      cases ptr with
      | none =>
          cases taken
          rfl
      | some ptr =>
          obtain ⟨-, ⟨⟩⟩ := Option.ite_none_right_eq_some.mp taken
          rfl
  | reset =>
      cases taken
      exact (linked_buildFreeList _ _).2.1
  | write ptr word =>
      obtain ⟨-, ⟨⟩⟩ := Option.ite_none_right_eq_some.mp taken
      rfl

theorem Session.Partitioned.step {action : Action} (partitioned : session.Partitioned)
    (taken : session.step action = some after) : after.Partitioned := by
  have same : after.pool.blocks = session.pool.blocks := by rw [blocks, blocks, memoryBlock_step taken]
  obtain ⟨free, linked, perm, counted⟩ := partitioned
  have bound : free.length + session.handed.length = template.blockCount := by
    rw [← List.length_append, perm.length_eq, length_blocks]
  have small := template.blockCount_lt
  have once : (free ++ session.handed).Nodup := perm.nodup_iff.mpr nodup_blocks
  rw [Partitioned, same]
  cases action with
  | allocate =>
      cases taken
      rw [allocate]
      split
      · exact ⟨free, linked, perm, counted⟩
      · next node found =>
          rw [found] at linked
          cases linked with
          | @cons _ rest linked =>
              refine ⟨rest, linked, List.perm_middle.trans perm, ?_⟩
              -- the counter goes down by going round
              show (session.pool.available + (2 ^ 64 - 1)) % 2 ^ 64 = rest.length
              simp only [List.length_cons] at counted bound
              omega
  | deallocate ptr =>
      cases ptr with
      | none =>
          cases taken
          exact ⟨free, linked, perm, counted⟩
      | some ptr =>
          -- A block that is out is not in the list it is pushed onto.
          obtain ⟨out, ⟨⟩⟩ := Option.ite_none_right_eq_some.mp taken
          have outside : ptr ∉ free := fun member => (List.disjoint_of_nodup_append once) member out
          have moved : (free ++ ptr :: session.handed.erase ptr).Perm (free ++ session.handed) :=
            (List.perm_cons_erase out).symm.append_left free
          refine ⟨ptr :: free, linked.push outside, ?_, ?_⟩
          · exact List.perm_middle.symm.trans (moved.trans perm)
          · show (session.pool.available + 1) % 2 ^ 64 = free.length + 1
            have := List.length_pos_of_mem out
            omega
  | reset =>
      cases taken
      obtain ⟨rebuilt, -, available⟩ := linked_buildFreeList session.pool session.pool.memoryBlock
      refine ⟨_, rebuilt, ?_, ?_⟩
      · rw [List.append_nil]
        exact List.reverse_perm _
      · rw [List.length_reverse, List.length_map, List.length_range]
        exact available
  | write ptr word =>
      -- The owner of a block writes no cell of the free list.
      obtain ⟨out, ⟨⟩⟩ := Option.ite_none_right_eq_some.mp taken
      have outside : ptr ∉ free := fun member => (List.disjoint_of_nodup_append once) member out
      exact ⟨free, linked.update outside word, perm, counted⟩

theorem Session.Partitioned.sound (partitioned : session.Partitioned)
    (fits : template.blockStride * template.blockCount < 2 ^ 64) : session.Sound := by
  obtain ⟨free, linked, perm, counted⟩ := partitioned
  have once : (free ++ session.handed).Nodup := perm.nodup_iff.mpr nodup_blocks
  have bound : free.length + session.handed.length = template.blockCount := by
    rw [← List.length_append, perm.length_eq, length_blocks]
  -- The pool refuses exactly when the free list has come to its end.
  have allocated : session.pool.allocate.2 = none ↔ free = [] := by
    rw [linked.eq_nil_iff, allocate]
    split <;> simp_all
  constructor
  · exact once.of_append_right
  · intro ptr out
    obtain ⟨i, small, same⟩ := mem_blocks.mp (perm.mem_iff.mp (List.mem_append_right _ out))
    refine ⟨i, small, same, ?_⟩
    have next : (i + 1) * template.blockStride ≤ template.blockCount * template.blockStride := Nat.mul_le_mul_right _ small
    have size := template.sizeOf_le_blockStride
    rw [Nat.add_mul, Nat.one_mul] at next
    rw [PoolTemplate.totalSize, Nat.mod_eq_of_lt fits, Nat.mul_comm template.blockStride]
    omega
  · exact Nat.le_of_add_left_le (Nat.le_of_eq bound)
  · show _ = template.blockCount - _
    omega
  · refine ⟨free, linked, linked.nodup, ?_⟩
    intro ptr
    rw [← perm.mem_iff, List.mem_append]
    constructor
    · intro member
      exact ⟨.inl member, fun out => List.disjoint_of_nodup_append once member out⟩
    · rintro ⟨member | out, kept⟩
      · exact member
      · exact absurd out kept
  · rw [allocated, ← List.length_eq_zero_iff]
    show _ ↔ _ = template.blockCount
    omega

end Steps

variable {manager manager' : MemoryManager} {tag : MemoryTag} {memoryBlock : Nat} {next : Nat → Option Nat}
  {pool : PoolAllocator template}

theorem allocatePool_isSome_iff :
    (allocatePool template manager tag memoryBlock next).isSome ↔
      template.blockStride * template.blockCount < 2 ^ 64 := by
  rw [← template.nodes_inside_iff, allocatePool]
  split <;> simp_all

theorem partitioned_allocatePool (made : allocatePool template manager tag memoryBlock next = some (pool, manager')) :
    (Session.mk pool []).Partitioned := by
  obtain ⟨-, ⟨⟩⟩ := Option.ite_none_right_eq_some.mp made
  obtain ⟨built, same, available⟩ :=
    linked_buildFreeList { tag, memoryBlock, next : PoolAllocator template } memoryBlock
  refine ⟨_, built, ?_, ?_⟩
  · rw [List.append_nil, blocks, same]
    exact List.reverse_perm _
  · rw [List.length_reverse, List.length_map, List.length_range]
    exact available

theorem reaches_sound {session : Session template}
    (made : allocatePool template manager tag memoryBlock next = some (pool, manager'))
    (reach : (system template).Reaches (fun _ _ => True) ⟨pool, []⟩ session) : session.Sound := by
  have fits : template.blockStride * template.blockCount < 2 ^ 64 := by
    apply allocatePool_isSome_iff.mp
    rw [made]
    rfl
  have partitioned : session.Partitioned :=
    reach.invariant (partitioned_allocatePool made) fun _ _ _ _ holds _ taken => holds.step taken
  exact partitioned.sound fits

/-- However the pool is made and used, no block is out twice. -/
def Exclusive (template : PoolTemplate) : Prop :=
  ∀ manager tag memoryBlock next, ∃ pool manager', allocatePool template manager tag memoryBlock next =
    some (pool, manager') ∧ ∀ session, (system template).Reaches (fun _ _ => True) ⟨pool, []⟩ session → session.Sound

theorem exclusive_iff (template : PoolTemplate) :
    Exclusive template ↔ template.blockStride * template.blockCount < 2 ^ 64 := by
  constructor
  · intro exclusive
    obtain ⟨pool, manager', made, -⟩ := exclusive {} ⟨0⟩ 0 fun _ => none
    apply allocatePool_isSome_iff.mp
    rw [made]
    rfl
  · intro fits manager tag memoryBlock next
    have some : (allocatePool template manager tag memoryBlock next).isSome := allocatePool_isSome_iff.mpr fits
    obtain ⟨⟨pool, manager'⟩, made⟩ := Option.isSome_iff_exists.mp some
    exact ⟨pool, manager', made, fun session reach => reaches_sound made reach⟩

/-- As many longs as there are bytes in an eighth of the address space. -/
def longs : PoolTemplate where
  sizeOf := 8
  alignOf := 8
  blockCount := 2 ^ 61
  alignment := 8
  sizeOf_lt := by decide
  alignOf_pos := by decide
  blockCount_pos := Nat.two_pow_pos 61
  blockCount_lt := Nat.pow_lt_pow_right Nat.one_lt_two (by decide)
  alignment_ge := Nat.le_refl _
  alignment_le := by decide

/-- The constructor asks for no bytes at all and writes the first node into them. -/
theorem longs_outside : longs.totalSize = 0 ∧
    (∀ manager tag memoryBlock next, allocatePool longs manager tag memoryBlock next = none) ∧ ¬Exclusive longs := by
  have size : longs.totalSize = 0 := by decide
  have refused : ∀ manager tag memoryBlock next, allocatePool longs manager tag memoryBlock next = none := by
    intro manager tag memoryBlock next
    apply if_neg
    intro inside
    have first := inside 0 (Nat.two_pow_pos 61)
    rw [size] at first
    omega
  refine ⟨size, refused, ?_⟩
  intro exclusive
  obtain ⟨pool, manager', made, -⟩ := exclusive {} ⟨0⟩ 0 fun _ => none
  rw [refused] at made
  cases made

/-- Two blocks for a type of twelve bytes. -/
def pair : PoolTemplate where
  sizeOf := 12
  alignOf := 4
  blockCount := 2
  alignment := 8
  sizeOf_lt := by decide
  alignOf_pos := by decide
  blockCount_pos := Nat.two_pos
  blockCount_lt := by decide
  alignment_ge := by decide
  alignment_le := by decide

def fresh : PoolAllocator pair × MemoryManager := (allocatePool pair {} ⟨1⟩ 4096 fun _ => none).get (by decide)

/-- Both blocks are out, and one that is given back comes out again. -/
def reused : Session pair :=
  (system pair).after (fun _ _ => True) ⟨fresh.1, []⟩
    [.allocate, .allocate, .write 4096 (some 1), .deallocate (some 4112), .allocate] (by decide)

example : reused.handed = [4112, 4096] ∧ reused.Sound := by
  have made : allocatePool pair {} ⟨1⟩ 4096 (fun _ => none) = some fresh := (Option.some_get _).symm
  exact ⟨by decide, reaches_sound made (System.reaches_after _)⟩

end PoolAllocator

end SoulLib.Memory
