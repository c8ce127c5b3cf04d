import Mathlib.Algebra.Order.Ring.Nat
import Mathlib.Data.List.AList

/-! The memory manager.

A manager keeps the size and the tag of every registered allocation. Its map is
unordered, so the order of the entries means nothing.
-/

set_option autoImplicit false

namespace SoulLib.Memory

/-- Tags with the same hash are equal. -/
structure MemoryTag where
  hash : BitVec 32 := 0
  deriving DecidableEq, Repr

/-- The 32-bit FNV-1a hash. -/
def hashBytes (data : List (BitVec 8)) : BitVec 32 :=
  data.foldl (fun hash byte => (hash ^^^ byte.setWidth 32) * 0x01000193) 0x811C9DC5

def makeLiteralTag (literal : String) : MemoryTag where
  hash := hashBytes (literal.toList.map fun char => BitVec.ofNat 8 char.toNat)

structure AllocationInfo where
  size : Nat
  tag : MemoryTag
  deriving DecidableEq, Repr

structure MemoryTagStats where
  tag : MemoryTag := {}
  bytes : Nat := 0
  allocations : Nat := 0
  deriving DecidableEq, Repr

structure MemoryStatistics where
  totalBytes : Nat := 0
  allocationCount : Nat := 0
  tags : List MemoryTagStats := []
  deriving DecidableEq, Repr

structure MemoryManager where
  allocations : AList fun _ : Nat => AllocationInfo := ∅
  deriving DecidableEq

namespace MemoryManager

variable (manager : MemoryManager)

def registerAllocation (ptr size : Nat) (tag : MemoryTag) : MemoryManager where
  allocations := manager.allocations.insert ptr ⟨size, tag⟩

def unregisterAllocation (ptr : Nat) : MemoryManager where
  allocations := manager.allocations.erase ptr

def clear (_ : MemoryManager) : MemoryManager where
  allocations := ∅

def getTotalAllocated : Nat :=
  manager.allocations.entries.foldl (fun total entry => (total + entry.2.size) % 2 ^ 64) 0

def getAllocationCount : Nat := manager.allocations.entries.length % 2 ^ 64

def getAllocatedByTag (tag : MemoryTag) : Nat :=
  manager.allocations.entries.foldl
    (fun sum entry => if entry.2.tag = tag then (sum + entry.2.size) % 2 ^ 64 else sum) 0

/-- What is registered at an address. -/
def info (ptr : Nat) : Option AllocationInfo := manager.allocations.lookup ptr

def getAllocationSize (ptr : Nat) : Nat := (manager.info ptr).elim 0 AllocationInfo.size

end MemoryManager

/-- The statistics of each tag hash while `snapshot` collects them. -/
abbrev PerTag : Type := AList fun _ : BitVec 32 => MemoryTagStats

/-- Count one more allocation; a hash that is not there yet starts from nothing. -/
def PerTag.count (perTag : PerTag) (info : AllocationInfo) : PerTag :=
  let bucket := (perTag.lookup info.tag.hash).getD {}
  perTag.insert info.tag.hash
    { tag := info.tag, bytes := (bucket.bytes + info.size) % 2 ^ 64, allocations := (bucket.allocations + 1) % 2 ^ 64 }

namespace MemoryManager

variable (manager : MemoryManager)

/-- The loop of `snapshot`: the total and the statistics of each hash. -/
def collect : Nat × PerTag :=
  manager.allocations.entries.foldl
    (fun stats entry => ((stats.1 + entry.2.size) % 2 ^ 64, stats.2.count entry.2)) (0, ∅)

/-- `snapshot`, given the order in which the map of hashes is iterated. -/
def snapshot (order : List (BitVec 32)) : Option MemoryStatistics :=
  if order.Perm manager.collect.2.keys then
    some { totalBytes := manager.collect.1
           allocationCount := manager.getAllocationCount
           tags := order.filterMap manager.collect.2.lookup }
  else none

variable {manager} {tag : MemoryTag}

theorem info_registerAllocation (manager : MemoryManager) (ptr address size : Nat) (tag : MemoryTag) :
    (manager.registerAllocation ptr size tag).info address =
      if address = ptr then some ⟨size, tag⟩ else manager.info address := by
  split
  · next here =>
      rw [here]
      exact AList.lookup_insert _
  · next elsewhere => exact AList.lookup_insert_ne elsewhere

theorem info_unregisterAllocation (manager : MemoryManager) (ptr address : Nat) :
    (manager.unregisterAllocation ptr).info address = if address = ptr then none else manager.info address := by
  split
  · next here =>
      rw [here]
      exact AList.lookup_erase _ _
  · next elsewhere => exact AList.lookup_erase_ne elsewhere

theorem info_update_register (managers : Nat → MemoryManager) (holder manager ptr address size : Nat) (tag : MemoryTag) :
    (Function.update managers manager ((managers manager).registerAllocation ptr size tag) holder).info address =
      if holder = manager ∧ address = ptr then some ⟨size, tag⟩ else (managers holder).info address := by
  by_cases same : holder = manager
  · subst same
    rw [Function.update_self, info_registerAllocation]
    simp only [true_and]
  · rw [Function.update_of_ne same, if_neg (fun both => same both.1)]

theorem info_update_unregister (managers : Nat → MemoryManager) (holder manager ptr address : Nat) :
    (Function.update managers manager ((managers manager).unregisterAllocation ptr) holder).info address =
      if holder = manager ∧ address = ptr then none else (managers holder).info address := by
  by_cases same : holder = manager
  · subst same
    rw [Function.update_self, info_unregisterAllocation]
    simp only [true_and]
  · rw [Function.update_of_ne same, if_neg (fun both => same both.1)]

theorem getAllocatedByTag_eq_zero (none : ∀ ptr found, manager.info ptr = some found → found.tag ≠ tag) :
    manager.getAllocatedByTag tag = 0 := by
  have untagged : ∀ entry ∈ manager.allocations.entries, entry.2.tag ≠ tag := by
    intro entry member
    exact none entry.1 entry.2 (AList.mem_lookup_iff.mpr member)
  rw [getAllocatedByTag]
  generalize manager.allocations.entries = entries at untagged
  induction entries with
  | nil => rfl
  | cons first rest ih =>
      rw [List.foldl_cons, if_neg (untagged first List.mem_cons_self)]
      exact ih fun entry member => untagged entry (List.mem_cons_of_mem _ member)

end MemoryManager

end SoulLib.Memory
