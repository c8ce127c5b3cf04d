import Mathlib.Algebra.BigOperators.Group.Finset.Basic
import Mathlib.Data.Finmap
import SoulLib.Memory.MemoryManager

/-! The books of a memory manager.

Whatever was registered and unregistered before, every query is a sum over the
addresses that were registered and not unregistered since. A hash map may arrange
its entries anew at any time, and its iteration order is a choice.
-/

set_option autoImplicit false

namespace SoulLib.Memory

namespace MemoryManager

inductive Operation where
  | registerAllocation (ptr size : Nat) (tag : MemoryTag)
  | unregisterAllocation (ptr : Nat)
  | clear
  | rehash (arranged : MemoryManager)

def apply (manager : MemoryManager) : Operation → Option MemoryManager
  | .registerAllocation ptr size tag => some (manager.registerAllocation ptr size tag)
  | .unregisterAllocation ptr => some (manager.unregisterAllocation ptr)
  | .clear => some manager.clear
  | .rehash arranged =>
      if arranged.allocations.entries.Perm manager.allocations.entries then some arranged else none

def run (operations : List Operation) : Option MemoryManager := operations.foldlM apply {}

end MemoryManager

open MemoryManager (Operation)

/-- What is allocated where. -/
abbrev Live : Type := Finmap fun _ : Nat => AllocationInfo

namespace Live

def apply (live : Live) : Operation → Live
  | .registerAllocation ptr size tag => live.insert ptr ⟨size, tag⟩
  | .unregisterAllocation ptr => live.erase ptr
  | .clear => ∅
  | .rehash _ => live

/-- What was registered last and has not been unregistered since. -/
def after (operations : List Operation) : Live := operations.foldl apply ∅

def sizeAt (live : Live) (ptr : Nat) : Nat := (live.lookup ptr).elim 0 AllocationInfo.size

def tagAt (live : Live) (ptr : Nat) : MemoryTag := (live.lookup ptr).elim {} AllocationInfo.tag

/-- The addresses with a tag. -/
def tagged (live : Live) (tag : MemoryTag) : Finset Nat := live.keys.filter fun ptr => live.tagAt ptr = tag

end Live

/-- The operation decides what is registered at an address. -/
def MemoryManager.Operation.Touches (ptr : Nat) : Operation → Prop
  | .registerAllocation other .. | .unregisterAllocation other => other = ptr
  | .clear => True
  | .rehash _ => False

/-- Registered like this last, and nothing happened to the address since. -/
def LastRegistered (operations : List Operation) (ptr : Nat) (info : AllocationInfo) : Prop :=
  ∃ earlier later, operations = earlier ++ .registerAllocation ptr info.size info.tag :: later ∧
    ∀ operation ∈ later, ¬ operation.Touches ptr

section Lookup

variable {ptr : Nat}

theorem Live.lookup_apply_of_not_touches (live : Live) {operation : Operation} (spared : ¬ operation.Touches ptr) :
    (live.apply operation).lookup ptr = live.lookup ptr := by
  cases operation with
  | registerAllocation other size tag => exact Finmap.lookup_insert_of_ne _ (Ne.symm spared)
  | unregisterAllocation other => exact Finmap.lookup_erase_ne (Ne.symm spared)
  | clear => exact absurd trivial spared
  | rehash arranged => rfl

theorem Live.lookup_apply_of_touches (live : Live) {operation : Operation} (touched : operation.Touches ptr)
    (info : AllocationInfo) : (live.apply operation).lookup ptr = some info ↔
      operation = .registerAllocation ptr info.size info.tag := by
  cases operation with
  | registerAllocation other size tag =>
      obtain rfl : other = ptr := touched
      rw [Live.apply, Finmap.lookup_insert]
      constructor
      · rintro ⟨⟩
        rfl
      · rintro ⟨⟩
        rfl
  | unregisterAllocation other =>
      obtain rfl : other = ptr := touched
      simp [Live.apply, Finmap.lookup_erase]
  | clear => simp [Live.apply]
  | rehash arranged => cases touched

theorem Live.lookup_after (operations : List Operation) (info : AllocationInfo) :
    (Live.after operations).lookup ptr = some info ↔ LastRegistered operations ptr info := by
  rw [LastRegistered]
  induction operations using List.reverseRecOn with
  | nil => simp [Live.after]
  | append_singleton operations operation ih =>
      rw [Live.after, List.foldl_concat, ← Live.after]
      by_cases touched : operation.Touches ptr
      · rw [Live.lookup_apply_of_touches _ touched]
        constructor
        · rintro rfl
          exact ⟨operations, [], rfl, by simp⟩
        · rintro ⟨earlier, later, same, spared⟩
          cases later using List.reverseRecOn with
          | nil =>
              -- The last operation is the one that registers.
              exact (List.append_inj' same rfl).2 |> List.singleton_inj.mp
          | append_singleton later last =>
              rw [← List.cons_append, ← List.append_assoc] at same
              obtain rfl := List.singleton_inj.mp (List.append_inj' same rfl).2
              exact absurd touched (spared operation (by simp))
      · rw [Live.lookup_apply_of_not_touches _ touched, ih]
        constructor
        · rintro ⟨earlier, later, rfl, spared⟩
          refine ⟨earlier, later ++ [operation], by simp, ?_⟩
          intro other member
          rcases List.mem_append.mp member with old | new
          · exact spared other old
          · rwa [List.mem_singleton.mp new]
        · rintro ⟨earlier, later, same, spared⟩
          cases later using List.reverseRecOn with
          | nil =>
              obtain rfl := List.singleton_inj.mp (List.append_inj' same rfl).2
              exact absurd rfl touched
          | append_singleton later last =>
              rw [← List.cons_append, ← List.append_assoc] at same
              exact ⟨earlier, later, (List.append_inj' same rfl).1, fun other member => spared other (by simp [member])⟩

end Lookup

section Sums

variable {α : Type} {m : Nat}

theorem foldl_add_mod (list : List α) (selects : α → Prop) [DecidablePred selects] (amount : α → Nat) (start : Nat) :
    list.foldl (fun sum entry => if selects entry then (sum + amount entry) % m else sum) (start % m) =
      (start + (list.map fun entry => if selects entry then amount entry else 0).sum) % m := by
  induction list generalizing start with
  | nil => rfl
  | cons first rest ih =>
      rw [List.foldl_cons, List.map_cons, List.sum_cons]
      by_cases selected : selects first
      · rw [if_pos selected, if_pos selected, Nat.mod_add_mod, ih, Nat.add_assoc]
      · rw [if_neg selected, if_neg selected, ih, Nat.zero_add]

end Sums

namespace MemoryManager

variable (manager : MemoryManager)

/-- The contents of the map, whatever the order of its entries. -/
def live : Live := manager.allocations.toFinmap

variable {manager}

theorem live_apply {manager' : MemoryManager} {operation : Operation} (applied : manager.apply operation = some manager') :
    manager'.live = manager.live.apply operation := by
  cases operation with
  | registerAllocation ptr size tag =>
      cases applied
      exact (Finmap.insert_toFinmap ptr _ manager.allocations).symm
  | unregisterAllocation ptr =>
      cases applied
      exact (Finmap.erase_toFinmap ptr manager.allocations).symm
  | clear =>
      cases applied
      exact Finmap.empty_toFinmap
  | rehash arranged =>
      -- The entries are permuted, which a finite map does not see.
      simp only [apply] at applied
      split at applied
      · next perm =>
          cases applied
          exact AList.toFinmap_eq.mpr perm
      · cases applied

theorem live_foldlM {manager' : MemoryManager} {operations : List Operation}
    (applied : operations.foldlM apply manager = some manager') :
    manager'.live = operations.foldl Live.apply manager.live := by
  induction operations generalizing manager with
  | nil =>
      cases applied
      rfl
  | cons operation operations ih =>
      obtain ⟨between, first, rest⟩ := Option.bind_eq_some_iff.mp applied
      rw [ih rest, live_apply first, List.foldl_cons]

theorem live_run {operations : List Operation} (ran : run operations = some manager) :
    manager.live = Live.after operations := by
  rw [live_foldlM ran, live, Finmap.empty_toFinmap, Live.after]

theorem lookup_live (ptr : Nat) : manager.live.lookup ptr = manager.info ptr := Finmap.lookup_toFinmap _ _

theorem sum_live {amount : Nat → Nat} {amountOf : AllocationInfo → Nat}
    (same : ∀ ptr info, manager.info ptr = some info → amount ptr = amountOf info) :
    ∑ ptr ∈ manager.live.keys, amount ptr = (manager.allocations.entries.map fun entry => amountOf entry.2).sum := by
  have keys : manager.live.keys = manager.allocations.keys.toFinset := by
    ext ptr
    rw [Finmap.mem_keys, List.mem_toFinset]
    exact Finmap.mem_toFinmap
  rw [keys, List.sum_toFinset _ manager.allocations.keys_nodup, AList.keys, List.keys, List.map_map]
  congr 1
  apply List.map_congr_left
  intro entry member
  exact same entry.1 entry.2 (AList.mem_lookup_iff.mpr member)

section Queries

variable (manager : MemoryManager) {ptr : Nat} {info : AllocationInfo} (tag : MemoryTag)

theorem sizeAt_live (ptr : Nat) : manager.live.sizeAt ptr = manager.getAllocationSize ptr := by
  rw [Live.sizeAt, lookup_live, getAllocationSize]

variable {manager} in
theorem tagAt_live (found : manager.info ptr = some info) : manager.live.tagAt ptr = info.tag := by
  rw [Live.tagAt, lookup_live, found]
  rfl

variable {manager} in
theorem sizeAt_of_info (found : manager.info ptr = some info) : manager.live.sizeAt ptr = info.size := by
  rw [Live.sizeAt, lookup_live, found]
  rfl

theorem sum_tagged (amount : Nat → Nat) (amountOf : AllocationInfo → Nat)
    (same : ∀ ptr info, manager.info ptr = some info → amount ptr = amountOf info) :
    ∑ ptr ∈ manager.live.tagged tag, amount ptr =
      (manager.allocations.entries.map fun entry => if entry.2.tag = tag then amountOf entry.2 else 0).sum := by
  rw [Live.tagged, Finset.sum_filter]
  apply @sum_live manager _ fun info => if info.tag = tag then amountOf info else 0
  intro ptr info found
  rw [tagAt_live found, same ptr info found]

theorem getTotalAllocated_eq :
    manager.getTotalAllocated = (∑ ptr ∈ manager.live.keys, manager.live.sizeAt ptr) % 2 ^ 64 := by
  have loop := @foldl_add_mod _ (2 ^ 64) manager.allocations.entries (fun _ => True) _ (fun entry => entry.2.size) 0
  simp only [if_true, Nat.zero_add] at loop
  rw [getTotalAllocated, sum_live fun _ _ => sizeAt_of_info]
  exact loop

theorem getAllocationCount_eq : manager.getAllocationCount = manager.live.keys.card % 2 ^ 64 := by
  have ones := @sum_live manager (fun _ => 1) (fun _ => 1) fun _ _ _ => rfl
  rw [← Finset.card_eq_sum_ones] at ones
  rw [getAllocationCount, ones]
  simp

theorem getAllocatedByTag_eq : manager.getAllocatedByTag tag =
    (∑ ptr ∈ manager.live.tagged tag, manager.live.sizeAt ptr) % 2 ^ 64 := by
  have loop := @foldl_add_mod _ (2 ^ 64) manager.allocations.entries (fun entry => entry.2.tag = tag) _
    (fun entry => entry.2.size) 0
  rw [Nat.zero_add] at loop
  rw [getAllocatedByTag, sum_tagged manager tag _ _ fun _ _ => sizeAt_of_info]
  exact loop

end Queries

section Statistics

variable (manager : MemoryManager) (hash : BitVec 32)

/-- What the entries with a hash add up to. -/
def bucket (entries : List (Σ _ : Nat, AllocationInfo)) : MemoryTagStats where
  tag := ⟨hash⟩
  bytes := (entries.map fun entry => if entry.2.tag = ⟨hash⟩ then entry.2.size else 0).sum % 2 ^ 64
  allocations := (entries.map fun entry => if entry.2.tag = ⟨hash⟩ then 1 else 0).sum % 2 ^ 64

theorem lookup_count (perTag : PerTag) (info : AllocationInfo) : (perTag.count info).lookup hash =
    if info.tag = ⟨hash⟩ then
      some { tag := ⟨hash⟩
             bytes := (((perTag.lookup hash).getD {}).bytes + info.size) % 2 ^ 64
             allocations := (((perTag.lookup hash).getD {}).allocations + 1) % 2 ^ 64 }
    else perTag.lookup hash := by
  obtain ⟨size, ⟨other⟩⟩ := info
  by_cases same : other = hash
  · subst same
    rw [if_pos rfl]
    exact AList.lookup_insert _
  · rw [if_neg (by simpa using same)]
    exact AList.lookup_insert_ne (Ne.symm same)

theorem lookup_collected (entries : List (Σ _ : Nat, AllocationInfo)) :
    (entries.foldl (fun perTag entry => PerTag.count perTag entry.2) ∅).lookup hash =
      if ∃ entry ∈ entries, entry.2.tag = ⟨hash⟩ then some (bucket hash entries) else none := by
  induction entries using List.reverseRecOn with
  | nil => simp
  | append_singleton entries entry ih =>
      rw [List.foldl_concat, lookup_count]
      by_cases selected : entry.2.tag = ⟨hash⟩
      · rw [if_pos selected, if_pos ⟨entry, by simp, selected⟩, ih]
        split
        · simp [bucket, selected]
        · next absent =>
            -- The first entry with the hash: nothing was summed up before.
            have none : ∀ other ∈ entries, ¬ other.2.tag = ⟨hash⟩ := fun other member same => absent ⟨other, member, same⟩
            have sums : ∀ amount : (Σ _ : Nat, AllocationInfo) → Nat,
                (entries.map fun other => if other.2.tag = ⟨hash⟩ then amount other else 0).sum = 0 := by
              intro amount
              rw [List.map_congr_left fun other member => if_neg (none other member)]
              simp
            simp [bucket, selected, sums]
      · have same : (∃ other ∈ entries ++ [entry], other.2.tag = ⟨hash⟩) ↔ ∃ other ∈ entries, other.2.tag = ⟨hash⟩ := by
          constructor
          · rintro ⟨other, member, tagged⟩
            rcases List.mem_append.mp member with old | new
            · exact ⟨other, old, tagged⟩
            · rw [List.mem_singleton.mp new] at tagged
              exact absurd tagged selected
          · rintro ⟨other, member, tagged⟩
            exact ⟨other, List.mem_append_left _ member, tagged⟩
        rw [if_neg selected, ih]
        simp only [same]
        simp [bucket, selected]

theorem collect_eq (entries : List (Σ _ : Nat, AllocationInfo)) (total : Nat) (perTag : PerTag) :
    entries.foldl (fun stats entry => ((stats.1 + entry.2.size) % 2 ^ 64, PerTag.count stats.2 entry.2)) (total, perTag) =
      (entries.foldl (fun total entry => (total + entry.2.size) % 2 ^ 64) total,
        entries.foldl (fun perTag entry => PerTag.count perTag entry.2) perTag) := by
  induction entries generalizing total perTag with
  | nil => rfl
  | cons entry entries ih => exact ih _ _

end Statistics

section Snapshot

variable {manager : MemoryManager} {order : List (BitVec 32)} {hash : BitVec 32} {tag : MemoryTag}

/-- The statistics agree with the queries, and their entries add up to the totals. -/
structure Summarizes (live : Live) (manager : MemoryManager) (stats : MemoryStatistics) : Prop where
  totalBytes : stats.totalBytes = manager.getTotalAllocated
  allocationCount : stats.allocationCount = manager.getAllocationCount
  once : (stats.tags.map MemoryTagStats.tag).Nodup
  present : ∀ tag, tag ∈ stats.tags.map MemoryTagStats.tag ↔ ∃ ptr ∈ live.keys, live.tagAt ptr = tag
  bytes : ∀ entry ∈ stats.tags, entry.bytes = manager.getAllocatedByTag entry.tag
  allocations : ∀ entry ∈ stats.tags, entry.allocations = (live.tagged entry.tag).card % 2 ^ 64
  sumBytes : (stats.tags.map MemoryTagStats.bytes).sum % 2 ^ 64 = stats.totalBytes
  sumAllocations : (stats.tags.map MemoryTagStats.allocations).sum % 2 ^ 64 = stats.allocationCount

/-- The queries are sums over what is live. -/
structure Consistent (live : Live) (manager : MemoryManager) : Prop where
  total : manager.getTotalAllocated = (∑ ptr ∈ live.keys, live.sizeAt ptr) % 2 ^ 64
  count : manager.getAllocationCount = live.keys.card % 2 ^ 64
  size : ∀ ptr, manager.getAllocationSize ptr = live.sizeAt ptr
  byTag : ∀ tag, manager.getAllocatedByTag tag = (∑ ptr ∈ live.tagged tag, live.sizeAt ptr) % 2 ^ 64
  snapshot : ∀ order stats, manager.snapshot order = some stats → Summarizes live manager stats
  iterates : ∀ order : List (BitVec 32), order.Nodup →
    (∀ hash, hash ∈ order ↔ ∃ ptr ∈ live.keys, live.tagAt ptr = ⟨hash⟩) → (manager.snapshot order).isSome

theorem exists_entry_iff :
    (∃ entry ∈ manager.allocations.entries, entry.2.tag = tag) ↔ ∃ ptr ∈ manager.live.keys, manager.live.tagAt ptr = tag := by
  constructor
  · rintro ⟨entry, member, same⟩
    have found : manager.info entry.1 = some entry.2 := AList.mem_lookup_iff.mpr member
    refine ⟨entry.1, Finmap.mem_keys.mpr (Finmap.mem_iff.mpr ⟨entry.2, ?_⟩), ?_⟩
    · rw [lookup_live, found]
    · rw [tagAt_live found, same]
  · rintro ⟨ptr, member, same⟩
    obtain ⟨info, found⟩ := Finmap.mem_iff.mp (Finmap.mem_keys.mp member)
    rw [lookup_live] at found
    refine ⟨⟨ptr, info⟩, AList.mem_lookup_iff.mp found, ?_⟩
    rwa [tagAt_live found] at same

theorem collected_eq : manager.collect = (manager.getTotalAllocated,
    manager.allocations.entries.foldl (fun perTag entry => PerTag.count perTag entry.2) ∅) := collect_eq _ _ _

theorem lookup_collect : manager.collect.2.lookup hash =
    if ∃ ptr ∈ manager.live.keys, manager.live.tagAt ptr = ⟨hash⟩ then some (bucket hash manager.allocations.entries)
    else none := by
  rw [collected_eq, lookup_collected]
  simp only [exists_entry_iff]

theorem mem_keys_collect :
    hash ∈ manager.collect.2.keys ↔ ∃ ptr ∈ manager.live.keys, manager.live.tagAt ptr = ⟨hash⟩ := by
  rw [← AList.mem_keys, ← AList.lookup_isSome, lookup_collect]
  split
  · next present => exact iff_of_true rfl present
  · next absent => exact iff_of_false Bool.false_ne_true absent

theorem tags_eq (perm : order.Perm manager.collect.2.keys) :
    order.filterMap manager.collect.2.lookup = order.map fun hash => bucket hash manager.allocations.entries := by
  rw [← List.filterMap_eq_map]
  apply List.filterMap_congr
  intro hash member
  rw [lookup_collect, if_pos (mem_keys_collect.mp (perm.mem_iff.mp member))]
  rfl

theorem sum_fibers {live : Live} {tags : List MemoryTag} (once : tags.Nodup)
    (covers : ∀ ptr ∈ live.keys, live.tagAt ptr ∈ tags) (amount : Nat → Nat) :
    (tags.map fun tag => (∑ ptr ∈ live.tagged tag, amount ptr) % 2 ^ 64).sum % 2 ^ 64 =
      (∑ ptr ∈ live.keys, amount ptr) % 2 ^ 64 := by
  rw [← List.sum_toFinset _ once, ← Finset.sum_nat_mod,
    ← Finset.sum_fiberwise_of_maps_to fun ptr member => List.mem_toFinset.mpr (covers ptr member)]
  rfl

theorem bucket_bytes : (bucket hash manager.allocations.entries).bytes = manager.getAllocatedByTag ⟨hash⟩ := by
  rw [getAllocatedByTag_eq, sum_tagged manager ⟨hash⟩ _ _ fun _ _ => sizeAt_of_info]
  rfl

theorem bucket_allocations :
    (bucket hash manager.allocations.entries).allocations = (manager.live.tagged ⟨hash⟩).card % 2 ^ 64 := by
  rw [Finset.card_eq_sum_ones, sum_tagged manager ⟨hash⟩ (fun _ => 1) (fun _ => 1) fun _ _ _ => rfl]
  rfl

theorem summarizes_of_snapshot {stats : MemoryStatistics} (taken : manager.snapshot order = some stats) :
    Summarizes manager.live manager stats := by
  simp only [snapshot] at taken
  split at taken
  · next perm =>
      cases taken
      have once : (order.map MemoryTag.mk).Nodup :=
        (perm.nodup_iff.mpr manager.collect.2.keys_nodup).map fun _ _ same => congrArg MemoryTag.hash same
      have covers : ∀ ptr ∈ manager.live.keys, manager.live.tagAt ptr ∈ order.map MemoryTag.mk := by
        intro ptr member
        refine List.mem_map.mpr ⟨(manager.live.tagAt ptr).hash, ?_, rfl⟩
        exact perm.mem_iff.mpr (mem_keys_collect.mpr ⟨ptr, member, rfl⟩)
      have tags : (order.map fun hash => bucket hash manager.allocations.entries).map MemoryTagStats.tag =
          order.map MemoryTag.mk := List.map_map
      have total : manager.collect.1 = manager.getTotalAllocated := congrArg Prod.fst collected_eq
      rw [tags_eq perm]
      constructor
      · exact total
      · rfl
      · rwa [tags]
      · intro tag
        rw [tags]
        constructor
        · intro member
          obtain ⟨hash, within, rfl⟩ := List.mem_map.mp member
          exact mem_keys_collect.mp (perm.mem_iff.mp within)
        · rintro ⟨ptr, member, rfl⟩
          exact covers ptr member
      · intro entry member
        obtain ⟨hash, -, rfl⟩ := List.mem_map.mp member
        exact bucket_bytes
      · intro entry member
        obtain ⟨hash, -, rfl⟩ := List.mem_map.mp member
        exact bucket_allocations
      · -- The buckets partition what is live.
        rw [total, getTotalAllocated_eq, ← sum_fibers once covers, List.map_map, List.map_map]
        congr 2
        apply List.map_congr_left
        intro hash _
        exact bucket_bytes.trans (getAllocatedByTag_eq manager ⟨hash⟩)
      · rw [getAllocationCount_eq, Finset.card_eq_sum_ones, ← sum_fibers once covers, List.map_map, List.map_map]
        congr 2
        apply List.map_congr_left
        intro hash _
        exact bucket_allocations.trans (by rw [Finset.card_eq_sum_ones]; rfl)
  · cases taken

/-- After any history all queries agree with what is live, whatever the order of the hash maps. -/
theorem run_consistent {operations : List Operation} (ran : run operations = some manager) :
    (∀ ptr info, (Live.after operations).lookup ptr = some info ↔ LastRegistered operations ptr info) ∧
      Consistent (Live.after operations) manager := by
  refine ⟨fun ptr info => Live.lookup_after operations info, ?_⟩
  rw [← live_run ran]
  refine ⟨manager.getTotalAllocated_eq, manager.getAllocationCount_eq, fun ptr => (manager.sizeAt_live ptr).symm,
    manager.getAllocatedByTag_eq, fun order stats => summarizes_of_snapshot, ?_⟩
  intro order once covers
  have perm : order.Perm manager.collect.2.keys := by
    refine (List.perm_ext_iff_of_nodup once manager.collect.2.keys_nodup).mpr ?_
    intro hash
    rw [covers, mem_keys_collect]
  rw [snapshot, if_pos perm]
  rfl

end Snapshot

/-- An address is registered again with another tag, and one that is unknown is unregistered. -/
theorem run_consistent_overwritten : ∃ manager,
    run [.registerAllocation 4096 16 ⟨1⟩, .registerAllocation 8192 32 ⟨2⟩, .registerAllocation 4096 64 ⟨2⟩,
        .unregisterAllocation 12288] = some manager ∧ manager.getTotalAllocated = 96 ∧
      Consistent (Live.after [.registerAllocation 4096 16 ⟨1⟩, .registerAllocation 8192 32 ⟨2⟩,
        .registerAllocation 4096 64 ⟨2⟩, .unregisterAllocation 12288]) manager :=
  ⟨_, rfl, by decide, (run_consistent rfl).2⟩

end MemoryManager

end SoulLib.Memory
