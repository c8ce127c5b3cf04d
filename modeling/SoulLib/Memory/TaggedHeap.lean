import SoulLib.Containers.Cells
import SoulLib.Memory.MemoryManager

/-! The heap behind the tagged allocators.

A block is known by its address. Allocators of all managers take their blocks from
one heap. Besides what the code has, the heap remembers which manager registered a
block and which manager each released block was unregistered from.

`Accounts` says which buffers are in use and that the managers' books agree with
that. `Runs` says what a piece of code does to the buffers it uses and that it
leaves all others alone.
-/

set_option autoImplicit false

namespace SoulLib.Memory

open SoulLib.Containers (Cells)

/-- A request that `operator new` refuses. -/
structure BadAlloc where
  bytes : Nat
  large : 2 ^ 63 ≤ bytes

/-- Where `operator new` puts a block, given how often it was called and which blocks are live. -/
structure OperatorNew where
  address : Nat → List Nat → Nat
  fresh : ∀ calls live, address calls live ∉ live
  nonnull : ∀ calls live, address calls live ≠ 0

theorem le_foldr_max {live : List Nat} {address : Nat} (member : address ∈ live) : address ≤ live.foldr max 0 := by
  induction live with
  | nil => cases member
  | cons first rest ih =>
      rw [List.foldr_cons]
      rcases List.mem_cons.mp member with rfl | later
      · exact Nat.le_max_left _ _
      · exact Nat.le_trans (ih later) (Nat.le_max_right _ _)

/-- Every block above all live ones. -/
def OperatorNew.above : OperatorNew where
  address := fun _ live => live.foldr max 0 + 1
  fresh := fun _ _ member => Nat.not_succ_le_self _ (le_foldr_max member)
  nonnull := fun _ _ => Nat.succ_ne_zero _

structure Release where
  registeredBy : Nat
  unregisteredFrom : Nat
  deriving DecidableEq, Repr

structure Heap (T : Type) where
  live : List Nat := []
  cells : Nat → Cells T := fun _ => Cells.empty
  managers : Nat → MemoryManager := fun _ => {}
  calls : Nat := 0
  registrar : Nat → Nat := fun _ => 0
  releases : List Release := []

namespace Heap

variable {T : Type}

def setCells (heap : Heap T) (address : Nat) (cells : Cells T) : Heap T :=
  { heap with cells := Function.update heap.cells address cells }

/-- `TaggedMemoryAllocator::allocate`. -/
def allocate (new : OperatorNew) (sizeof : Nat) (tag : MemoryTag) (heap : Heap T) (manager n : Nat) :
    Except BadAlloc (Nat × Heap T) :=
  let bytes := n * sizeof % 2 ^ 64
  if large : 2 ^ 63 ≤ bytes then .error ⟨bytes, large⟩
  else
    let ptr := new.address heap.calls heap.live
    .ok (ptr,
      { heap with
        live := ptr :: heap.live
        cells := Function.update heap.cells ptr Cells.empty
        managers := Function.update heap.managers manager ((heap.managers manager).registerAllocation ptr bytes tag)
        calls := heap.calls + 1
        registrar := Function.update heap.registrar ptr manager })

/-- `TaggedMemoryAllocator::deallocate`. -/
def deallocate (heap : Heap T) (manager ptr : Nat) : Heap T :=
  if ptr = 0 then heap
  else
    { heap with
      live := heap.live.erase ptr
      cells := Function.update heap.cells ptr Cells.empty
      managers := Function.update heap.managers manager ((heap.managers manager).unregisterAllocation ptr)
      releases := heap.releases ++ [⟨heap.registrar ptr, manager⟩] }

variable {heap heap' : Heap T} {sizeof : Nat} {tag : MemoryTag}

theorem allocate_eq_ok {new : OperatorNew} {manager n ptr : Nat}
    (returned : heap.allocate new sizeof tag manager n = .ok (ptr, heap')) :
    n * sizeof % 2 ^ 64 < 2 ^ 63 ∧ ptr ∉ heap.live ∧ heap'.live = ptr :: heap.live ∧
      heap'.cells = Function.update heap.cells ptr Cells.empty := by
  simp only [allocate] at returned
  split at returned
  · cases returned
  · next small =>
      cases returned
      exact ⟨Nat.not_le.mp small, new.fresh _ _, rfl, rfl⟩

theorem allocate_registers {new : OperatorNew} {manager n ptr : Nat}
    (returned : heap.allocate new sizeof tag manager n = .ok (ptr, heap')) :
    (heap'.managers manager).info ptr = some ⟨n * sizeof % 2 ^ 64, tag⟩ := by
  simp only [allocate] at returned
  split at returned
  · cases returned
  · cases returned
    rw [MemoryManager.info_update_register, if_pos ⟨rfl, rfl⟩]

@[simp] theorem setCells_live (heap : Heap T) (address : Nat) (cells : Cells T) :
    (heap.setCells address cells).live = heap.live := rfl

@[simp] theorem setCells_cells (heap : Heap T) (address : Nat) (cells : Cells T) :
    (heap.setCells address cells).cells = Function.update heap.cells address cells := rfl

theorem deallocate_of_ne {manager ptr address : Nat} (differs : address ≠ ptr) :
    (heap.deallocate manager ptr).cells address = heap.cells address ∧
      (address ∈ heap.live → address ∈ (heap.deallocate manager ptr).live) := by
  rw [deallocate]
  split
  · exact ⟨rfl, id⟩
  · exact ⟨Function.update_of_ne differs _ _, (List.mem_erase_of_ne differs).mpr⟩

theorem deallocate_info_of_ne {manager ptr address holder : Nat} (differs : address ≠ ptr) :
    ((heap.deallocate manager ptr).managers holder).info address = (heap.managers holder).info address := by
  rw [deallocate]
  split
  · rfl
  · rw [MemoryManager.info_update_unregister, if_neg fun both => differs both.2]

end Heap

/-- Nothing is registered under a tag, and nothing was released. -/
structure Heap.Unused {T : Type} (tag : MemoryTag) (heap : Heap T) : Prop where
  unregistered : ∀ manager address found, (heap.managers manager).info address = some found → found.tag ≠ tag
  releases : heap.releases = []

/-- A block that is in use, and the manager of the allocator that is to release it. -/
structure Buffer where
  manager : Nat
  address : Nat
  capacity : Nat
  deriving DecidableEq, Repr

/-- The buffers in use are live and distinct, and exactly they are registered, each at its manager. -/
structure Accounts {T : Type} (sizeof : Nat) (tag : MemoryTag) (heap : Heap T) (buffers : List Buffer) : Prop where
  distinct : (buffers.map Buffer.address).Nodup
  live : ∀ buffer ∈ buffers, buffer.address ∈ heap.live
  nonnull : ∀ buffer ∈ buffers, buffer.address ≠ 0
  registered : ∀ manager address size, (heap.managers manager).info address = some ⟨size, tag⟩ ↔
    ∃ buffer ∈ buffers, buffer.manager = manager ∧ buffer.address = address ∧ buffer.capacity * sizeof = size
  registrar : ∀ buffer ∈ buffers, heap.registrar buffer.address = buffer.manager
  releases : ∀ release ∈ heap.releases, release.unregisteredFrom = release.registeredBy

/-- Code that turns the buffers `used` into `left`, whatever other buffers there are. -/
def Runs {T : Type} (sizeof : Nat) (tag : MemoryTag) (heap : Heap T) (used : List Buffer) (heap' : Heap T)
    (left : List Buffer) : Prop :=
  ∀ rest, Accounts sizeof tag heap (used ++ rest) →
    Accounts sizeof tag heap' (left ++ rest) ∧ ∀ buffer ∈ rest, heap'.cells buffer.address = heap.cells buffer.address

variable {T : Type} {sizeof : Nat} {tag : MemoryTag} {heap heap' heap'' : Heap T} {used used' left left' more : List Buffer}
  {buffer : Buffer} {buffers : List Buffer}

theorem Accounts.nil (unused : heap.Unused tag) : Accounts sizeof tag heap [] where
  distinct := List.nodup_nil
  live := fun _ member => absurd member List.not_mem_nil
  nonnull := fun _ member => absurd member List.not_mem_nil
  registered := by
    intro manager address size
    constructor
    · intro found
      exact absurd rfl (unused.unregistered _ _ _ found)
    · rintro ⟨buffer, member, -⟩
      cases member
  registrar := fun _ member => absurd member List.not_mem_nil
  releases := by
    rw [unused.releases]
    exact fun _ member => absurd member List.not_mem_nil

theorem Accounts.perm (accounts : Accounts sizeof tag heap used) (perm : used.Perm used') :
    Accounts sizeof tag heap used' where
  distinct := ((perm.map _).nodup_iff).mp accounts.distinct
  live := fun buffer member => accounts.live buffer (perm.mem_iff.mpr member)
  nonnull := fun buffer member => accounts.nonnull buffer (perm.mem_iff.mpr member)
  registered := by
    intro manager address size
    rw [accounts.registered]
    simp only [perm.mem_iff]
  registrar := fun buffer member => accounts.registrar buffer (perm.mem_iff.mpr member)
  releases := accounts.releases

theorem Accounts.exchange (accounts : Accounts sizeof tag heap (used ++ (left ++ more))) :
    Accounts sizeof tag heap (left ++ (used ++ more)) := by
  apply accounts.perm
  rw [← List.append_assoc, ← List.append_assoc]
  exact List.perm_append_comm.append_right more

theorem Accounts.address_ne (accounts : Accounts sizeof tag heap (buffer :: buffers)) {other : Buffer}
    (member : other ∈ buffers) : other.address ≠ buffer.address := by
  have distinct := accounts.distinct
  rw [List.map_cons, List.nodup_cons] at distinct
  intro same
  exact distinct.1 (same ▸ List.mem_map_of_mem member)

namespace Runs

theorem refl : Runs sizeof tag heap used heap used := fun _ accounts => ⟨accounts, fun _ _ => rfl⟩

theorem trans (first : Runs sizeof tag heap used heap' left) (second : Runs sizeof tag heap' left heap'' left') :
    Runs sizeof tag heap used heap'' left' := by
  intro rest accounts
  obtain ⟨between, same⟩ := first rest accounts
  obtain ⟨final, same'⟩ := second rest between
  refine ⟨final, ?_⟩
  intro buffer member
  rw [same' buffer member, same buffer member]

/-- The frame rule. -/
theorem append (runs : Runs sizeof tag heap used heap' left) (more : List Buffer) :
    Runs sizeof tag heap (used ++ more) heap' (left ++ more) := by
  intro rest accounts
  rw [List.append_assoc] at accounts ⊢
  obtain ⟨final, same⟩ := runs (more ++ rest) accounts
  exact ⟨final, fun buffer member => same buffer (List.mem_append_right _ member)⟩

theorem perm (runs : Runs sizeof tag heap used heap' left) (uses : used'.Perm used) (leaves : left.Perm left') :
    Runs sizeof tag heap used' heap' left' := by
  intro rest accounts
  obtain ⟨final, same⟩ := runs rest (accounts.perm (uses.append_right rest))
  exact ⟨final.perm (leaves.append_right rest), same⟩

theorem setCells (heap : Heap T) (buffer : Buffer) (cells : Cells T) :
    Runs sizeof tag heap [buffer] (heap.setCells buffer.address cells) [buffer] := by
  intro rest accounts
  refine ⟨⟨accounts.distinct, accounts.live, accounts.nonnull, accounts.registered, accounts.registrar,
    accounts.releases⟩, ?_⟩
  intro other member
  exact Function.update_of_ne (accounts.address_ne member) _ _

theorem allocate {new : OperatorNew} {manager n ptr : Nat} (exact : n * sizeof < 2 ^ 64)
    (returned : heap.allocate new sizeof tag manager n = .ok (ptr, heap')) :
    Runs sizeof tag heap [] heap' [⟨manager, ptr, n⟩] := by
  simp only [Heap.allocate, Nat.mod_eq_of_lt exact] at returned
  split at returned
  · cases returned
  · next small =>
      cases returned
      intro rest accounts
      rw [List.nil_append] at accounts
      -- operator new returns no address that is in use, so no other buffer has it
      have fresh := new.fresh heap.calls heap.live
      have apart : ∀ buffer ∈ rest, buffer.address ≠ new.address heap.calls heap.live := by
        intro buffer member same
        exact fresh (same ▸ accounts.live buffer member)
      refine ⟨⟨?_, ?_, ?_, ?_, ?_, accounts.releases⟩, ?_⟩
      · rw [List.singleton_append, List.map_cons, List.nodup_cons]
        refine ⟨?_, accounts.distinct⟩
        intro member
        obtain ⟨buffer, within, same⟩ := List.mem_map.mp member
        exact apart buffer within same
      · rintro buffer (_ | ⟨_, member⟩)
        · exact List.mem_cons_self
        · exact List.mem_cons_of_mem _ (accounts.live buffer member)
      · rintro buffer (_ | ⟨_, member⟩)
        · exact new.nonnull _ _
        · exact accounts.nonnull buffer member
      · intro holder address size
        dsimp only
        rw [MemoryManager.info_update_register, List.singleton_append, List.exists_mem_cons_iff]
        split
        · next here =>
            obtain ⟨rfl, rfl⟩ := here
            constructor
            -- this address in this manager: the size just registered and no other
            · intro same
              cases same
              exact .inl ⟨rfl, rfl, rfl⟩
            · rintro (⟨-, -, rfl⟩ | ⟨buffer, member, -, same, -⟩)
              · rfl
              · exact absurd same (apart buffer member)
        · next elsewhere =>
            rw [accounts.registered]
            constructor
            · exact .inr
            · rintro (⟨rfl, rfl, -⟩ | found)
              · exact absurd ⟨rfl, rfl⟩ elsewhere
              · exact found
      · rintro buffer (_ | ⟨_, member⟩)
        · exact Function.update_self _ _ _
        · exact (Function.update_of_ne (apart buffer member) _ _).trans (accounts.registrar buffer member)
      · intro buffer member
        exact Function.update_of_ne (apart buffer member) _ _

theorem deallocate (heap : Heap T) (buffer : Buffer) :
    Runs sizeof tag heap [buffer] (heap.deallocate buffer.manager buffer.address) [] := by
  intro rest accounts
  rw [List.nil_append]
  rw [List.singleton_append] at accounts
  have apart : ∀ other ∈ rest, other.address ≠ buffer.address := fun _ => accounts.address_ne
  rw [Heap.deallocate, if_neg (accounts.nonnull buffer List.mem_cons_self)]
  refine ⟨⟨?_, ?_, ?_, ?_, ?_, ?_⟩, ?_⟩
  · have distinct := accounts.distinct
    rw [List.map_cons, List.nodup_cons] at distinct
    exact distinct.2
  · intro other member
    exact (List.mem_erase_of_ne (apart other member)).mpr (accounts.live other (List.mem_cons_of_mem _ member))
  · intro other member
    exact accounts.nonnull other (List.mem_cons_of_mem _ member)
  · intro holder address size
    have all := accounts.registered holder address size
    rw [List.exists_mem_cons_iff] at all
    dsimp only
    rw [MemoryManager.info_update_unregister]
    split
    · next here =>
        obtain ⟨rfl, rfl⟩ := here
        constructor
        -- nothing is left of the record of this buffer
        · intro found
          cases found
        · rintro ⟨other, member, -, same, -⟩
          exact absurd same (apart other member)
    · next elsewhere =>
        rw [all]
        constructor
        · rintro (⟨rfl, rfl, -⟩ | found)
          · exact absurd ⟨rfl, rfl⟩ elsewhere
          · exact found
        · exact .inr
  · intro other member
    exact accounts.registrar other (List.mem_cons_of_mem _ member)
  · intro release member
    rcases List.mem_append.mp member with old | new
    · exact accounts.releases release old
    · obtain rfl := List.mem_singleton.mp new
      exact (accounts.registrar buffer List.mem_cons_self).symm
  · intro other member
    exact Function.update_of_ne (apart other member) _ _

end Runs

end SoulLib.Memory
