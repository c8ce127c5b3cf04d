import SoulLib.Memory.TaggedHeap
import SoulLib.Semantics.Ownership
import SoulLib.Semantics.Runs

/-! Unique pointers whose blocks are registered.

The factory registers a block and the deleter unregisters it. A caller can take a
block out of a pointer and put one of its own into it, and neither of the two is
told to the manager.
-/

set_option autoImplicit false

namespace SoulLib.Memory.Smart

open SoulLib.Semantics (System)
open SoulLib.Semantics.Ownership

def makeRuntimeTag (view : String) : MemoryTag where
  hash := hashBytes (view.toList.map fun char => BitVec.ofNat 8 char.toNat)

/-- Whether the deleter has the manager; there is only one. -/
structure Deleter where
  manager : Bool := false
  deriving DecidableEq, Repr

/-- No address is the null pointer. -/
structure UniquePtr where
  ptr : Option Nat
  deleter : Deleter
  deriving DecidableEq, Repr

/-- The live blocks, the manager, the pointers by their names, and the blocks in the
hands of the caller. `created` lists the blocks that the factory made. -/
structure Scope where
  live : List Nat := []
  calls : Nat := 0
  manager : MemoryManager := {}
  pointers : Nat → Option UniquePtr := fun _ => none
  raw : List Nat := []
  created : List Nat := []

/-- `operator()`, which also deletes the block. -/
def Deleter.call (deleter : Deleter) (ptr : Option Nat) (scope : Scope) : Scope :=
  match ptr with
  | none => scope
  | some ptr =>
      if deleter.manager then
        { scope with
          manager := scope.manager.unregisterAllocation ptr
          live := scope.live.erase ptr
          created := scope.created.filter (· ≠ ptr) }
      else scope

namespace Scope

variable (scope : Scope)

/-- What the pointers that are alive own. -/
def owns (id : Nat) : Option Nat := (scope.pointers id).bind UniquePtr.ptr

def set (id : Nat) (pointer : Option UniquePtr) : Scope :=
  { scope with pointers := Function.update scope.pointers id pointer }

section Calls

variable (new : OperatorNew)

/-- Where `new` puts the next block. -/
def fresh : Nat := new.address scope.calls scope.live

/-- `new T`. -/
def allocate : Scope :=
  { scope with
    live := scope.fresh new :: scope.live
    calls := scope.calls + 1
    created := scope.created.filter (· ≠ scope.fresh new) }

/-- The factory, which `create` calls without further arguments. -/
def createWithArgs (sizeof : Nat) (typeName : String) (id : Nat) (tag : String) : Scope :=
  let tagValue := if tag.isEmpty then makeRuntimeTag typeName else makeRuntimeTag tag
  let raw := scope.fresh new
  let allocated := scope.allocate new
  { allocated with
    manager := scope.manager.registerAllocation raw sizeof tagValue
    created := raw :: allocated.created
    pointers := Function.update scope.pointers id (some ⟨some raw, { manager := true }⟩) }

end Calls

def release (id : Nat) (pointer : UniquePtr) : Option Nat × Scope :=
  (pointer.ptr, scope.set id (some { pointer with ptr := none }))

def reset (id : Nat) (pointer : UniquePtr) (ptr : Option Nat) : Scope :=
  pointer.deleter.call pointer.ptr (scope.set id (some { pointer with ptr }))

def moveConstruct (id source : Nat) (moved : UniquePtr) : Scope :=
  let (ptr, released) := scope.release source moved
  released.set id (some ⟨ptr, moved.deleter⟩)

/-- The pointer is reset to what the source releases and then takes its deleter. A
pointer that is moved to itself is found empty. -/
def moveAssign (id source : Nat) (moved : UniquePtr) : Option Scope :=
  let (ptr, released) := scope.release source moved
  (released.pointers id).map fun pointer => (released.reset id pointer ptr).set id (some ⟨ptr, moved.deleter⟩)

def destroy (id : Nat) (pointer : UniquePtr) : Scope := pointer.deleter.call pointer.ptr (scope.set id none)

end Scope

/-- What a program does with the pointers, and after them what it does with blocks in
its own hands. -/
inductive Call where
  | create (id : Nat) (tag : String)
  | moveConstruct (id source : Nat)
  | moveAssign (id source : Nat)
  | reset (id : Nat) (ptr : Option Nat)
  | release (id : Nat)
  | destroy (id : Nat)
  | new
  | registerAllocation (ptr size : Nat) (tag : MemoryTag)
  | delete (ptr : Nat)
  deriving DecidableEq, Repr

/-- A pointer is created under a name that is not in use, and the caller only passes
on what is in its hands. -/
def step (new : OperatorNew) (sizeof : Nat) (typeName : String) (scope : Scope) : Call → Option Scope
  | .create id tag =>
      if (scope.pointers id).isNone then some (scope.createWithArgs new sizeof typeName id tag) else none
  | .moveConstruct id source =>
      if (scope.pointers id).isNone then (scope.pointers source).map (scope.moveConstruct id source) else none
  | .moveAssign id source => (scope.pointers source).bind (scope.moveAssign id source)
  | .reset id ptr =>
      if ∀ raw ∈ ptr, raw ∈ scope.raw then
        (scope.pointers id).map fun pointer =>
          { scope.reset id pointer ptr with raw := scope.raw.filter (some · ≠ ptr) }
      else none
  | .release id =>
      (scope.pointers id).map fun pointer =>
        let (ptr, released) := scope.release id pointer
        { released with raw := ptr.toList ++ scope.raw }
  | .destroy id => (scope.pointers id).map (scope.destroy id)
  | .new => some { scope.allocate new with raw := scope.fresh new :: scope.raw }
  | .registerAllocation ptr size tag =>
      if ptr ∈ scope.raw then some { scope with manager := scope.manager.registerAllocation ptr size tag } else none
  | .delete ptr =>
      if ptr ∈ scope.raw then
        some { scope with live := scope.live.erase ptr, raw := scope.raw.filter (· ≠ ptr) }
      else none

def system (new : OperatorNew) (sizeof : Nat) (typeName : String) : System Scope Call where
  step := step new sizeof typeName

/-- What is owned is registered with the size of the type, and what is registered and
was created by the factory has exactly one owner. -/
structure Tracked (sizeof : Nat) (scope : Scope) : Prop where
  registered : ∀ id ptr, scope.owns id = some ptr → ∃ tag, scope.manager.info ptr = some ⟨sizeof, tag⟩
  owner : ∀ ptr ∈ scope.created, ∀ found, scope.manager.info ptr = some found → ∃! id, scope.owns id = some ptr

/-- A block that is put into a pointer is registered already, and none that the
factory made is released. -/
def Keeps (sizeof : Nat) (scope : Scope) : Call → Prop
  | .reset _ ptr => ∀ raw ∈ ptr, ∃ tag, scope.manager.info raw = some ⟨sizeof, tag⟩
  | .release id => ∀ ptr ∈ scope.owns id, ptr ∉ scope.created
  | _ => True

/-- Before the first pointer there may be other blocks, and others may be registered. -/
def begin (live : List Nat) (manager : MemoryManager) : Scope := { live, manager }

variable {new : OperatorNew} {sizeof : Nat} {typeName : String} {scope scope' : Scope} {id source ptr : Nat}
  {pointer moved : UniquePtr}

namespace Scope

@[simp] theorem set_pointers (pointer : Option UniquePtr) :
    (scope.set id pointer).pointers = Function.update scope.pointers id pointer := rfl

theorem owns_set (pointer : Option UniquePtr) :
    (scope.set id pointer).owns = Function.update scope.owns id (pointer.bind UniquePtr.ptr) := by
  funext other
  by_cases same : other = id
  · subst same
    simp [owns]
  · simp [owns, same]

theorem owns_createWithArgs (new : OperatorNew) (sizeof : Nat) (typeName tag : String) :
    (scope.createWithArgs new sizeof typeName id tag).owns =
      Function.update scope.owns id (some (scope.fresh new)) := owns_set _

theorem call_set (deleter : Deleter) (ptr : Option Nat) (pointer : Option UniquePtr) :
    deleter.call ptr (scope.set id pointer) = (deleter.call ptr scope).set id pointer := by
  unfold Deleter.call
  split
  · rfl
  · split <;> rfl

theorem call_keeps (deleter : Deleter) (ptr : Option Nat) :
    (deleter.call ptr scope).pointers = scope.pointers ∧ (deleter.call ptr scope).raw = scope.raw := by
  unfold Deleter.call
  split
  · exact ⟨rfl, rfl⟩
  · split <;> exact ⟨rfl, rfl⟩

theorem owns_call (deleter : Deleter) (ptr : Option Nat) : (deleter.call ptr scope).owns = scope.owns := by
  funext id
  rw [owns, owns, (call_keeps deleter ptr).1]

theorem owns_of_pointers (here : scope.pointers id = some pointer) : scope.owns id = pointer.ptr := by
  rw [owns, here]
  rfl

theorem owns_of_isNone (unused : (scope.pointers id).isNone) : scope.owns id = none := by
  rw [owns, Option.isNone_iff_eq_none.mp unused]
  rfl

end Scope

def Managed (scope : Scope) : Prop :=
  ∀ id pointer, scope.pointers id = some pointer → pointer.deleter = { manager := true }

theorem Managed.set (managed : Managed scope) {pointer : Option UniquePtr}
    (given : ∀ present, pointer = some present → present.deleter = { manager := true }) :
    Managed (scope.set id pointer) := by
  intro other present here
  by_cases same : other = id
  · rw [Scope.set_pointers, same, Function.update_self] at here
    exact given present here
  · rw [Scope.set_pointers, Function.update_of_ne same] at here
    exact managed other present here

theorem Managed.set_some (managed : Managed scope) (given : pointer.deleter = { manager := true }) :
    Managed (scope.set id (some pointer)) := by
  refine managed.set ?_
  rintro present ⟨⟩
  exact given

theorem Managed.call (managed : Managed scope) (deleter : Deleter) (ptr : Option Nat) :
    Managed (deleter.call ptr scope) := by
  intro other present here
  rw [(Scope.call_keeps deleter ptr).1] at here
  exact managed other present here

theorem Managed.reset (managed : Managed scope) (given : pointer.deleter = { manager := true }) (ptr : Option Nat) :
    Managed (scope.reset id pointer ptr) := by
  have kept : Managed (scope.set id (some { pointer with ptr })) := managed.set_some given
  exact kept.call _ _

/-- What holds in every scope, whatever was called. -/
structure Sound (scope : Scope) : Prop where
  managed : Managed scope
  exclusive : Exclusive scope.owns
  live : ∀ ptr, Owned scope.owns ptr → ptr ∈ scope.live
  raw : ∀ ptr ∈ scope.raw, ptr ∈ scope.live ∧ ¬Owned scope.owns ptr
  created : ∀ ptr ∈ scope.created, ∃ found, scope.manager.info ptr = some found

/-- In a sound scope it is enough to know which blocks are owned. -/
theorem Sound.tracked_iff (sound : Sound scope) :
    Tracked sizeof scope ↔
      (∀ ptr, Owned scope.owns ptr → ∃ tag, scope.manager.info ptr = some ⟨sizeof, tag⟩) ∧
        ∀ ptr ∈ scope.created, Owned scope.owns ptr := by
  constructor
  · intro tracked
    refine ⟨fun ptr ⟨id, here⟩ => tracked.registered id ptr here, ?_⟩
    intro ptr made
    obtain ⟨found, info⟩ := sound.created ptr made
    exact sound.exclusive.existsUnique_iff.mp (tracked.owner ptr made found info)
  · rintro ⟨registered, owned⟩
    refine ⟨fun id ptr here => registered ptr ⟨id, here⟩, ?_⟩
    intro ptr made _ _
    exact sound.exclusive.existsUnique_iff.mpr (owned ptr made)

/-- The deleter of a pointer has its block deleted, and if something is given to a
pointer then it was in the hands of the caller. -/
structure Replaces (scope scope' : Scope) (id : Nat) (given : Option Nat) : Prop where
  managed : Managed scope'
  exclusive : Exclusive scope'.owns
  held : ∀ ptr ∈ given, ptr ∈ scope.raw
  owned : ∀ ptr, Owned scope'.owns ptr ↔ given = some ptr ∨ Owned scope.owns ptr ∧ scope.owns id ≠ some ptr
  info : ∀ ptr, scope'.manager.info ptr = if scope.owns id = some ptr then none else scope.manager.info ptr
  live : ∀ ptr ∈ scope.live, scope.owns id ≠ some ptr → ptr ∈ scope'.live
  raw : ∀ ptr ∈ scope'.raw, ptr ∈ scope.raw ∧ given ≠ some ptr
  created : ∀ ptr, ptr ∈ scope'.created ↔ ptr ∈ scope.created ∧ scope.owns id ≠ some ptr

theorem Sound.not_owned (sound : Sound scope) (held : ptr ∈ scope.raw) (id : Nat) : scope.owns id ≠ some ptr :=
  fun owned => (sound.raw ptr held).2 ⟨id, owned⟩

section Replacing

variable {given : Option Nat}

theorem Replaces.sound (replaces : Replaces scope scope' id given) (sound : Sound scope) : Sound scope' where
  managed := replaces.managed
  exclusive := replaces.exclusive
  live := by
    intro ptr now
    rcases (replaces.owned ptr).mp now with put | ⟨before, kept⟩
    · have held := replaces.held ptr put
      exact replaces.live ptr (sound.raw ptr held).1 (sound.not_owned held id)
    · exact replaces.live ptr (sound.live ptr before) kept
  raw := by
    intro ptr member
    obtain ⟨before, differs⟩ := replaces.raw ptr member
    obtain ⟨alive, unowned⟩ := sound.raw ptr before
    refine ⟨replaces.live ptr alive (sound.not_owned before id), ?_⟩
    intro now
    rcases (replaces.owned ptr).mp now with put | ⟨stays, -⟩
    · exact differs put
    · exact unowned stays
  created := by
    intro ptr made
    obtain ⟨before, kept⟩ := (replaces.created ptr).mp made
    rw [replaces.info, if_neg kept]
    exact sound.created ptr before

/-- Only what was put into a pointer need not be registered. -/
theorem Replaces.tracked_iff (replaces : Replaces scope scope' id given) (sound : Sound scope)
    (tracked : Tracked sizeof scope) :
    Tracked sizeof scope' ↔ ∀ ptr ∈ given, ∃ tag, scope.manager.info ptr = some ⟨sizeof, tag⟩ := by
  rw [(replaces.sound sound).tracked_iff]
  have kept (ptr : Nat) (put : given = some ptr) := sound.not_owned (replaces.held ptr put) id
  obtain ⟨registered, made⟩ := sound.tracked_iff.mp tracked
  constructor
  · rintro ⟨after, -⟩ ptr put
    have known := after ptr ((replaces.owned ptr).mpr (.inl put))
    rwa [replaces.info, if_neg (kept ptr put)] at known
  · intro known
    refine ⟨?_, ?_⟩
    · intro ptr now
      rw [replaces.info]
      rcases (replaces.owned ptr).mp now with put | ⟨before, stays⟩
      · rw [if_neg (kept ptr put)]
        exact known ptr put
      · rw [if_neg stays]
        exact registered ptr before
    · intro ptr after
      obtain ⟨before, stays⟩ := (replaces.created ptr).mp after
      exact (replaces.owned ptr).mpr (.inr ⟨made ptr before, stays⟩)

/-- What the deleter does to the books; how the pointers are changed is left open. -/
theorem replaces_of_call {called : Scope}
    (isCall : ({ manager := true } : Deleter).call (scope.owns id) scope = called)
    (rest : scope'.manager = called.manager ∧ scope'.live = called.live ∧ scope'.created = called.created)
    (managed : Managed scope') (exclusive : Exclusive scope'.owns) (held : ∀ ptr ∈ given, ptr ∈ scope.raw)
    (owned : ∀ ptr, Owned scope'.owns ptr ↔ given = some ptr ∨ Owned scope.owns ptr ∧ scope.owns id ≠ some ptr)
    (raw : ∀ ptr ∈ scope'.raw, ptr ∈ scope.raw ∧ given ≠ some ptr) : Replaces scope scope' id given := by
  obtain ⟨manager, live, created⟩ := rest
  subst isCall
  refine ⟨managed, exclusive, held, owned, ?_, ?_, raw, ?_⟩
  · intro ptr
    rw [manager]
    cases scope.owns id with
    | none => rfl
    | some deleted =>
        simp only [Option.some.injEq, @eq_comm _ deleted]
        exact scope.manager.info_unregisterAllocation deleted ptr
  · intro ptr alive kept
    rw [live]
    cases mine : scope.owns id with
    | none => exact alive
    | some deleted =>
        have differs : ptr ≠ deleted := fun same => kept (same ▸ mine)
        exact (List.mem_erase_of_ne differs).mpr alive
  · intro ptr
    rw [created]
    cases scope.owns id with
    | none => simp [Deleter.call]
    | some deleted =>
        show ptr ∈ scope.created.filter (· ≠ deleted) ↔ _
        rw [List.mem_filter, decide_eq_true_iff, ne_eq, ne_eq, Option.some.injEq, @eq_comm _ deleted]

theorem Sound.replaces_reset (sound : Sound scope) (here : scope.pointers id = some pointer)
    (held : ∀ raw ∈ given, raw ∈ scope.raw) :
    Replaces scope { scope.reset id pointer given with raw := scope.raw.filter (some · ≠ given) } id given := by
  have managed := sound.managed id pointer here
  have owns : (scope.reset id pointer given).owns = Function.update scope.owns id given := by
    rw [Scope.reset, Scope.owns_call, Scope.owns_set]
    rfl
  refine replaces_of_call rfl ?_ ?_ ?_ held ?_ ?_
  · rw [Scope.reset, managed, Scope.call_set, Scope.owns_of_pointers here]
    exact ⟨rfl, rfl, rfl⟩
  · exact sound.managed.reset managed given
  · show Exclusive (scope.reset id pointer given).owns
    rw [owns]
    exact sound.exclusive.update fun raw put => (sound.raw raw (held raw put)).2
  · intro ptr
    show Owned (scope.reset id pointer given).owns ptr ↔ _
    rw [owns, sound.exclusive.owned_update]
  · intro ptr member
    obtain ⟨before, differs⟩ := List.mem_filter.mp member
    exact ⟨before, (of_decide_eq_true differs).symm⟩

theorem replaces_none {called : Scope}
    (isCall : ({ manager := true } : Deleter).call (scope.owns id) scope = called)
    (rest : scope'.manager = called.manager ∧ scope'.live = called.live ∧ scope'.created = called.created)
    (managed : Managed scope') (exclusive : Exclusive scope'.owns)
    (owned : ∀ ptr, Owned scope'.owns ptr ↔ Owned scope.owns ptr ∧ scope.owns id ≠ some ptr)
    (raw : scope'.raw = scope.raw) : Replaces scope scope' id none := by
  refine replaces_of_call isCall rest managed exclusive ?_ ?_ ?_
  · intro ptr nothing
    cases nothing
  · intro ptr
    rw [owned, or_iff_right (Option.some_ne_none _).symm]
  · intro ptr member
    rw [raw] at member
    exact ⟨member, (Option.some_ne_none _).symm⟩

theorem Sound.replaces_destroy (sound : Sound scope) (here : scope.pointers id = some pointer) :
    Replaces scope (scope.destroy id pointer) id none := by
  have managed := sound.managed id pointer here
  have owns : (scope.destroy id pointer).owns = Function.update scope.owns id none := by
    rw [Scope.destroy, Scope.owns_call, Scope.owns_set]
    rfl
  refine replaces_none rfl ?_ ?_ ?_ ?_ ?_
  · rw [Scope.destroy, managed, Scope.call_set, Scope.owns_of_pointers here]
    exact ⟨rfl, rfl, rfl⟩
  · have kept : Managed (scope.set id none) := by
      refine sound.managed.set ?_
      intro present nothing
      cases nothing
    exact kept.call _ _
  · rw [owns]
    exact sound.exclusive.empty
  · intro ptr
    rw [owns, sound.exclusive.owned_empty]
  · exact (Scope.call_keeps _ _).2

theorem Sound.replaces_moveConstruct (sound : Sound scope) (unused : (scope.pointers id).isNone)
    (here : scope.pointers source = some moved) : Replaces scope (scope.moveConstruct id source moved) id none := by
  have differ : id ≠ source := by
    rintro rfl
    rw [here] at unused
    cases unused
  have managed := sound.managed source moved here
  have owns : (scope.moveConstruct id source moved).owns = move scope.owns id source := by
    rw [Scope.moveConstruct, Scope.release, Scope.owns_set, Scope.owns_set, move, Scope.owns_of_pointers here]
    rfl
  refine replaces_none rfl ?_ ?_ ?_ ?_ rfl
  · rw [Scope.owns_of_isNone unused]
    exact ⟨rfl, rfl, rfl⟩
  · exact Managed.set_some (sound.managed.set_some managed) managed
  · rw [owns]
    exact sound.exclusive.move
  · intro ptr
    rw [owns, sound.exclusive.owned_move differ]

theorem Sound.replaces_moveAssign (sound : Sound scope) (differ : id ≠ source)
    (here : scope.pointers source = some moved) (returned : scope.moveAssign id source moved = some scope') :
    Replaces scope scope' id none := by
  simp only [Scope.moveAssign, Scope.release] at returned
  obtain ⟨pointer, there, same⟩ := Option.map_eq_some_iff.mp returned
  have target : scope.pointers id = some pointer := by
    rw [← there]
    exact (Function.update_of_ne differ _ _).symm
  have managed := sound.managed id pointer target
  have taken := sound.managed source moved here
  have owns : scope'.owns = move scope.owns id source := by
    rw [← same, Scope.reset, Scope.owns_set, Scope.owns_call, Scope.owns_set, Function.update_idem, Scope.owns_set,
      move, Scope.owns_of_pointers here]
    rfl
  refine replaces_none rfl ?_ ?_ ?_ ?_ ?_
  · rw [← same, Scope.reset, managed, Scope.call_set, Scope.call_set, Scope.owns_of_pointers target]
    exact ⟨rfl, rfl, rfl⟩
  · rw [← same]
    have released : Managed (scope.set source (some { moved with ptr := none })) := sound.managed.set_some taken
    exact (released.reset managed moved.ptr).set_some taken
  · rw [owns]
    exact sound.exclusive.move
  · intro ptr
    rw [owns, sound.exclusive.owned_move differ]
  · rw [← same]
    exact (Scope.call_keeps _ _).2

end Replacing

theorem Scope.moveAssign_self (here : scope.pointers id = some moved) : scope.moveAssign id id moved = some scope := by
  have found : (scope.release id moved).2.pointers id = some { moved with ptr := none } := Function.update_self _ _ _
  rw [Scope.moveAssign]
  show ((scope.release id moved).2.pointers id).map _ = _
  rw [found, Option.map_some, Option.some.injEq]
  show Scope.set (Scope.set (Scope.set scope id _) id _) id (some moved) = scope
  simp only [Scope.set, Function.update_idem]
  rw [← here, Function.update_eq_self]

section Blocks

theorem fresh_not_mem (new : OperatorNew) : scope.fresh new ∉ scope.live := new.fresh _ _

theorem Sound.fresh_not_owned (sound : Sound scope) (new : OperatorNew) : ¬Owned scope.owns (scope.fresh new) :=
  fun owned => fresh_not_mem new (sound.live _ owned)

theorem Sound.owned_release (sound : Sound scope) :
    Owned { (scope.release id pointer).2 with raw := pointer.ptr.toList ++ scope.raw : Scope }.owns ptr ↔
      Owned scope.owns ptr ∧ scope.owns id ≠ some ptr := by
  rw [← sound.exclusive.owned_empty]
  exact iff_of_eq (congrArg (Owned · ptr) (Scope.owns_set _))

theorem Sound.release (sound : Sound scope) (here : scope.pointers id = some pointer) :
    Sound { (scope.release id pointer).2 with raw := pointer.ptr.toList ++ scope.raw } where
  managed := Managed.set_some sound.managed (sound.managed id pointer here)
  exclusive := by
    show Exclusive (scope.release id pointer).2.owns
    rw [Scope.release, Scope.owns_set]
    exact sound.exclusive.empty
  live := fun ptr owned => sound.live ptr (sound.owned_release.mp owned).1
  raw := by
    intro ptr member
    rw [sound.owned_release]
    rcases List.mem_append.mp member with released | before
    · have mine : scope.owns id = some ptr := (Scope.owns_of_pointers here).trans (Option.mem_toList.mp released)
      exact ⟨sound.live ptr ⟨id, mine⟩, fun owned => owned.2 mine⟩
    · obtain ⟨alive, unowned⟩ := sound.raw ptr before
      exact ⟨alive, fun owned => unowned owned.1⟩
  created := sound.created

theorem Sound.tracked_release (sound : Sound scope) (tracked : Tracked sizeof scope)
    (here : scope.pointers id = some pointer) :
    Tracked sizeof { (scope.release id pointer).2 with raw := pointer.ptr.toList ++ scope.raw } ↔
      ∀ ptr ∈ scope.owns id, ptr ∉ scope.created := by
  obtain ⟨registered, made⟩ := sound.tracked_iff.mp tracked
  rw [(sound.release here).tracked_iff]
  simp only [sound.owned_release]
  constructor
  · rintro ⟨-, owned⟩ ptr mine member
    exact (owned ptr member).2 mine
  · intro unmade
    refine ⟨fun ptr owned => registered ptr owned.1, ?_⟩
    intro ptr member
    exact ⟨made ptr member, fun mine => unmade ptr mine member⟩

theorem Sound.allocate (sound : Sound scope) (new : OperatorNew) :
    Sound { scope.allocate new with raw := scope.fresh new :: scope.raw } where
  managed := sound.managed
  exclusive := sound.exclusive
  live := fun ptr owned => List.mem_cons_of_mem _ (sound.live ptr owned)
  raw := by
    intro ptr member
    rcases List.mem_cons.mp member with rfl | before
    · exact ⟨List.mem_cons_self, sound.fresh_not_owned new⟩
    · obtain ⟨alive, unowned⟩ := sound.raw ptr before
      exact ⟨List.mem_cons_of_mem _ alive, unowned⟩
  created := fun ptr member => sound.created ptr (List.mem_filter.mp member).1

theorem Sound.tracked_allocate (sound : Sound scope) (tracked : Tracked sizeof scope) (new : OperatorNew) :
    Tracked sizeof { scope.allocate new with raw := scope.fresh new :: scope.raw } := by
  obtain ⟨registered, made⟩ := sound.tracked_iff.mp tracked
  exact (sound.allocate new).tracked_iff.mpr ⟨registered, fun ptr member => made ptr (List.mem_filter.mp member).1⟩

section Creating

variable (unused : (scope.pointers id).isNone) {tag : String}

include unused

theorem Sound.owned_create (sound : Sound scope) :
    Owned (scope.createWithArgs new sizeof typeName id tag).owns ptr ↔
      scope.fresh new = ptr ∨ Owned scope.owns ptr := by
  rw [Scope.owns_createWithArgs, sound.exclusive.owned_update, Scope.owns_of_isNone unused, Option.some.injEq,
    and_iff_left (Option.some_ne_none _).symm]

theorem Sound.create (sound : Sound scope) : Sound (scope.createWithArgs new sizeof typeName id tag) where
  managed := Managed.set_some sound.managed rfl
  exclusive := by
    rw [Scope.owns_createWithArgs]
    refine sound.exclusive.update ?_
    rintro made ⟨⟩
    exact sound.fresh_not_owned new
  live := by
    intro ptr owned
    rcases (sound.owned_create unused).mp owned with rfl | before
    · exact List.mem_cons_self
    · exact List.mem_cons_of_mem _ (sound.live ptr before)
  raw := by
    intro ptr member
    obtain ⟨alive, unowned⟩ := sound.raw ptr member
    refine ⟨List.mem_cons_of_mem _ alive, ?_⟩
    intro owned
    rcases (sound.owned_create unused).mp owned with rfl | before
    · exact fresh_not_mem new alive
    · exact unowned before
  created := by
    intro ptr member
    show ∃ found, (scope.manager.registerAllocation _ _ _).info ptr = some found
    rw [MemoryManager.info_registerAllocation]
    split
    · exact ⟨_, rfl⟩
    · next elsewhere =>
        rcases List.mem_cons.mp member with here | before
        · exact absurd here elsewhere
        · exact sound.created ptr (List.mem_filter.mp before).1

theorem Sound.tracked_create (sound : Sound scope) (tracked : Tracked sizeof scope) :
    Tracked sizeof (scope.createWithArgs new sizeof typeName id tag) := by
  obtain ⟨registered, made⟩ := sound.tracked_iff.mp tracked
  refine (sound.create unused).tracked_iff.mpr ⟨?_, ?_⟩
  · intro ptr owned
    show ∃ tag, (scope.manager.registerAllocation _ _ _).info ptr = some ⟨sizeof, tag⟩
    rw [MemoryManager.info_registerAllocation]
    split
    · exact ⟨_, rfl⟩
    · next elsewhere =>
        rcases (sound.owned_create unused).mp owned with here | before
        · exact absurd here.symm elsewhere
        · exact registered ptr before
  · intro ptr member
    rcases List.mem_cons.mp member with rfl | before
    · exact (sound.owned_create unused).mpr (.inl rfl)
    · exact (sound.owned_create unused).mpr (.inr (made ptr (List.mem_filter.mp before).1))

end Creating

theorem Sound.registerAllocation (sound : Sound scope) (size : Nat) (tag : MemoryTag) :
    Sound { scope with manager := scope.manager.registerAllocation ptr size tag } where
  managed := sound.managed
  exclusive := sound.exclusive
  live := sound.live
  raw := sound.raw
  created := by
    intro other member
    rw [MemoryManager.info_registerAllocation]
    split
    · exact ⟨_, rfl⟩
    · exact sound.created other member

theorem Sound.tracked_registerAllocation (sound : Sound scope) (tracked : Tracked sizeof scope)
    (held : ptr ∈ scope.raw) (size : Nat) (tag : MemoryTag) :
    Tracked sizeof { scope with manager := scope.manager.registerAllocation ptr size tag } := by
  obtain ⟨registered, made⟩ := sound.tracked_iff.mp tracked
  refine (sound.registerAllocation size tag).tracked_iff.mpr ⟨?_, made⟩
  intro other owned
  have elsewhere : other ≠ ptr := fun same => (sound.raw ptr held).2 (same ▸ owned)
  rw [MemoryManager.info_registerAllocation, if_neg elsewhere]
  exact registered other owned

theorem Sound.delete (sound : Sound scope) (held : ptr ∈ scope.raw) :
    Sound { scope with live := scope.live.erase ptr, raw := scope.raw.filter (· ≠ ptr) } where
  managed := sound.managed
  exclusive := sound.exclusive
  live := by
    intro other owned
    have elsewhere : other ≠ ptr := fun same => (sound.raw ptr held).2 (same ▸ owned)
    exact (List.mem_erase_of_ne elsewhere).mpr (sound.live other owned)
  raw := by
    intro other member
    obtain ⟨before, elsewhere⟩ := List.mem_filter.mp member
    obtain ⟨alive, unowned⟩ := sound.raw other before
    exact ⟨(List.mem_erase_of_ne (of_decide_eq_true elsewhere)).mpr alive, unowned⟩
  created := sound.created

theorem Sound.tracked_delete (sound : Sound scope) (tracked : Tracked sizeof scope) (held : ptr ∈ scope.raw) :
    Tracked sizeof { scope with live := scope.live.erase ptr, raw := scope.raw.filter (· ≠ ptr) } :=
  (sound.delete held).tracked_iff.mpr (sound.tracked_iff.mp tracked)

end Blocks

/-- What a call must do with a sound scope. -/
def Settles (sizeof : Nat) (scope : Scope) (call : Call) (scope' : Scope) : Prop :=
  Sound scope' ∧ (Tracked sizeof scope → (Tracked sizeof scope' ↔ Keeps sizeof scope call))

theorem Replaces.settles {given : Option Nat} {call : Call} (replaces : Replaces scope scope' id given)
    (sound : Sound scope)
    (keeps : Keeps sizeof scope call ↔ ∀ ptr ∈ given, ∃ tag, scope.manager.info ptr = some ⟨sizeof, tag⟩) :
    Settles sizeof scope call scope' := by
  refine ⟨replaces.sound sound, fun tracked => ?_⟩
  rw [keeps]
  exact replaces.tracked_iff sound tracked

theorem Replaces.settles_of_none {call : Call} (replaces : Replaces scope scope' id none) (sound : Sound scope)
    (keeps : Keeps sizeof scope call) : Settles sizeof scope call scope' := by
  refine replaces.settles sound (iff_of_true keeps ?_)
  intro ptr nothing
  cases nothing

theorem Sound.step (sound : Sound scope) {call : Call} (taken : step new sizeof typeName scope call = some scope') :
    Settles sizeof scope call scope' := by
  cases call with
  | create id tag =>
      obtain ⟨unused, same⟩ := Option.ite_none_right_eq_some.mp taken
      cases same
      exact ⟨sound.create unused, fun tracked => iff_of_true (sound.tracked_create unused tracked) trivial⟩
  | moveConstruct id source =>
      obtain ⟨unused, mapped⟩ := Option.ite_none_right_eq_some.mp taken
      obtain ⟨moved, here, rfl⟩ := Option.map_eq_some_iff.mp mapped
      exact (sound.replaces_moveConstruct unused here).settles_of_none sound trivial
  | moveAssign id source =>
      obtain ⟨moved, here, returned⟩ := Option.bind_eq_some_iff.mp taken
      -- self-assignment returns at once
      by_cases same : id = source
      · subst same
        rw [Scope.moveAssign_self here] at returned
        cases returned
        exact ⟨sound, fun tracked => iff_of_true tracked trivial⟩
      · exact (sound.replaces_moveAssign same here returned).settles_of_none sound trivial
  | reset id ptr =>
      obtain ⟨held, mapped⟩ := Option.ite_none_right_eq_some.mp taken
      obtain ⟨pointer, here, rfl⟩ := Option.map_eq_some_iff.mp mapped
      exact (sound.replaces_reset here held).settles sound Iff.rfl
  | release id =>
      obtain ⟨pointer, here, rfl⟩ := Option.map_eq_some_iff.mp taken
      exact ⟨sound.release here, fun tracked => sound.tracked_release tracked here⟩
  | destroy id =>
      obtain ⟨pointer, here, rfl⟩ := Option.map_eq_some_iff.mp taken
      exact (sound.replaces_destroy here).settles_of_none sound trivial
  | new =>
      cases taken
      exact ⟨sound.allocate new, fun tracked => iff_of_true (sound.tracked_allocate tracked new) trivial⟩
  | registerAllocation ptr size tag =>
      obtain ⟨held, same⟩ := Option.ite_none_right_eq_some.mp taken
      cases same
      exact ⟨sound.registerAllocation size tag,
        fun tracked => iff_of_true (sound.tracked_registerAllocation tracked held size tag) trivial⟩
  | delete ptr =>
      obtain ⟨held, same⟩ := Option.ite_none_right_eq_some.mp taken
      cases same
      exact ⟨sound.delete held, fun tracked => iff_of_true (sound.tracked_delete tracked held) trivial⟩

theorem sound_begin (live : List Nat) (manager : MemoryManager) : Sound (begin live manager) where
  managed := by
    intro id pointer here
    cases here
  exclusive := by
    intro id other ptr here
    cases here
  live := by
    rintro ptr ⟨id, here⟩
    cases here
  raw := fun _ member => absurd member List.not_mem_nil
  created := fun _ member => absurd member List.not_mem_nil

theorem tracked_begin (live : List Nat) (manager : MemoryManager) : Tracked sizeof (begin live manager) where
  registered := by
    intro id ptr here
    cases here
  owner := fun _ member => absurd member List.not_mem_nil

/-- What is owned stays registered, and what the factory made owned, exactly in the runs
that put only registered blocks into pointers and release none that the factory made. -/
theorem tracked_throughout_iff (new : OperatorNew) (sizeof : Nat) (typeName : String) (live : List Nat)
    (manager : MemoryManager) (calls : List Call) :
    (system new sizeof typeName).Throughout (Tracked sizeof) (begin live manager) calls ↔
      (system new sizeof typeName).Admitted (Keeps sizeof) (begin live manager) calls :=
  System.throughout_iff_admitted (fun _ _ _ sound taken => (sound.step taken).1)
    (fun _ _ _ sound tracked taken => (sound.step taken).2 tracked) (sound_begin live manager)
    (tracked_begin live manager) calls

/-- A block that is released stays registered without an owner, and a fresh block that is
put into a pointer is owned without being registered. -/
theorem released_and_adopted_untracked :
    ¬(system .above 8 "i").Throughout (Tracked 8) (begin [] {}) [.create 0 "", .release 0] ∧
      ¬(system .above 8 "i").Throughout (Tracked 8) (begin [] {}) [.create 0 "", .new, .reset 0 (some 2)] := by
  constructor
  · intro along
    have tracked : Tracked 8 _ := (along.2 _ rfl).2 _ rfl
    obtain ⟨id, here, -⟩ := tracked.owner 1 List.mem_cons_self _ rfl
    by_cases same : id = 0
    · subst same
      cases here
    · change (Function.update (Function.update (fun _ => none) 0 _) 0 _ id).bind UniquePtr.ptr = some 1 at here
      rw [Function.update_of_ne same, Function.update_of_ne same] at here
      cases here
  · intro along
    have tracked : Tracked 8 _ := ((along.2 _ rfl).2 _ rfl).2 _ rfl
    obtain ⟨tag, info⟩ := tracked.registered 0 2 rfl
    cases info

end SoulLib.Memory.Smart
