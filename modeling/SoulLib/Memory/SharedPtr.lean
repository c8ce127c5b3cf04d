import SoulLib.Memory.UniquePtr

/-! Shared pointers whose blocks are registered, and the registry of managers.

The factory registers a block with the manager that the registry has at that time,
and the deleter keeps that manager. A handle is a position in a list: an empty
pointer and one that was destroyed own nothing alike. Other code may register and
delete blocks of its own with any manager. The deleter runs when no handle owns the
control block any more.
-/

set_option autoImplicit false

namespace SoulLib.Memory.Smart

open SoulLib.Semantics (System)

/-- `manager` is what the deleter has captured; a pointer made elsewhere has another deleter. `info` records
what was registered. -/
structure Control where
  object : Nat
  manager : Option Nat
  info : AllocationInfo
  alive : Bool := true
  deriving DecidableEq, Repr

/-- `registry` is the manager in the registry, of which the first one is the default. `foreign` records which
registrations are not the factory's. -/
structure Sharing where
  live : List Nat := []
  calls : Nat := 0
  managers : Nat → MemoryManager := fun _ => {}
  registry : Option Nat := none
  controls : List Control := []
  strong : List (Option Nat) := []
  weak : List (Option Nat) := []
  foreign : Nat → Nat → Bool := fun _ _ => false

namespace MemoryRegistry

variable (scope : Sharing)

def get : Nat × Sharing :=
  match scope.registry with
  | some manager => (manager, scope)
  | none => (0, { scope with registry := some 0 })

def set (manager : Nat) : Sharing := { scope with registry := some manager }

def reset : Sharing := { scope with registry := none }

end MemoryRegistry

namespace Sharing

variable (scope : Sharing)

def useCount (control : Nat) : Nat := scope.strong.count (some control)

def push (handle : Option Nat) : Sharing := { scope with strong := scope.strong ++ [handle] }

/-- The deleter. -/
def dispose (index : Nat) (control : Control) : Sharing :=
  { scope with
    managers :=
      match control.manager with
      | none => scope.managers
      | some manager =>
          Function.update scope.managers manager ((scope.managers manager).unregisterAllocation control.object)
    live := scope.live.erase control.object
    controls := scope.controls.set index { control with alive := false } }

/-- A handle owns something else from now on; what nothing owns any more is disposed of. -/
def replace (handle : Nat) (given : Option Nat) : Option Sharing := do
  let before ← scope.strong[handle]?
  let replaced := { scope with strong := scope.strong.set handle given }
  match before with
  | none => return replaced
  | some index =>
      if replaced.useCount index = 0 then
        let control ← scope.controls[index]?
        return replaced.dispose index control
      else return replaced

/-- `new T`, a control block for it and a handle. -/
def make (new : OperatorNew) (manager : Option Nat) (info : AllocationInfo) : Sharing :=
  let raw := new.address scope.calls scope.live
  { scope with
    live := raw :: scope.live
    calls := scope.calls + 1
    controls := scope.controls ++ [{ object := raw, manager, info }]
    strong := scope.strong ++ [some scope.controls.length] }

def createWithArgs (new : OperatorNew) (sizeof : Nat) (typeName tag : String) : Sharing :=
  let (manager, scope) := MemoryRegistry.get scope
  let tagValue := if tag.isEmpty then makeRuntimeTag typeName else makeRuntimeTag tag
  let raw := new.address scope.calls scope.live
  let made := scope.make new (some manager) ⟨sizeof, tagValue⟩
  { made with
    managers :=
      Function.update scope.managers manager ((scope.managers manager).registerAllocation raw sizeof tagValue)
    foreign := fun holder ptr => scope.foreign holder ptr && !(holder == manager && ptr == raw) }

def expired (handle : Nat) : Bool :=
  match scope.weak[handle]?.join with
  | none => true
  | some control => scope.useCount control == 0

def lock (handle : Nat) : Option Nat := if scope.expired handle then none else scope.weak[handle]?.join

/-- The address is that of an object that handles own. -/
def Holds (ptr : Nat) : Prop := ∃ control ∈ scope.controls, control.alive = true ∧ control.object = ptr

instance (ptr : Nat) : Decidable (scope.Holds ptr) :=
  inferInstanceAs (Decidable (∃ control ∈ scope.controls, control.alive = true ∧ control.object = ptr))

end Sharing

/-- What a program does with shared and weak pointers and the registry, and after them what other code does. -/
inductive SharedCall where
  | createWithArgs (sizeof : Nat) (typeName tag : String)
  | adopt (info : AllocationInfo)
  | null
  | copy (source : Nat)
  | move (source : Nat)
  | copyAssign (handle source : Nat)
  | moveAssign (handle source : Nat)
  | destroy (handle : Nat)
  | getWeak (source : Nat)
  | copyWeak (source : Nat)
  | destroyWeak (handle : Nat)
  | lock (handle : Nat)
  | get
  | set (manager : Nat)
  | reset
  | register (manager ptr size : Nat) (tag : MemoryTag)
  | unregister (manager ptr : Nat)
  | new
  | delete (ptr : Nat)
  deriving DecidableEq, Repr

namespace Sharing

/-- Other code keeps its hands off the objects of shared pointers. -/
def step (new : OperatorNew) (scope : Sharing) : SharedCall → Option Sharing
  | .createWithArgs sizeof typeName tag => some (scope.createWithArgs new sizeof typeName tag)
  | .adopt info => some (scope.make new none info)
  | .null => some (scope.push none)
  | .copy source => scope.strong[source]?.map scope.push
  | .move source => do
      let moved ← scope.strong[source]?
      return { scope with strong := scope.strong.set source none ++ [moved] }
  | .copyAssign handle source => scope.strong[source]?.bind (scope.replace handle)
  | .moveAssign handle source =>
      if handle = source then some scope
      else do
        let moved ← scope.strong[source]?
        let replaced ← scope.replace handle moved
        return { replaced with strong := replaced.strong.set source none }
  | .destroy handle => scope.replace handle none
  | .getWeak source => scope.strong[source]?.map fun control => { scope with weak := scope.weak ++ [control] }
  | .copyWeak source => scope.weak[source]?.map fun control => { scope with weak := scope.weak ++ [control] }
  | .destroyWeak handle => some { scope with weak := scope.weak.set handle none }
  | .lock handle => some (scope.push (scope.lock handle))
  | .get => some (MemoryRegistry.get scope).2
  | .set manager => some (MemoryRegistry.set scope manager)
  | .reset => some (MemoryRegistry.reset scope)
  | .register manager ptr size tag =>
      if scope.Holds ptr then none
      else some { scope with
        managers := Function.update scope.managers manager ((scope.managers manager).registerAllocation ptr size tag)
        foreign := Function.update scope.foreign manager (Function.update (scope.foreign manager) ptr true) }
  | .unregister manager ptr =>
      if scope.Holds ptr then none
      else some { scope with
        managers := Function.update scope.managers manager ((scope.managers manager).unregisterAllocation ptr) }
  | .new => some { scope with live := new.address scope.calls scope.live :: scope.live, calls := scope.calls + 1 }
  | .delete ptr => if scope.Holds ptr then none else some { scope with live := scope.live.erase ptr }

def system (new : OperatorNew) : System Sharing SharedCall where
  step := step new

end Sharing

end SoulLib.Memory.Smart
