import SoulLib.Containers.VectorRefinement

/-! Every run of vector operations.

A run starts without vectors, on a heap where other things may have been allocated.
-/

set_option autoImplicit false

namespace SoulLib.Containers.Vectors

open SoulLib.Memory (Heap Accounts)
open SoulLib.Semantics (System)
open SoulVector (Holds)

/-- `SoulVector<std::string, 2>`, where a string that was moved from is empty. -/
def strings : Platform (List Char) where
  sizeof := 32
  smallCapacity := 2
  new := .above
  moved := fun _ => []
  sort := stableSort
  sizeof_pos := by decide
  smallCapacity_pos := by decide
  object_fits := by decide
  sort_perm := fun _ => stableSort_perm
  sort_sorted := fun _ list _ => pairwise_stableSort list

theorem strings_unused : ({} : Heap (List Char)).Unused vectorTag where
  unregistered := by
    intro manager address found known
    cases known
  releases := rfl

section Represented

variable {T : Type} {platform : Platform T} {heap : Heap T} {vectors : Vectors T} {lists : Lists T}

/-- A vector has the elements of a list, and its fields agree with its storage. -/
structure Agrees (platform : Platform T) (heap : Heap T) (vector : SoulVector T) (list : List T) : Prop where
  getAll : vector.getAll heap = list
  size_le : vector.size ≤ vector.capacity
  smallCapacity_le : platform.smallCapacity ≤ vector.capacity
  inline_iff : vector.usingSmallStorage = true ↔ vector.capacity = platform.smallCapacity

theorem Agrees.of_holds {vector : SoulVector T} {list : List T} (holds : Holds platform heap vector list) :
    Agrees platform heap vector list where
  getAll := holds.getAll
  size_le := holds.size_eq ▸ holds.size_le
  smallCapacity_le := holds.smallCapacity_le
  inline_iff := by rw [SoulVector.usingSmallStorage, decide_eq_true_iff, holds.small_iff]

/-- Each manager has exactly the buffers of its live vectors under the vectors' tag, and every
buffer was unregistered from the manager that had registered it. -/
structure Balanced (platform : Platform T) (vectors : Vectors T) : Prop where
  registered : ∀ manager address size, (vectors.heap.managers manager).info address = some ⟨size, vectorTag⟩ ↔
    ∃ index vector, vectors.object index = some vector ∧ vector.manager = manager ∧ vector.data = .heap address ∧
      vector.capacity * platform.sizeof = size
  allocated : (∀ index vector, vectors.object index = some vector → vector.usingSmallStorage = true) →
    ∀ manager, (vectors.heap.managers manager).getAllocatedByTag vectorTag = 0
  releases : ∀ release ∈ vectors.heap.releases, release.unregisteredFrom = release.registeredBy

theorem exists_owned_iff {holds : Memory.Buffer → Prop} :
    (∃ buffer ∈ vectors.objects.flatMap owned, holds buffer) ↔
      ∃ index vector address, vectors.object index = some vector ∧ vector.data = .heap address ∧
        holds ⟨vector.manager, address, vector.capacity⟩ := by
  constructor
  · rintro ⟨buffer, member, known⟩
    obtain ⟨object, within, mine⟩ := List.mem_flatMap.mp member
    obtain ⟨index, found⟩ := List.mem_iff_getElem?.mp within
    cases object with
    | none => cases mine
    | some vector =>
        simp only [owned, SoulVector.buffers] at mine
        split at mine
        · cases mine
        · next address data =>
            obtain rfl := List.mem_singleton.mp mine
            exact ⟨index, vector, address, object_eq_some.mpr found, data, known⟩
  · rintro ⟨index, vector, address, found, data, known⟩
    refine ⟨_, List.mem_flatMap.mpr ⟨some vector, List.mem_of_getElem? (object_eq_some.mp found), ?_⟩, known⟩
    simp only [owned, SoulVector.buffers, data]
    exact List.mem_singleton_self _

theorem Represents.balanced (represents : Represents platform vectors lists) : Balanced platform vectors := by
  have registered : ∀ manager address size, (vectors.heap.managers manager).info address = some ⟨size, vectorTag⟩ ↔
      ∃ index vector, vectors.object index = some vector ∧ vector.manager = manager ∧ vector.data = .heap address ∧
        vector.capacity * platform.sizeof = size := by
    intro manager address size
    rw [represents.accounts.registered, exists_owned_iff]
    constructor
    · rintro ⟨index, vector, _, found, data, bound, rfl, bytes⟩
      exact ⟨index, vector, found, bound, data, bytes⟩
    · rintro ⟨index, vector, found, bound, data, bytes⟩
      exact ⟨index, vector, address, found, data, bound, rfl, bytes⟩
  refine ⟨registered, ?_, represents.accounts.releases⟩
  intro inline manager
  apply Memory.MemoryManager.getAllocatedByTag_eq_zero
  rintro address ⟨size, tag⟩ found rfl
  obtain ⟨index, vector, live, -, data, -⟩ := (registered manager address size).mp found
  have small := inline index vector live
  rw [SoulVector.usingSmallStorage, data] at small
  cases small

theorem Represents.start (unused : heap.Unused vectorTag) : Represents platform { heap } [] where
  holds := by
    intro index
    rw [List.getElem?_nil, List.getElem?_nil]
    exact .none
  accounts := Accounts.nil unused

end Represented

section Agreement

variable {T : Type} [BEq T] {platform : Platform T} {heap : Heap T}

/-- In every run without an insertion of an element of a full vector into that vector, the vectors
agree with the lists. -/
theorem reaches_agrees (unused : heap.Unused vectorTag) {state : Vectors T × Lists T}
    (reach : (vectorsAndLists platform).Reaches
      (fun state action => state.1.Admits platform action ∧ action.RemovesOutside ∧ state.1.Unaliased action)
      ({ heap }, []) state) (index : Nat) :
    Option.Rel (Agrees platform state.1.heap) (state.1.object index) (state.2.list index) := by
  have represents : Represents platform state.1 state.2 := by
    induction reach with
    | start => exact Represents.start unused
    | next earlier allowed taken before =>
        obtain ⟨admits, outside, unaliased⟩ := allowed
        obtain ⟨vectors', stepped, rfl⟩ := Option.map_eq_some_iff.mp taken
        exact before.step admits outside unaliased stepped
  have related := represents.holds index
  rw [object, Lists.list]
  generalize state.1.objects[index]? = object at related
  generalize state.2[index]? = list at related
  cases related with
  | none => exact .none
  | some inner =>
      cases inner with
      | none => exact .none
      | some holds => exact .some (.of_holds holds)

end Agreement

/-- The third string fills a block, the fourth is a copy of the first, and then the block changes hands. -/
theorem reaches_agrees_strings :
    ∃ state, (vectorsAndLists strings).Reaches
        (fun state action => state.1.Admits strings action ∧ action.RemovesOutside ∧ state.1.Unaliased action)
        ({}, []) state ∧
      state.2 = [some [], some [['a'], ['b'], ['c'], ['a']]] ∧
      Option.Rel (Agrees strings state.1.heap) (state.1.object 1) (state.2.list 1) := by
  have begun : (vectorsAndLists strings).Reaches
    (fun state action => state.1.Admits strings action ∧ action.RemovesOutside ∧ state.1.Unaliased action)
    ({}, []) ({}, []) := .start
  have built := begun.andThen (.ofList 0 [['a'], ['b']]) rfl ⟨(by decide : 2 * 32 < 2 ^ 64), trivial, trivial⟩
  have grown := built.andThen (.insert 0 ['c']) rfl ⟨trivial, trivial, trivial⟩
  have copied := grown.andThen (.insertElement 0 0 []) rfl
    ⟨by rintro vector ⟨⟩; exact (by decide : 0 < 3), trivial, by rintro vector ⟨⟩; exact (by decide : 3 ≠ 4)⟩
  have reach := copied.andThen (.move 0) rfl ⟨trivial, trivial, trivial⟩
  exact ⟨_, reach, rfl, reaches_agrees strings_unused reach 1⟩

/-- An element of a full vector is read after it was moved and destroyed. -/
theorem insertElement_reads_destroyed :
    ∃ state, (vectorsAndLists strings).Reaches
        (fun state action => state.1.Admits strings action ∧ action.RemovesOutside) ({}, []) state ∧
      (state.1.object 0).map (fun vector => vector.getAll state.1.heap) = some [['a'], ['b'], []] ∧
      state.2.list 0 = some [['a'], ['b'], ['a']] := by
  have begun : (vectorsAndLists strings).Reaches
    (fun state action => state.1.Admits strings action ∧ action.RemovesOutside) ({}, []) ({}, []) := .start
  have built := begun.andThen (.ofList 0 [['a'], ['b']]) rfl ⟨(by decide : 2 * 32 < 2 ^ 64), trivial⟩
  have reach := built.andThen (.insertElement 0 0 []) rfl ⟨by rintro vector ⟨⟩; exact (by decide : 0 < 2), trivial⟩
  exact ⟨_, reach, rfl, rfl⟩

section Balance

variable {T : Type} [BEq T] {platform : Platform T} {heap : Heap T} {vectors : Vectors T}

/-- In every run the managers' books balance. -/
theorem reaches_balanced (unused : heap.Unused vectorTag)
    (reach : (system platform).Reaches (fun vectors action => vectors.Admits platform action) { heap } vectors) :
    Balanced platform vectors := by
  have represents : ∃ lists, Represents platform vectors lists := by
    induction reach with
    | start => exact ⟨[], Represents.start unused⟩
    | next earlier admits taken before =>
        obtain ⟨lists, before⟩ := before
        exact before.step_exists admits taken
  obtain ⟨lists, represents⟩ := represents
  exact represents.balanced

end Balance

/-- The block of the first vector is released at its own manager before it takes over the second one's. -/
theorem reaches_balanced_strings :
    ∃ vectors, (system strings).Reaches (fun vectors action => vectors.Admits strings action) {} vectors ∧
      vectors.heap.releases = [⟨0, 0⟩, ⟨1, 1⟩] ∧ Balanced strings vectors := by
  have begun : (system strings).Reaches (fun vectors action => vectors.Admits strings action) {} {} := .start
  have first := begun.andThen (.ofList 0 [['a'], ['b'], ['c']]) rfl (by decide : 3 * 32 < 2 ^ 64)
  have second := first.andThen (.ofList 1 [['d'], ['e'], ['f']]) rfl (by decide : 3 * 32 < 2 ^ 64)
  have moved := second.andThen (.moveAssign 0 1) rfl trivial
  have reach := moved.andThen (.destroy 0) rfl trivial
  exact ⟨_, reach, rfl, reaches_balanced strings_unused reach⟩

end SoulLib.Containers.Vectors
