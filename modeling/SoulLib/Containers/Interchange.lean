import SoulLib.Containers.Sequences
import SoulLib.Containers.VectorRuns
import SoulLib.Semantics.Runs

/-! The four sequential containers side by side.

All of them go through the same operations. The array takes out one element where
the others take out all that equal a value, so they agree as long as no value is
removed that is there twice.
-/

set_option autoImplicit false

namespace SoulLib.Containers

open SoulLib.Memory (Heap)
open SoulLib.Semantics (System)

inductive SequentialAction (T : Type) where
  | insert (value : T)
  | remove (value : T)
  | findAll (pred : T → Bool)
  | findFirst (pred : T → Bool)
  | sort (comp : T → T → Bool)

/-- The containers, and how often something was inserted. -/
structure Sequential (T : Type) (N : Nat) where
  heap : Heap T
  vector : SoulVector T
  deque : SoulDeque T := {}
  list : SoulList T := {}
  array : SoulArray T N
  inserts : Nat := 0

namespace Sequential

variable {T : Type} {N : Nat} (platform : Platform T) (state : Sequential T N)

section Definitions

variable [BEq T]

/-- `none` when the vector finds no memory. -/
def step : SequentialAction T → Option (Sequential T N)
  | .insert value => (state.vector.insert platform state.heap value).toOption.map fun result =>
      { heap := result.2
        vector := result.1
        deque := state.deque.insert value
        list := state.list.insert value
        array := state.array.insert value
        inserts := state.inserts + 1 }
  | .remove value =>
      let result := state.vector.remove platform state.heap value
      some { state with
        heap := result.2
        vector := result.1
        deque := state.deque.remove value
        list := state.list.remove value
        array := state.array.remove value }
  | .findAll _ | .findFirst _ => some state
  | .sort comp =>
      let result := state.vector.sort platform state.heap comp
      some { state with
        heap := result.2
        vector := result.1
        deque := state.deque.sort platform comp
        list := state.list.sort comp
        array := state.array.sort platform comp }

def system (N : Nat) : System (Sequential T N) (SequentialAction T) where
  step := fun state action => state.step platform action

/-- The array has a place for every insertion, and sorts are by strict total orders. -/
def Admits : SequentialAction T → Prop
  | .insert _ => state.inserts < N
  | .sort comp => IsStrictTotalOrder T fun a b => comp a b = true
  | _ => True

/-- A value that is removed is there once at most. -/
def RemovesOnce : SequentialAction T → Prop
  | .remove value => state.deque.getAll.countP (fun element => element == value) ≤ 1
  | _ => True

/-- No container can be told from another through the interface. -/
structure Interchangeable : Prop where
  vector : state.vector.toContainer state.heap = state.deque.toContainer
  list : state.list.toContainer = state.deque.toContainer
  array : state.array.toContainer = state.deque.toContainer

/-- No element equals the value. -/
def Without (value : T) (list : List T) : Prop := ∀ element ∈ list, (element == value) = false

/-- What was removed is nowhere any more. -/
def Removed : SequentialAction T → Prop
  | .remove value => Without value (state.vector.getAll state.heap) ∧ Without value state.deque.getAll ∧
      Without value state.list.getAll ∧ Without value state.array.getAll
  | _ => True

/-- All containers hold the same elements. -/
structure Represents (elements : List T) : Prop where
  vector : SoulVector.Holds platform state.heap state.vector elements
  deque : state.deque.data = elements
  list : state.list.data = elements
  array : state.array.getAll = elements
  bounded : elements.length ≤ state.inserts

end Definitions

theorem eraseP_eq_filter_iff {list : List T} {drops : T → Bool} :
    list.eraseP drops = list.filter (fun element => !drops element) ↔ list.countP drops ≤ 1 := by
  induction list with
  | nil => simp
  | cons first rest ih =>
      cases dropped : drops first with
      | true =>
          rw [List.eraseP_cons_of_pos dropped, List.filter_cons_of_neg (by simp [dropped]), List.countP_cons_of_pos dropped,
            eq_comm, List.filter_eq_self]
          simp [List.countP_eq_zero]
      | false =>
          rw [List.eraseP_cons_of_neg (by simp [dropped]), List.filter_cons_of_pos (by simp [dropped]),
            List.countP_cons_of_neg (by simp [dropped]), List.cons.injEq]
          simp [ih]

section Represents

variable {platform state} {elements : List T}

theorem Represents.toContainer_eq (represents : state.Represents platform elements) :
    state.vector.toContainer state.heap = IContainer.ofList elements ∧
      state.deque.toContainer = IContainer.ofList elements ∧ state.list.toContainer = IContainer.ofList elements ∧
      state.array.toContainer = IContainer.ofList elements := by
  obtain ⟨vector, deque, list, array, -⟩ := represents
  refine ⟨?_, ?_, ?_, ?_⟩
  · have findAll : state.vector.findAll state.heap = fun pred => elements.filter pred := by
      funext pred
      rw [SoulVector.findAll, vector.getAll]
    have findFirst : state.vector.findFirst state.heap = fun pred => elements.find? pred := by
      funext pred
      rw [SoulVector.findFirst, vector.getAll]
    rw [SoulVector.toContainer, IContainer.ofList, vector.getAll, vector.size_eq, findAll, findFirst]
  · rw [← deque]
    rfl
  · rw [← list]
    rfl
  · have size : state.array.size = state.array.getAll.length := SoulArray.length_getAll.symm
    rw [← array, SoulArray.toContainer, IContainer.ofList, size]
    rfl

theorem Represents.interchangeable (represents : state.Represents platform elements) : state.Interchangeable := by
  obtain ⟨vector, deque, list, array⟩ := represents.toContainer_eq
  exact ⟨vector.trans deque.symm, list.trans deque.symm, array.trans deque.symm⟩

variable [BEq T] {after : Sequential T N}

theorem Represents.insert (represents : state.Represents platform elements) {value : T} (room : state.inserts < N)
    (taken : state.step platform (.insert value) = some after) : after.Represents platform (elements ++ [value]) := by
  obtain ⟨⟨vector, heap⟩, returned, rfl⟩ := Option.map_eq_some_iff.mp taken
  have spec := SoulVector.emplaceValue_spec represents.vector (Vectors.toOption_eq_some.mp returned)
  have place : state.array.currentSize < N := by
    rw [← SoulArray.length_getAll, represents.array]
    exact Nat.lt_of_le_of_lt represents.bounded room
  refine ⟨spec.holds, ?_, ?_, ?_, ?_⟩
  · rw [← represents.deque]
    rfl
  · rw [← represents.list]
    rfl
  · rw [← represents.array]
    exact SoulArray.getAll_insert place value
  · rw [List.length_append]
    exact Nat.succ_le_succ represents.bounded

theorem Represents.sort (represents : state.Represents platform elements) {comp : T → T → Bool}
    (total : IsStrictTotalOrder T fun a b => comp a b = true) (taken : state.step platform (.sort comp) = some after) :
    after.Represents platform (stableSort comp elements) := by
  cases taken
  -- there is only one way to sort, and all find it
  have weak : IsStrictWeakOrder T fun a b => comp a b = true := isStrictWeakOrder_of_isOrderConnected
  have same : platform.sort comp elements = stableSort comp elements :=
    eq_stableSort_of_pairwise total (platform.sort_perm comp elements) (platform.sort_sorted comp elements weak)
  refine ⟨?_, ?_, ?_, ?_, ?_⟩
  · rw [← same]
    exact (SoulVector.sort_spec represents.vector rfl).holds
  · rw [← same, ← represents.deque]
    rfl
  · rw [← represents.list]
    rfl
  · rw [← same, ← represents.array]
    exact SoulArray.getAll_sort platform comp
  · rw [(stableSort_perm elements).length_eq]
    exact represents.bounded

theorem Represents.remove (represents : state.Represents platform elements) {value : T}
    (taken : state.step platform (.remove value) = some after) :
    SoulVector.Holds platform after.heap after.vector (elements.filter fun element => !(element == value)) ∧
      after.deque.data = elements.filter (fun element => !(element == value)) ∧
      after.list.data = elements.filter (fun element => !(element == value)) ∧
      after.array.getAll = elements.eraseP (fun element => element == value) ∧ after.inserts = state.inserts := by
  cases taken
  refine ⟨(SoulVector.remove_spec represents.vector rfl).holds, ?_, ?_, ?_, rfl⟩
  · rw [← represents.deque]
    rfl
  · rw [← represents.list]
    rfl
  · rw [← represents.array]
    exact SoulArray.getAll_remove value

theorem Represents.step (represents : state.Represents platform elements) {action : SequentialAction T}
    (admits : state.Admits action) (once : state.RemovesOnce action) (taken : state.step platform action = some after) :
    ∃ changed, after.Represents platform changed := by
  cases action with
  | insert value => exact ⟨_, represents.insert admits taken⟩
  | remove value =>
      obtain ⟨vector, deque, list, array, inserts⟩ := represents.remove taken
      rw [RemovesOnce, SoulDeque.getAll, represents.deque] at once
      refine ⟨_, vector, deque, list, array.trans (eraseP_eq_filter_iff.mpr once), ?_⟩
      rw [inserts]
      exact Nat.le_trans (List.length_filter_le _ _) represents.bounded
  | findAll pred =>
      cases taken
      exact ⟨elements, represents⟩
  | findFirst pred =>
      cases taken
      exact ⟨elements, represents⟩
  | sort comp => exact ⟨_, represents.sort admits taken⟩

theorem without_filter (value : T) (elements : List T) :
    Without value (elements.filter fun element => !(element == value)) := by
  intro element member
  have kept := (List.mem_filter.mp member).2
  rwa [Bool.not_eq_true'] at kept

theorem Represents.agrees_iff (represents : state.Represents platform elements) {action : SequentialAction T}
    (admits : state.Admits action) (taken : state.step platform action = some after) :
    after.Interchangeable ∧ after.Removed action ↔ state.RemovesOnce action := by
  constructor
  · rintro ⟨interchangeable, -⟩
    cases action with
    | remove value =>
        obtain ⟨-, deque, -, array, -⟩ := represents.remove taken
        rw [RemovesOnce, SoulDeque.getAll, represents.deque, ← eraseP_eq_filter_iff, ← array, ← deque]
        exact congrArg IContainer.getAll interchangeable.array
    | insert value => trivial
    | findAll pred => trivial
    | findFirst pred => trivial
    | sort comp => trivial
  · intro once
    obtain ⟨changed, represented⟩ := represents.step admits once taken
    refine ⟨represented.interchangeable, ?_⟩
    cases action with
    | remove value =>
        obtain ⟨vector, deque, list, array, -⟩ := represents.remove taken
        rw [RemovesOnce, SoulDeque.getAll, represents.deque] at once
        rw [Removed, vector.getAll, SoulDeque.getAll, deque, SoulList.getAll, list, array, eraseP_eq_filter_iff.mpr once]
        exact ⟨without_filter _ _, without_filter _ _, without_filter _ _, without_filter _ _⟩
    | insert value => trivial
    | findAll pred => trivial
    | findFirst pred => trivial
    | sort comp => trivial

end Represents

section Runs

variable {platform}

/-- Empty containers; the places of the array hold whatever was there. -/
def start (platform : Platform T) (heap : Heap T) (manager : Nat) (data : List T) (length_eq : data.length = N) :
    Sequential T N where
  heap
  vector := .make platform manager
  array := .make data length_eq

theorem represents_start (heap : Heap T) (manager : Nat) {data : List T} (length_eq : data.length = N) :
    (start platform heap manager data length_eq).Represents platform [] :=
  ⟨.make platform heap manager, rfl, rfl, rfl, Nat.zero_le _⟩

variable [BEq T]

/-- As long as no value is removed that is there twice, nothing tells the containers apart, and the
next removal is right exactly when it goes on like that. -/
theorem reaches_interchangeable {heap : Heap T} {manager : Nat} {data : List T} {length_eq : data.length = N}
    {state : Sequential T N} (reach : (system platform N).Reaches
      (fun state action => state.Admits action ∧ state.RemovesOnce action)
      (start platform heap manager data length_eq) state) :
    state.Interchangeable ∧ ∀ action after, state.Admits action → state.step platform action = some after →
      (after.Interchangeable ∧ after.Removed action ↔ state.RemovesOnce action) := by
  have represents : ∃ elements, state.Represents platform elements := by
    apply reach.invariant ⟨[], represents_start heap manager length_eq⟩
    rintro before action after - ⟨elements, represents⟩ ⟨admits, once⟩ taken
    exact represents.step admits once taken
  obtain ⟨elements, represents⟩ := represents
  exact ⟨represents.interchangeable, fun action after admits taken => represents.agrees_iff admits taken⟩

end Runs

open Vectors (strings)

/-- Two strings, one of which is removed. -/
theorem reaches_interchangeable_strings : ∃ state, (system strings 2).Reaches
      (fun state action => state.Admits action ∧ state.RemovesOnce action) (start strings {} 0 [[], []] rfl) state ∧
      state.vector.getAll state.heap = [['b']] ∧ state.Interchangeable := by
  have begun : (system strings 2).Reaches (fun state action => state.Admits action ∧ state.RemovesOnce action)
    (start strings {} 0 [[], []] rfl) (start strings {} 0 [[], []] rfl) := .start
  have first := begun.andThen (.insert ['a']) rfl ⟨(by decide : 0 < 2), trivial⟩
  have second := first.andThen (.insert ['b']) rfl ⟨(by decide : 1 < 2), trivial⟩
  have reach := second.andThen (.remove ['a']) rfl
    ⟨trivial, (by decide : [['a'], ['b']].countP (fun element => element == ['a']) ≤ 1)⟩
  exact ⟨_, reach, rfl, (reaches_interchangeable reach).1⟩

/-- The array keeps the second of two equal strings. -/
theorem remove_keeps_second : ∃ state, (system strings 2).Reaches (fun state action => state.Admits action)
      (start strings {} 0 [[], []] rfl) state ∧
      state.vector.getAll state.heap = [] ∧ state.array.getAll = [['a']] ∧ ¬ state.Interchangeable := by
  have begun : (system strings 2).Reaches (fun state action => state.Admits action)
    (start strings {} 0 [[], []] rfl) (start strings {} 0 [[], []] rfl) := .start
  have first := begun.andThen (.insert ['a']) rfl (by decide : 0 < 2)
  have second := first.andThen (.insert ['a']) rfl (by decide : 1 < 2)
  have reach := second.andThen (.remove ['a']) rfl trivial
  refine ⟨_, reach, rfl, rfl, ?_⟩
  intro interchangeable
  have same := congrArg IContainer.getAll interchangeable.array
  cases same

end Sequential

end SoulLib.Containers
