import SoulLib.Containers.VectorRuns

/-! References to a vector's own elements.

The argument of `insert` and `remove` is a reference to a slot of the buffer that the
vector had when it was called, and the slot is read anew each time.
-/

set_option autoImplicit false

namespace SoulLib.Containers

open SoulLib.Memory (Heap BadAlloc)
open SoulVector (Result Holds Method)

/-- The cells of the buffer that was pointed to, as they are now. -/
def Storage.cells {T : Type} (this : SoulVector T) (heap : Heap T) : Storage → Cells T
  | .small => this.smallStorage
  | .heap address => heap.cells address

namespace Cells

variable {T : Type} [BEq T] (moved : T → T) (index : Nat)

/-- What is dropped by a comparison with the slot. -/
def dropsSlot (cells : Cells T) (element : T) : Bool := (cells index).any fun value => element == value

/-- What the slot holds at each comparison of `std::remove`. -/
def removeReads (cells : Cells T) (first it : Nat) : Nat → List (Option T)
  | 0 => []
  | count + 1 =>
      cells index ::
        if (cells it).all (dropsSlot index cells) then removeReads cells first (it + 1) count
        else if first = it then removeReads cells (first + 1) (it + 1) count
        else removeReads ((cells.set first (cells it)).set it ((cells it).map moved)) (first + 1) (it + 1) count

variable {moved index} {value : T}

theorem removeRange_of_reads {cells : Cells T} {first it count : Nat}
    (reads : ∀ read ∈ removeReads moved index cells first it count, read = some value) :
    removeRange moved (dropsSlot index) cells first it count =
      removeRange moved (fun _ element => element == value) cells first it count := by
  induction count generalizing cells first it with
  | zero => rfl
  | succ count ih =>
      rw [removeReads, List.forall_mem_cons] at reads
      obtain ⟨slot, later⟩ := reads
      have same : dropsSlot index cells = fun element => element == value := by
        funext element
        rw [dropsSlot, slot, Option.any_some]
      rw [removeRange, removeRange, same]
      rw [same] at later
      split
      · next dropped =>
          rw [if_pos dropped] at later
          exact ih later
      · next kept =>
          rw [if_neg kept] at later
          split
          · next still =>
              rw [if_pos still] at later
              exact ih later
          · next behind =>
              rw [if_neg behind] at later
              exact ih later

omit [BEq T] in
theorem filter_dropLast_cons (keeps : T → Bool) (element : T) (rest : List T) :
    ((element :: rest).dropLast.filter keeps).length =
      (rest.dropLast.filter keeps).length + if rest ≠ [] ∧ keeps element = true then 1 else 0 := by
  cases rest with
  | nil => simp
  | cons next rest =>
      rw [List.dropLast_cons_cons, List.filter_cons]
      split
      · next kept => simp [kept]
      · next dropped => simp [dropped]

/-- The slot holds the value at each comparison exactly if no kept element is moved into it before
the last one. -/
theorem removeReads_iff (kept gap rest : List T) (slot : (kept ++ gap ++ rest)[index]? = some value)
    (behind : kept.length ≤ index) (reflexive : (value == value) = true) :
    (∀ read ∈ removeReads moved index (ofList (kept ++ gap ++ rest)) kept.length (kept.length + gap.length) rest.length,
        read = some value) ↔
      kept.length + (rest.dropLast.filter fun element => !(element == value)).length ≤ index := by
  induction rest generalizing kept gap with
  | nil => simpa [removeReads] using behind
  | cons element rest ih =>
      have here : ofList (kept ++ gap ++ element :: rest) (kept.length + gap.length) = some element := by simp [ofList]
      have read : ofList (kept ++ gap ++ element :: rest) index = some value := slot
      have drops : dropsSlot index (ofList (kept ++ gap ++ element :: rest)) = fun element => element == value := by
        funext element
        rw [dropsSlot, read, Option.any_some]
      -- The comparison at hand reads the value; what is to be shown is about the later ones.
      rw [List.length_cons, removeReads, List.forall_mem_cons, here, drops, Option.all_some, read, filter_dropLast_cons]
      simp only [true_and]
      cases dropped : element == value with
      | true =>
          have next := ih kept (gap ++ [element]) (by simpa using slot) behind
          rw [if_pos rfl]
          simpa [Nat.add_assoc] using next
      | false =>
          -- A kept element is not the one that is referred to.
          have elsewhere : index ≠ kept.length + gap.length := by
            rintro rfl
            obtain rfl := Option.some.inj (here.symm.trans read)
            rw [reflexive] at dropped
            cases dropped
          -- One more element stays, and counts unless it is the last one.
          have counts (ahead : kept.length + 1 ≤ index) :
              kept.length + 1 + (rest.dropLast.filter fun element => !(element == value)).length ≤ index ↔
                kept.length + ((rest.dropLast.filter fun element => !(element == value)).length +
                  if rest ≠ [] ∧ (!false) = true then 1 else 0) ≤ index := by
            cases rest with
            | nil =>
                simp
                omega
            | cons next rest =>
                rw [if_pos ⟨List.cons_ne_nil _ _, rfl⟩]
                omega
          rw [if_neg Bool.false_ne_true]
          cases gap with
          | nil =>
              rw [List.length_nil, Nat.add_zero] at elsewhere
              have next := ih (kept ++ [element]) [] (by simpa using slot) (by simp; omega)
              rw [List.length_nil, if_pos (Nat.add_zero _).symm]
              simp only [List.append_nil, List.append_assoc, List.singleton_append, List.length_append,
                List.length_singleton, List.length_nil, Nat.add_zero] at next ⊢
              exact next.trans (counts (by omega))
          | cons old gap =>
              have state := move_append kept gap rest old element (moved element)
              rw [if_neg (by simp), Option.map_some, state]
              rcases Nat.lt_or_eq_of_le behind with ahead | rfl
              · have slot' : ofList (kept ++ [element] ++ (gap ++ [moved element]) ++ rest) index = some value := by
                  rw [← state, set, if_neg elsewhere, set, if_neg (Nat.ne_of_gt ahead)]
                  exact read
                have next := ih (kept ++ [element]) (gap ++ [moved element]) slot' (by simpa using Nat.succ_le_of_lt ahead)
                rw [List.length_append, List.length_singleton, List.length_append, List.length_singleton,
                  Nat.add_right_comm kept.length 1] at next
                exact next.trans (counts ahead)
              · -- The slot is overwritten, and any further comparison reads the element moved into it.
                cases rest with
                | nil => simp [removeReads]
                | cons next rest =>
                    have overwritten : ofList (kept ++ [element] ++ (gap ++ [moved element]) ++ next :: rest) kept.length =
                        some element := by simp [ofList]
                    have more : (if next :: rest ≠ [] ∧ (!false) = true then 1 else 0) = 1 :=
                      if_pos ⟨List.cons_ne_nil _ _, rfl⟩
                    simp only [List.length_cons]
                    rw [removeReads, List.forall_mem_cons, overwritten, more]
                    constructor
                    · rintro ⟨same, -⟩
                      cases same
                      rw [reflexive] at dropped
                      cases dropped
                    · intro within
                      omega

end Cells

namespace SoulVector

variable {T : Type} (platform : Platform T)

/-- What the slot holds when `emplace_back_internal` constructs the new element. -/
def insertReads (this : SoulVector T) (heap : Heap T) (index : Nat) : Except BadAlloc (Option T) := do
  let (grown, heap) ← grow platform this heap
  return this.data.cells grown heap index

/-- What the slot holds at each comparison of `remove`. -/
def removeReads [BEq T] (this : SoulVector T) (heap : Heap T) (index : Nat) : List (Option T) :=
  Cells.removeReads platform.moved index (this.elements heap) 0 0 this.size

variable {platform} {heap heap' : Heap T} {this this' : SoulVector T} {list : List T} {index : Nat} {value garbage : T}

theorem read_slot (this grown : SoulVector T) (heap : Heap T) (index : Nat) (garbage : T) :
    Argument.read grown heap (.element this.data index garbage) =
      some ((this.data.cells grown heap index).getD garbage) := by
  cases this.data with
  | small =>
      simp only [Argument.read, Storage.cells]
      cases grown.smallStorage index <;> rfl
  | heap address =>
      simp only [Argument.read, Storage.cells]
      cases heap.cells address index <;> rfl

theorem insertElement_reads (holds : Holds platform heap this list)
    (returned : insertElement platform this heap index garbage = .ok (this', heap')) :
    ∃ cell, insertReads platform this heap index = .ok cell ∧
      Method platform heap this heap' this' (list ++ [cell.getD garbage]) := by
  obtain ⟨grown, heap₁, grows, -, -, constructs⟩ := emplaceBackInternal_cases holds returned
  refine ⟨this.data.cells grown heap₁ index, ?_, constructs _ (read_slot this grown heap₁ index garbage)⟩
  rw [insertReads, grows]
  rfl

theorem deallocate_setCells {manager address : Nat} {cells : Cells T} (gone : cells index = none) :
    ((heap.setCells address cells).deallocate manager address).cells address index = none := by
  rw [Heap.deallocate]
  split
  · rw [Heap.setCells_cells, Function.update_self, gone]
  · simp only [Function.update_self]
    rfl

/-- A vector that has grown has left its old buffer empty. -/
theorem reallocate_empties {grown : SoulVector T} {heap₁ : Heap T} {requested : Nat} (holds : Holds platform heap this list)
    (large : platform.smallCapacity < requested) (within : index < list.length)
    (returned : reallocate platform this heap requested = .ok (grown, heap₁)) :
    this.data.cells grown heap₁ index = none := by
  have length := holds.size_eq
  obtain ⟨newData, allocated, -, rest⟩ := reallocate_large large returned
  -- `destroy_range` reaches every slot of the old buffer, whether it is released afterwards or not.
  have emptied : ∀ cells : Cells T, cells.destroyRange 0 (this.size - 0) index = none := by
    intro cells
    rw [Cells.destroyRange_apply, if_pos (by omega)]
  obtain ⟨manager, data, size, capacity, smallStorage⟩ := this
  cases data with
  | small =>
      cases rest
      exact emptied _
  | heap address =>
      cases rest
      exact deallocate_setCells (emptied _)

theorem insertReads_iff {cell : Option T} (holds : Holds platform heap this list) (here : list[index]? = some value)
    (reads : insertReads platform this heap index = .ok cell) : cell = some value ↔ this.size ≠ this.capacity := by
  obtain ⟨⟨grown, heap₁⟩, grows, rest⟩ := bind_eq_ok.mp reads
  cases rest
  constructor
  · intro kept full
    obtain ⟨same, large, -⟩ := holds.grow_full full
    rw [same] at grows
    have within := (List.getElem?_eq_some_iff.mp here).1
    rw [reallocate_empties holds large within grows] at kept
    cases kept
  · intro room
    obtain ⟨same, unmoved⟩ := (grow_spec holds grows).2.2 room
    have cells : this.data.cells this heap = this.elements heap := by
      unfold Storage.cells elements
      cases this.data <;> rfl
    rw [same, unmoved, cells, holds.elements_eq]
    exact here

/-- `insert` appends the element that its argument refers to, and finds it in its slot. -/
structure InsertsOwn (platform : Platform T) (heap : Heap T) (this : SoulVector T) (index : Nat) (value : T)
    (heap' : Heap T) (this' : SoulVector T) : Prop where
  getAll : this'.getAll heap' = this.getAll heap ++ [value]
  reads : insertReads platform this heap index = .ok (some value)

/-- `remove` drops the elements equal to the one that its argument refers to, and finds that one in
its slot at every comparison. -/
structure RemovesOwn [BEq T] (platform : Platform T) (heap : Heap T) (this : SoulVector T) (index : Nat) (value : T)
    (heap' : Heap T) (this' : SoulVector T) : Prop where
  getAll : this'.getAll heap' = (this.getAll heap).filter fun element => !(element == value)
  reads : ∀ read ∈ removeReads platform this heap index, read = some value

/-- A reference to an own element is good for `insert` unless the vector is full, and for `remove`
unless more elements before the last one stay than there are in front of it. -/
theorem ownElement_iff [BEq T] (holds : Holds platform heap this list) (here : list[index]? = some value)
    (reflexive : (value == value) = true) :
    (∀ garbage this' heap', insertElement platform this heap index garbage = .ok (this', heap') →
      (InsertsOwn platform heap this index value heap' this' ↔ this.size ≠ this.capacity)) ∧
    ∀ this' heap', removeElement platform this heap index = (this', heap') →
      (RemovesOwn platform heap this index value heap' this' ↔
        (list.dropLast.filter fun element => !(element == value)).length ≤ index) := by
  constructor
  · intro garbage this' heap' returned
    obtain ⟨cell, reads, method⟩ := insertElement_reads holds returned
    have exactly := insertReads_iff holds here reads
    constructor
    · intro inserts
      exact exactly.mp (Except.ok.inj (reads.symm.trans inserts.reads))
    · intro room
      obtain rfl := exactly.mpr room
      refine ⟨?_, reads⟩
      rw [method.holds.getAll, holds.getAll]
      rfl
  · intro this' heap' returned
    have exactly := @Cells.removeReads_iff T _ platform.moved index value [] [] list here (Nat.zero_le _) reflexive
    have traced : removeReads platform this heap index =
        Cells.removeReads platform.moved index (Cells.ofList ([] ++ [] ++ list)) 0 (0 + 0) list.length := by
      rw [removeReads, holds.elements_eq, holds.size_eq]
      rfl
    rw [List.length_nil, ← traced, Nat.zero_add] at exactly
    constructor
    · intro removes
      exact exactly.mp removes.reads
    · intro few
      refine ⟨?_, exactly.mpr few⟩
      -- Then the reference is as good as the value.
      have same : removeElement platform this heap index = remove platform this heap value := by
        have fixed : Cells.removeRange platform.moved (fun cells element => (cells index).any fun value => element == value)
            (this.elements heap) 0 0 this.size =
            Cells.removeRange platform.moved (fun _ element => element == value) (this.elements heap) 0 0 this.size :=
          Cells.removeRange_of_reads (exactly.mpr few)
        rw [removeElement, removeBy, fixed]
        rfl
      rw [same] at returned
      rw [(remove_spec holds returned).holds.getAll, holds.getAll]

/-- Three strings in a block for four, the first and the last of them equal. -/
def threeInFour : Result (List Char) :=
  ({ manager := 0, data := .heap 1, size := 3, capacity := 4 },
    { live := [1], cells := Function.update (fun _ => Cells.empty) 1 (Cells.ofList [['a'], ['b'], ['a']]), calls := 1 })

theorem threeInFour_holds : Holds Vectors.strings threeInFour.2 threeInFour.1 [['a'], ['b'], ['a']] :=
  @Holds.heap _ Vectors.strings threeInFour.2 0 1 4 [['a'], ['b'], ['a']] (by decide) (by decide) (by decide)
    (by decide) rfl

theorem ownElement_iff_strings :
    (∃ this' heap', insertElement Vectors.strings threeInFour.1 threeInFour.2 1 [] = .ok (this', heap') ∧
      InsertsOwn Vectors.strings threeInFour.2 threeInFour.1 1 ['b'] heap' this') ∧
    ∃ this' heap', removeElement Vectors.strings threeInFour.1 threeInFour.2 1 = (this', heap') ∧
      RemovesOwn Vectors.strings threeInFour.2 threeInFour.1 1 ['b'] heap' this' :=
  ⟨⟨_, _, rfl, ((ownElement_iff threeInFour_holds rfl rfl).1 [] _ _ rfl).mpr (by decide)⟩,
    ⟨_, _, rfl, ((ownElement_iff threeInFour_holds rfl rfl).2 _ _ rfl).mpr (by decide)⟩⟩

/-- The first string of two that fill the small storage is appended as what is left of it, and
removing the first of the three keeps the third one. -/
theorem ownElement_lost :
    (∃ this' heap', insertElement Vectors.strings
        { manager := 0, size := 2, capacity := 2, smallStorage := Cells.ofList [['a'], ['b']] } {} 0 [] =
        .ok (this', heap') ∧ this'.getAll heap' = [['a'], ['b'], []]) ∧
    ∃ this' heap', removeElement Vectors.strings threeInFour.1 threeInFour.2 0 = (this', heap') ∧
      this'.getAll heap' = [['b'], ['a']] :=
  ⟨⟨_, _, rfl, rfl⟩, ⟨_, _, rfl, rfl⟩⟩

end SoulVector

end SoulLib.Containers
