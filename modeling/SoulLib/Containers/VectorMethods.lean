import SoulLib.Containers.SoulVector

/-! What each method of the vector does to its elements and to the heap.

`Holds` is the representation invariant, one constructor for each storage mode.
A method leaves a vector that holds the changed list, and turns the buffers of
the vector before into those of the vector after.
-/

set_option autoImplicit false

namespace SoulLib.Containers.SoulVector

open SoulLib.Memory (Heap BadAlloc Buffer Accounts Runs)

variable {T : Type} {platform : Platform T}

/-- The vector holds a list, inline or in a block of the heap. -/
inductive Holds (platform : Platform T) (heap : Heap T) : SoulVector T → List T → Prop where
  | inline {manager : Nat} {list : List T} (fits : list.length ≤ platform.smallCapacity) :
      Holds platform heap
        { manager, data := .small, size := list.length, capacity := platform.smallCapacity,
          smallStorage := Cells.ofList list } list
  | heap {manager address capacity : Nat} {list : List T} (fits : list.length ≤ capacity)
      (large : platform.smallCapacity < capacity) (bytes : capacity * platform.sizeof < 2 ^ 63)
      (live : address ∈ heap.live) (cells : heap.cells address = Cells.ofList list) :
      Holds platform heap { manager, data := .heap address, size := list.length, capacity } list

/-- The buffer that a vector owns. -/
def buffers (this : SoulVector T) : List Buffer :=
  match this.data with
  | .small => []
  | .heap address => [⟨this.manager, address, this.capacity⟩]

/-- A method that ends with the given list in the vector. -/
structure Method (platform : Platform T) (heap : Heap T) (this : SoulVector T) (heap' : Heap T) (this' : SoulVector T)
    (list : List T) : Prop where
  holds : Holds platform heap' this' list
  runs : Runs platform.sizeof vectorTag heap this.buffers heap' this'.buffers

theorem bind_eq_ok {ε α β : Type} {first : Except ε α} {next : α → Except ε β} {result : β} :
    (first >>= next) = .ok result ↔ ∃ value, first = .ok value ∧ next value = .ok result := by
  cases first with
  | error failure => simp [bind, Except.bind]
  | ok value => simp [bind, Except.bind]

variable {heap heap' heap'' : Heap T} {this this' this'' : SoulVector T} {list list' : List T}

theorem Method.trans (first : Method platform heap this heap' this' list)
    (second : Method platform heap' this' heap'' this'' list') : Method platform heap this heap'' this'' list' :=
  ⟨second.holds, first.runs.trans second.runs⟩

namespace Holds

theorem size_eq (holds : Holds platform heap this list) : this.size = list.length := by
  cases holds <;> rfl

theorem elements_eq (holds : Holds platform heap this list) : this.elements heap = Cells.ofList list := by
  cases holds with
  | inline fits => rfl
  | heap fits large bytes live cells => exact cells

theorem size_le (holds : Holds platform heap this list) : list.length ≤ this.capacity := by
  cases holds with
  | inline fits => exact fits
  | heap fits large bytes live cells => exact fits

theorem bytes_lt (holds : Holds platform heap this list) : this.capacity * platform.sizeof < 2 ^ 63 := by
  cases holds with
  | inline fits => exact platform.object_fits
  | heap fits large bytes live cells => exact bytes

theorem smallCapacity_le (holds : Holds platform heap this list) : platform.smallCapacity ≤ this.capacity := by
  cases holds with
  | inline fits => exact Nat.le_refl _
  | heap fits large bytes live cells => exact Nat.le_of_lt large

theorem small_iff (holds : Holds platform heap this list) :
    this.data = .small ↔ this.capacity = platform.smallCapacity := by
  cases holds with
  | inline fits => simp
  | heap fits large bytes live cells => simpa using Nat.ne_of_gt large

theorem getAll (holds : Holds platform heap this list) : this.getAll heap = list := by
  rw [SoulVector.getAll, holds.elements_eq, holds.size_eq, Cells.toList_ofList, List.take_length]

theorem frame (holds : Holds platform heap this list)
    (same : ∀ buffer ∈ this.buffers, heap'.cells buffer.address = heap.cells buffer.address)
    (live : ∀ buffer ∈ this.buffers, buffer.address ∈ heap'.live) : Holds platform heap' this list := by
  cases holds with
  | inline fits => exact .inline fits
  | heap fits large bytes _ cells =>
      exact .heap fits large bytes (live _ (List.mem_singleton_self _))
        ((same _ (List.mem_singleton_self _)).trans cells)

theorem make (platform : Platform T) (heap : Heap T) (manager : Nat) :
    Holds platform heap (make platform manager) [] := by
  have empty : SoulVector.make platform manager =
      { manager, data := .small, size := ([] : List T).length, capacity := platform.smallCapacity,
        smallStorage := Cells.ofList [] } := by
    rw [Cells.ofList_nil]
    rfl
  rw [empty]
  exact .inline (Nat.zero_le _)

theorem setElements (holds : Holds platform heap this list) (fits : list'.length ≤ this.capacity)
    {changed : SoulVector T} (same : this.setElements heap (Cells.ofList list') = (changed, heap')) :
    Method platform heap this heap' { changed with size := list'.length } list' := by
  cases holds with
  | inline =>
      cases same
      exact ⟨.inline fits, .refl⟩
  | @heap manager address capacity list _ large bytes live cells =>
      cases same
      refine ⟨.heap fits large bytes live ?_, ?_⟩
      · exact Function.update_self _ _ _
      · exact Runs.setCells heap ⟨manager, address, capacity⟩ (Cells.ofList list')

end Holds

theorem moveToSmall_spec (holds : Holds platform heap this list) (fits : list.length ≤ platform.smallCapacity)
    (same : moveToSmall platform this heap = (this', heap')) : Method platform heap this heap' this' list := by
  cases holds with
  | inline =>
      cases same
      exact ⟨.inline fits, .refl⟩
  | @heap manager address capacity list within large bytes live cells =>
      simp only [moveToSmall, cells, Cells.relocateRange_all] at same
      cases same
      refine ⟨.inline fits, ?_⟩
      exact (Runs.setCells heap ⟨manager, address, capacity⟩ Cells.empty).trans (Runs.deallocate _ _)

/-- The elements are moved to a new block, and the old buffer is left. -/
def relocate (platform : Platform T) (this : SoulVector T) (heap : Heap T) (newData targetCapacity : Nat) : Result T :=
  let cells := Cells.moveRange platform.moved (this.elements heap) (heap.cells newData) 0 this.size
  let (this, heap) := this.setElements (heap.setCells newData cells.2) cells.1
  let (this, heap) := this.destroyRange heap 0 this.size
  ({ this with data := .heap newData, capacity := targetCapacity }, this.deallocateData heap)

theorem reallocate_large {requested : Nat} (large : platform.smallCapacity < requested)
    (returned : reallocate platform this heap requested = .ok (this', heap')) :
    ∃ newData allocated,
      heap.allocate platform.new platform.sizeof vectorTag this.manager requested = .ok (newData, allocated) ∧
        relocate platform this allocated newData requested = (this', heap') := by
  unfold reallocate at returned
  rw [if_neg (Nat.not_le.mpr large), if_neg (Nat.not_le.mpr large)] at returned
  obtain ⟨⟨newData, allocated⟩, got, rest⟩ := bind_eq_ok.mp returned
  exact ⟨newData, allocated, got, Except.ok.inj rest⟩

theorem reallocate_spec {requested : Nat} (holds : Holds platform heap this list) (room : list.length ≤ requested)
    (exact : requested * platform.sizeof < 2 ^ 64)
    (returned : reallocate platform this heap requested = .ok (this', heap')) :
    Method platform heap this heap' this' list ∧ (platform.smallCapacity < requested → this'.capacity = requested) := by
  by_cases small : requested ≤ platform.smallCapacity
  · unfold reallocate at returned
    rw [if_pos small, if_pos (Nat.le_refl _)] at returned
    refine ⟨?_, fun large => absurd small (Nat.not_le.mpr large)⟩
    split at returned
    · cases returned
      exact ⟨holds, .refl⟩
    · exact moveToSmall_spec holds (Nat.le_trans room small) (Except.ok.inj returned)
  · rw [Nat.not_le] at small
    obtain ⟨ptr, allocated, got, rest⟩ := reallocate_large small returned
    obtain ⟨bytes, fresh, live, cells⟩ := Heap.allocate_eq_ok got
    have adds := Runs.allocate exact got
    rw [Nat.mod_eq_of_lt exact] at bytes
    have blank : allocated.cells ptr = Cells.empty := by rw [cells, Function.update_self]
    have emptied : Cells.destroyRange (Cells.ofList (list.map platform.moved)) 0 list.length = Cells.empty := by
      have all := Cells.destroyRange_all (list.map platform.moved)
      rwa [List.length_map] at all
    cases holds with
    | @inline manager list fits =>
        simp only [relocate, elements, blank, Cells.moveRange_all, setElements, destroyRange, Nat.sub_zero, emptied,
          deallocateData] at rest
        cases rest
        refine ⟨⟨.heap room small bytes ?_ ?_, ?_⟩, fun _ => rfl⟩
        · rw [Heap.setCells_live, live]
          exact List.mem_cons_self
        · rw [Heap.setCells_cells, Function.update_self]
        · exact adds.trans (Runs.setCells allocated ⟨manager, ptr, requested⟩ (Cells.ofList list))
    | @heap manager address capacity list fits large owned isLive holdsList =>
        -- The old block is live, so the new one is another.
        have differs : ptr ≠ address := by
          rintro rfl
          exact fresh isLive
        have kept : allocated.cells address = Cells.ofList list := by
          rw [cells, Function.update_of_ne differs.symm, holdsList]
        simp only [relocate, elements, kept, blank, Cells.moveRange_all, setElements, destroyRange, Nat.sub_zero,
          Heap.setCells_cells, Function.update_self, emptied, deallocateData] at rest
        cases rest
        obtain ⟨sameCells, stays⟩ := @Heap.deallocate_of_ne T
          (((allocated.setCells ptr (Cells.ofList list)).setCells address (Cells.ofList (list.map platform.moved))).setCells
            address Cells.empty) manager address ptr differs
        refine ⟨⟨.heap room small bytes ?_ ?_, ?_⟩, fun _ => rfl⟩
        · apply stays
          rw [Heap.setCells_live, Heap.setCells_live, Heap.setCells_live, live]
          exact List.mem_cons_self
        · rw [sameCells, Heap.setCells_cells, Function.update_of_ne differs, Heap.setCells_cells,
            Function.update_of_ne differs, Heap.setCells_cells, Function.update_self]
        · -- The new buffer is filled, and the old one is emptied and released.
          refine (adds.append [⟨manager, address, capacity⟩]).trans ?_
          refine ((Runs.setCells allocated ⟨manager, ptr, requested⟩ (Cells.ofList list)).append
            [⟨manager, address, capacity⟩]).trans ?_
          refine Runs.perm (Runs.append ?_ [⟨manager, ptr, requested⟩]) List.perm_append_comm (.refl ([] ++ _))
          refine (Runs.setCells _ ⟨manager, address, capacity⟩ (Cells.ofList (list.map platform.moved))).trans ?_
          refine (Runs.setCells _ ⟨manager, address, capacity⟩ Cells.empty).trans ?_
          exact Runs.deallocate _ ⟨manager, address, capacity⟩

theorem setElements_fields (this : SoulVector T) (heap : Heap T) (cells : Cells T) :
    (this.setElements heap cells).1.size = this.size ∧ (this.setElements heap cells).1.data = this.data ∧
      (this.setElements heap cells).1.capacity = this.capacity ∧
      (this.setElements heap cells).1.elements (this.setElements heap cells).2 = cells := by
  unfold setElements
  split
  · next small => simp [elements, small]
  · next onHeap => simp [elements, onHeap]

theorem setElements_setElements (this : SoulVector T) (heap : Heap T) (first second : Cells T) :
    (this.setElements heap first).1.setElements (this.setElements heap first).2 second = this.setElements heap second := by
  unfold setElements
  cases data : this.data with
  | small => simp
  | heap address => simp [data, Heap.setCells]

theorem construct_spec {value : T} (holds : Holds platform heap this list) (room : list.length < this.capacity)
    {changed : SoulVector T}
    (same : this.setElements heap ((this.elements heap).set this.size (some value)) = (changed, heap')) :
    Method platform heap this heap' { changed with size := changed.size + 1 } (list ++ [value]) := by
  have sizes : changed.size = list.length := by
    rw [← holds.size_eq]
    cases holds <;> cases same <;> rfl
  rw [holds.elements_eq, holds.size_eq, Cells.set_length] at same
  have constructed := holds.setElements (by rw [List.length_append, List.length_singleton]; omega) same
  rwa [List.length_append, List.length_singleton, ← sizes] at constructed

/-- What `emplace_back_internal` does before it constructs the element. -/
def grow (platform : Platform T) (this : SoulVector T) (heap : Heap T) : Except BadAlloc (Result T) :=
  let desired := if this.capacity = 0 then platform.smallCapacity else this.capacity * 2 % 2 ^ 64
  if this.size = this.capacity then reallocate platform this heap desired else .ok (this, heap)

theorem desired_eq (full : this.size = this.capacity) (small : platform.smallCapacity ≤ this.capacity)
    (bytes : this.size * platform.sizeof < 2 ^ 63) :
    (if this.capacity = 0 then platform.smallCapacity else this.capacity * 2 % 2 ^ 64) = this.capacity * 2 ∧
      platform.smallCapacity < this.capacity * 2 := by
  have positive := platform.smallCapacity_pos
  have capacity := Nat.le_mul_of_pos_right this.size platform.sizeof_pos
  rw [if_neg (by omega), Nat.mod_eq_of_lt (by omega)]
  exact ⟨rfl, by omega⟩

theorem Holds.grow_full (holds : Holds platform heap this list) (full : this.size = this.capacity) :
    grow platform this heap = reallocate platform this heap (this.capacity * 2) ∧
      platform.smallCapacity < this.capacity * 2 ∧ this.capacity * 2 * platform.sizeof < 2 ^ 64 := by
  have bytes := holds.bytes_lt
  obtain ⟨doubled, large⟩ := desired_eq full holds.smallCapacity_le (by rwa [full])
  refine ⟨?_, large, ?_⟩
  · rw [grow, if_pos full, doubled]
  · rw [Nat.mul_right_comm]
    omega

theorem grow_spec {grown : SoulVector T} (holds : Holds platform heap this list)
    (returned : grow platform this heap = .ok (grown, heap')) :
    Method platform heap this heap' grown list ∧ list.length < grown.capacity ∧
      (this.size ≠ this.capacity → grown = this ∧ heap' = heap) := by
  have length := holds.size_eq
  have fits := holds.size_le
  by_cases full : this.size = this.capacity
  · obtain ⟨same, large, exact⟩ := holds.grow_full full
    rw [same] at returned
    obtain ⟨method, exactly⟩ := reallocate_spec holds (by omega) exact returned
    refine ⟨method, ?_, fun room => absurd full room⟩
    rw [exactly large]
    omega
  · rw [grow, if_neg full] at returned
    cases returned
    exact ⟨⟨holds, .refl⟩, by omega, fun _ => ⟨rfl, rfl⟩⟩

theorem emplaceBackInternal_cases {value : Argument T} (holds : Holds platform heap this list)
    (returned : emplaceBackInternal platform this heap value = .ok (this', heap')) :
    ∃ grown heap₁, grow platform this heap = .ok (grown, heap₁) ∧ this'.data = grown.data ∧
      this'.capacity = grown.capacity ∧
      ∀ element, value.read grown heap₁ = some element → Method platform heap this heap' this' (list ++ [element]) := by
  obtain ⟨⟨grown, heap₁⟩, first, rest⟩ := bind_eq_ok.mp returned
  obtain ⟨method, room, -⟩ := grow_spec holds first
  obtain ⟨-, data, capacity, -⟩ := setElements_fields grown heap₁
    ((grown.elements heap₁).set grown.size (value.read grown heap₁))
  cases rest
  refine ⟨grown, heap₁, first, data, capacity, ?_⟩
  intro element reads
  rw [reads]
  exact method.trans (construct_spec method.holds room rfl)

theorem emplaceValue_spec {value : T} (holds : Holds platform heap this list)
    (returned : emplaceBackInternal platform this heap (.value (some value)) = .ok (this', heap')) :
    Method platform heap this heap' this' (list ++ [value]) := by
  obtain ⟨grown, heap₁, -, -, -, constructs⟩ := emplaceBackInternal_cases holds returned
  exact constructs value rfl

theorem reserve_spec {newCapacity : Nat} (holds : Holds platform heap this list)
    (exact : newCapacity * platform.sizeof < 2 ^ 64)
    (returned : reserve platform this heap newCapacity = .ok (this', heap')) :
    Method platform heap this heap' this' list ∧ newCapacity ≤ this'.capacity := by
  unfold reserve at returned
  split at returned
  · next enough =>
      cases returned
      exact ⟨⟨holds, .refl⟩, enough⟩
  · next more =>
      have fits := holds.size_le
      have small := holds.smallCapacity_le
      obtain ⟨method, exactly⟩ := reallocate_spec holds (by omega) exact returned
      exact ⟨method, Nat.le_of_eq (exactly (by omega)).symm⟩

theorem shrinkToFit_spec (holds : Holds platform heap this list)
    (returned : shrinkToFit platform this heap = .ok (this', heap')) : Method platform heap this heap' this' list := by
  have length := holds.size_eq
  unfold shrinkToFit at returned
  split at returned
  · next fits =>
      rw [Bool.and_eq_true, decide_eq_true_eq, length] at fits
      exact moveToSmall_spec holds fits.1 (Except.ok.inj returned)
  · split at returned
    · next less =>
        rw [Bool.and_eq_true, decide_eq_true_eq] at less
        have bytes := holds.bytes_lt
        have smaller := Nat.mul_le_mul_right platform.sizeof (Nat.le_of_lt less.1)
        exact (reallocate_spec holds (by omega) (by omega) returned).1
    · cases returned
      exact ⟨holds, .refl⟩

theorem clear_spec (holds : Holds platform heap this list) (same : clear this heap = (this', heap')) :
    Method platform heap this heap' this' [] := by
  simp only [clear, destroyRange, holds.elements_eq, holds.size_eq, Nat.sub_zero, Cells.destroyRange_all,
    ← Cells.ofList_nil] at same
  cases same
  exact holds.setElements (Nat.zero_le _) rfl

/-- Some elements are kept, and which they are is clear if it does not depend on the cells. -/
theorem removeBy_spec {drops : Cells T → T → Bool} (holds : Holds platform heap this list)
    (same : removeBy platform drops this heap = (this', heap')) :
    ∃ kept, Method platform heap this heap' this' kept ∧
      ∀ fixed : T → Bool, drops = (fun _ => fixed) → kept = list.filter fun value => !fixed value := by
  obtain ⟨kept, gap, removed, lengths, filtered⟩ := @Cells.removeRange_append T platform.moved drops [] [] list
  simp only [List.nil_append, List.length_nil, Nat.add_zero, Nat.zero_add] at removed lengths filtered
  refine ⟨kept, ?_, filtered⟩
  have sizes := (setElements_fields this heap (Cells.ofList (kept ++ gap))).1
  have cells := (setElements_fields this heap (Cells.ofList (kept ++ gap))).2.2.2
  have dropped : list.length - kept.length = gap.length := by omega
  simp only [removeBy, holds.elements_eq, holds.size_eq, removed, destroyRange, sizes, cells, dropped,
    Cells.destroyRange_append, setElements_setElements] at same
  cases same
  have fits := holds.size_le
  exact holds.setElements (by omega) rfl

theorem remove_spec [BEq T] {value : T} (holds : Holds platform heap this list)
    (same : remove platform this heap value = (this', heap')) :
    Method platform heap this heap' this' (list.filter fun element => !(element == value)) := by
  obtain ⟨kept, method, filtered⟩ := removeBy_spec holds same
  rwa [filtered _ rfl] at method

theorem erase_spec {pos : Int} (holds : Holds platform heap this list)
    (same : erase platform this heap pos = (this', heap')) :
    Method platform heap this heap' this'
      (if pos < 0 ∨ list.length ≤ pos then list else list.eraseIdx pos.toNat) := by
  unfold erase at same
  rw [holds.size_eq] at same
  split at same
  · next outside =>
      cases same
      rw [if_pos outside]
      exact ⟨holds, .refl⟩
  · next within =>
      rw [if_neg within]
      have bound : pos.toNat < list.length := by omega
      -- the list as the loop sees it: before the position, the element, behind it
      have split : list = list.take pos.toNat ++ list[pos.toNat] :: list.drop (pos.toNat + 1) := by
        rw [← List.drop_eq_getElem_cons, List.take_append_drop]
      have taken : (list.take pos.toNat).length = pos.toNat := by
        rw [List.length_take]
        omega
      have dropped : (list.drop (pos.toNat + 1)).length = list.length - 1 - pos.toNat := by
        rw [List.length_drop]
        omega
      obtain ⟨left, shifted⟩ := @Cells.shiftRange_append T platform.moved (list.take pos.toNat)
        (list.drop (pos.toNat + 1)) list[pos.toNat]
      rw [← split, taken, dropped, ← List.eraseIdx_eq_take_drop_succ] at shifted
      have length : (list.eraseIdx pos.toNat).length = list.length - 1 := by
        rw [List.length_eraseIdx, if_pos bound]
      -- the shift leaves the last cell behind, which is destroyed
      have destroyed : (Cells.ofList (list.eraseIdx pos.toNat ++ [left])).set (list.length - 1) none =
          Cells.ofList (list.eraseIdx pos.toNat) := by
        rw [← length]
        exact Cells.destroyRange_append _ [left]
      have sizes := (setElements_fields this heap (Cells.ofList (list.eraseIdx pos.toNat))).1
      have fits := holds.size_le
      simp only [holds.elements_eq, shifted, destroyed, sizes, holds.size_eq] at same
      cases same
      have method := holds.setElements (by omega : (list.eraseIdx pos.toNat).length ≤ this.capacity) rfl
      rwa [length] at method

theorem sort_spec {comp : T → T → Bool} (holds : Holds platform heap this list)
    (same : sort platform this heap comp = (this', heap')) :
    Method platform heap this heap' this' (platform.sort comp list) := by
  have length : (platform.sort comp list).length = list.length := (platform.sort_perm comp list).length_eq
  have cells : (fun index => if index < list.length then (platform.sort comp list)[index]?
      else Cells.ofList list index) = Cells.ofList (platform.sort comp list) := by
    funext index
    split
    · rfl
    · next beyond => rw [Cells.ofList, Cells.ofList, List.getElem?_eq_none (by omega), List.getElem?_eq_none (by omega)]
  simp only [sort, holds.getAll, holds.elements_eq, holds.size_eq, cells] at same
  have sizes := (setElements_fields this heap (Cells.ofList (platform.sort comp list))).1
  have method := holds.setElements (Nat.le_trans (Nat.le_of_eq length) holds.size_le) same
  rw [same, holds.size_eq, ← length] at sizes
  rwa [← sizes] at method

theorem emplaceAll_spec {range : List T} (holds : Holds platform heap this list)
    (returned : emplaceAll platform this heap range = .ok (this', heap')) :
    Method platform heap this heap' this' (list ++ range) := by
  induction range generalizing this heap list with
  | nil =>
      cases returned
      rw [List.append_nil]
      exact ⟨holds, .refl⟩
  | cons value rest ih =>
      obtain ⟨⟨next, heap₁⟩, first, more⟩ := bind_eq_ok.mp returned
      have constructed := emplaceValue_spec holds first
      have further := ih constructed.holds more
      rw [List.append_assoc, List.singleton_append] at further
      exact constructed.trans further

theorem appendRange_spec {sized : Bool} {range : List T} (holds : Holds platform heap this list)
    (exact : sized = true → (list.length + range.length) * platform.sizeof < 2 ^ 64)
    (returned : appendRange platform this heap sized range = .ok (this', heap')) :
    Method platform heap this heap' this' (list ++ range) := by
  unfold appendRange at returned
  obtain ⟨⟨reserved, heap₁⟩, first, rest⟩ := bind_eq_ok.mp returned
  have method : Method platform heap this heap₁ reserved list := by
    split at first
    · next wants =>
        rw [Bool.and_eq_true] at wants
        have bytes := exact wants.1
        have capacity := Nat.le_mul_of_pos_right (list.length + range.length) platform.sizeof_pos
        rw [holds.size_eq, Nat.mod_eq_of_lt (by omega)] at first
        exact (reserve_spec holds bytes first).1
    · cases first
      exact ⟨holds, .refl⟩
  exact method.trans (emplaceAll_spec method.holds rest)

theorem read_element (this : SoulVector T) (heap : Heap T) (index : Nat) (garbage : T) :
    Argument.read this heap (.element this.data index garbage) = (this.elements heap index).or (some garbage) := by
  unfold elements
  cases this.data <;> rfl

/-- As long as the vector has room, a reference to one of its elements is good. -/
theorem emplaceElement_spec {index : Nat} {value garbage : T} (holds : Holds platform heap this list)
    (room : this.size ≠ this.capacity) (here : list[index]? = some value)
    (returned : emplaceBackInternal platform this heap (.element this.data index garbage) = .ok (this', heap')) :
    Method platform heap this heap' this' (list ++ [value]) ∧ this'.data = this.data ∧
      this'.capacity = this.capacity := by
  obtain ⟨grown, heap₁, grows, data, capacity, constructs⟩ := emplaceBackInternal_cases holds returned
  obtain ⟨rfl, rfl⟩ := (grow_spec holds grows).2.2 room
  have cell : grown.elements heap₁ index = some value := by rw [holds.elements_eq, Cells.ofList, here]
  refine ⟨constructs value ?_, data, capacity⟩
  rw [read_element, cell]
  rfl

/-- A reference to an element of a full vector is not, but something is constructed. -/
theorem emplaceElement_exists {index : Nat} {garbage : T} (holds : Holds platform heap this list)
    (returned : emplaceBackInternal platform this heap (.element this.data index garbage) = .ok (this', heap')) :
    ∃ value, Method platform heap this heap' this' (list ++ [value]) := by
  obtain ⟨grown, heap₁, -, -, -, constructs⟩ := emplaceBackInternal_cases holds returned
  have reads : ∃ value, Argument.read grown heap₁ (.element this.data index garbage) = some value := by
    cases this.data with
    | small => cases cell : grown.smallStorage index <;> simp [Argument.read, cell]
    | heap address => cases cell : heap₁.cells address index <;> simp [Argument.read, cell]
  obtain ⟨value, read⟩ := reads
  exact ⟨value, constructs value read⟩

/-- The elements before the loop are appended in their order; `done` are those already appended. -/
theorem emplaceElements_spec {garbage : T} {storage : Storage} {done rest : List T}
    (holds : Holds platform heap this (done ++ rest ++ done)) (same : this.data = storage)
    (room : (done ++ rest).length + (done ++ rest).length ≤ this.capacity)
    (returned : emplaceElements platform garbage storage this heap done.length rest.length = .ok (this', heap')) :
    Method platform heap this heap' this' (done ++ rest ++ (done ++ rest)) := by
  induction rest generalizing this heap done with
  | nil =>
      cases returned
      rw [List.append_nil] at *
      exact ⟨holds, .refl⟩
  | cons value rest ih =>
      obtain ⟨⟨next, heap₁⟩, first, more⟩ := bind_eq_ok.mp returned
      subst same
      have length := holds.size_eq
      simp only [List.length_append, List.length_cons] at length room
      obtain ⟨constructed, data, capacity⟩ :=
        emplaceElement_spec holds (by omega) (by simp : (done ++ value :: rest ++ done)[done.length]? = some value) first
      have regroup : done ++ value :: rest ++ done ++ [value] = done ++ [value] ++ rest ++ (done ++ [value]) := by simp
      rw [regroup] at constructed
      have further := @ih heap₁ next (done ++ [value]) constructed.holds data
        (by simp only [List.length_append, List.length_cons, List.length_nil]; omega)
        (by simpa using more)
      rw [List.append_assoc done, List.singleton_append] at further
      exact constructed.trans further

theorem appendSelf_spec {garbage : T} (holds : Holds platform heap this list)
    (returned : appendSelf platform this heap garbage = .ok (this', heap')) :
    Method platform heap this heap' this' (list ++ list) := by
  unfold appendSelf at returned
  obtain ⟨⟨reserved, heap₁⟩, first, rest⟩ := bind_eq_ok.mp returned
  have method : Method platform heap this heap₁ reserved list ∧ list.length + list.length ≤ reserved.capacity := by
    rw [holds.size_eq] at first
    have fits := holds.size_le
    split at first
    · have bytes := holds.bytes_lt
      have capacity := Nat.le_mul_of_pos_right this.capacity platform.sizeof_pos
      have smaller := Nat.mul_le_mul_right platform.sizeof fits
      rw [Nat.mod_eq_of_lt (by omega)] at first
      exact reserve_spec holds (by rw [Nat.add_mul]; omega) first
    · cases first
      exact ⟨⟨holds, .refl⟩, by omega⟩
  have start : Holds platform heap₁ reserved ([] ++ list ++ []) := by
    rw [List.nil_append, List.append_nil]
    exact method.1.holds
  dsimp only at rest
  rw [method.1.holds.size_eq] at rest
  exact method.1.trans (emplaceElements_spec start rfl method.2 rest)

@[simp] theorem buffers_make (platform : Platform T) (manager : Nat) : (make platform manager).buffers = [] := rfl

theorem releaseStorage_spec (holds : Holds platform heap this list)
    (same : releaseStorage platform this heap = (this', heap')) :
    this' = make platform this.manager ∧ Runs platform.sizeof vectorTag heap this.buffers heap' [] := by
  cases holds with
  | inline fits =>
      simp only [releaseStorage, destroyRange, elements, setElements, Nat.sub_zero, Cells.destroyRange_all,
        deallocateData] at same
      cases same
      exact ⟨rfl, .refl⟩
  | @heap manager address capacity list fits large bytes live cells =>
      simp only [releaseStorage, destroyRange, elements, cells, setElements, Nat.sub_zero, Cells.destroyRange_all,
        deallocateData] at same
      cases same
      exact ⟨rfl, (Runs.setCells heap ⟨manager, address, capacity⟩ Cells.empty).trans (Runs.deallocate _ _)⟩

variable {other other' : SoulVector T} {more : List Buffer}

/-- The elements of an inline vector reach the other one; `done` are those already moved. -/
theorem adoptElements_spec {done rest : List T} (holds : Holds platform heap this done)
    (reads : ∀ index, other.smallStorage (done.length + index) = rest[index]?)
    (returned : adoptElements platform this other heap done.length rest.length = .ok (this', other', heap')) :
    Method platform heap this heap' this' (done ++ rest) ∧
      other' = { other with smallStorage := other.smallStorage.destroyRange done.length rest.length } := by
  induction rest generalizing this other heap done with
  | nil =>
      cases returned
      rw [List.append_nil]
      exact ⟨⟨holds, .refl⟩, rfl⟩
  | cons value rest ih =>
      have here : other.smallStorage done.length = some value := reads 0
      obtain ⟨⟨next, heap₁⟩, first, onwards⟩ := bind_eq_ok.mp returned
      rw [here] at first
      have constructed := emplaceValue_spec holds first
      -- the element is moved out and then destroyed, so what was left in it does not matter
      have destroyed : (other.smallStorage.set done.length ((other.smallStorage done.length).map platform.moved)).set
          done.length none = other.smallStorage.set done.length none := by
        funext index
        simp only [Cells.set]
        split <;> rfl
      dsimp only at onwards
      rw [destroyed] at onwards
      -- the cells behind are still as they were
      have later : ∀ index, other.smallStorage.set done.length none ((done ++ [value]).length + index) = rest[index]? := by
        intro index
        have following := reads (index + 1)
        rw [List.getElem?_cons_succ] at following
        rw [List.length_append, List.length_singleton, Nat.add_assoc, Nat.add_comm 1, ← following]
        simp only [Cells.set]
        rw [if_neg (by omega)]
      obtain ⟨further, emptied⟩ := @ih heap₁ next
        { other with smallStorage := other.smallStorage.set done.length none } (done ++ [value]) constructed.holds later
        (by simpa using onwards)
      rw [List.append_assoc, List.singleton_append] at further
      refine ⟨constructed.trans further, ?_⟩
      rw [emptied, List.length_append, List.length_singleton]
      rfl

theorem adoptFrom_spec (holds : Holds platform heap other list)
    (returned : adoptFrom platform (make platform other.manager) other heap = .ok (this', other', heap')) :
    Holds platform heap' this' list ∧ other' = make platform other.manager ∧
      Runs platform.sizeof vectorTag heap other.buffers heap' this'.buffers := by
  cases holds with
  | @inline manager list fits =>
      obtain ⟨⟨adopted, left, heap₁⟩, loop, rest⟩ := bind_eq_ok.mp returned
      obtain ⟨method, emptied⟩ := adoptElements_spec (Holds.make platform heap manager)
        (by simp [Cells.ofList] : ∀ index, Cells.ofList list (([] : List T).length + index) = list[index]?) loop
      rw [List.length_nil, Cells.destroyRange_all] at emptied
      cases rest
      rw [emptied]
      exact ⟨method.holds, rfl, method.runs⟩
  | heap fits large bytes live cells =>
      cases returned
      exact ⟨.heap fits large bytes live cells, rfl, .refl⟩

theorem Holds.frame_runs {used left : List Buffer} (holds : Holds platform heap other list)
    (runs : Runs platform.sizeof vectorTag heap used heap' left)
    (accounts : Accounts platform.sizeof vectorTag heap (used ++ more)) (within : ∀ buffer ∈ other.buffers, buffer ∈ more) :
    Holds platform heap' other list := by
  obtain ⟨after, same⟩ := runs more accounts
  refine holds.frame (fun buffer member => same buffer (within buffer member)) ?_
  intro buffer member
  exact after.live buffer (List.mem_append_right _ (within buffer member))

variable {listOther : List T}

theorem moveAssign_spec (holds : Holds platform heap this list) (holdsOther : Holds platform heap other listOther)
    (accounts : Accounts platform.sizeof vectorTag heap (this.buffers ++ (other.buffers ++ more)))
    (returned : moveAssign platform this other heap = .ok (this', other', heap')) :
    Holds platform heap' this' listOther ∧ other' = make platform other.manager ∧
      Runs platform.sizeof vectorTag heap (this.buffers ++ other.buffers) heap' this'.buffers := by
  unfold moveAssign at returned
  cases released : releaseStorage platform this heap with
  | mk emptied heap₁ =>
      obtain ⟨rfl, runs⟩ := releaseStorage_spec holds released
      rw [released] at returned
      have still := holdsOther.frame_runs runs accounts fun buffer => List.mem_append_left _
      obtain ⟨adopted, left, takes⟩ := adoptFrom_spec still returned
      exact ⟨adopted, left, (runs.append other.buffers).trans takes⟩

/-- The elements of another vector are copied; `done` are those already copied. -/
theorem copyElements_spec {done rest : List T} (holds : Holds platform heap this done)
    (holdsOther : Holds platform heap other (done ++ rest))
    (accounts : Accounts platform.sizeof vectorTag heap (this.buffers ++ (other.buffers ++ more)))
    (returned : copyElements platform this other heap done.length rest.length = .ok (this', heap')) :
    Method platform heap this heap' this' (done ++ rest) := by
  induction rest generalizing this heap done with
  | nil =>
      cases returned
      rw [List.append_nil]
      exact ⟨holds, .refl⟩
  | cons value rest ih =>
      obtain ⟨⟨next, heap₁⟩, first, onwards⟩ := bind_eq_ok.mp returned
      have here : other.elements heap done.length = some value := by simp [holdsOther.elements_eq, Cells.ofList]
      rw [here] at first
      have constructed := emplaceValue_spec holds first
      have still := holdsOther.frame_runs constructed.runs accounts fun buffer => List.mem_append_left _
      rw [← List.singleton_append, ← List.append_assoc] at still ⊢
      exact constructed.trans (ih constructed.holds still (constructed.runs _ accounts).1 (by simpa using onwards))

theorem copyFrom_spec (holdsOther : Holds platform heap other listOther)
    (accounts : Accounts platform.sizeof vectorTag heap (other.buffers ++ more))
    (returned : copyFrom platform other heap = .ok (this', heap')) :
    Method platform heap (make platform other.manager) heap' this' listOther := by
  unfold copyFrom at returned
  obtain ⟨⟨reserved, heap₁⟩, first, rest⟩ := bind_eq_ok.mp returned
  rw [holdsOther.size_eq] at first
  have bytes := holdsOther.bytes_lt
  have smaller := Nat.mul_le_mul_right platform.sizeof holdsOther.size_le
  obtain ⟨method, -⟩ := reserve_spec (Holds.make platform heap other.manager) (by omega) first
  have still := holdsOther.frame_runs method.runs accounts fun buffer => List.mem_append_left _
  dsimp only at rest
  rw [holdsOther.size_eq] at rest
  exact method.trans (copyElements_spec method.holds still (method.runs _ accounts).1 rest)

theorem swap_spec (holds : Holds platform heap this list) (holdsOther : Holds platform heap other listOther)
    (accounts : Accounts platform.sizeof vectorTag heap (this.buffers ++ (other.buffers ++ more)))
    (returned : swap platform this other heap = .ok (this', other', heap')) :
    Holds platform heap' this' listOther ∧ Holds platform heap' other' list ∧
      Runs platform.sizeof vectorTag heap (this.buffers ++ other.buffers) heap' (this'.buffers ++ other'.buffers) := by
  unfold swap at returned
  obtain ⟨⟨tmp, emptied, heap₁⟩, first, returned⟩ := bind_eq_ok.mp returned
  obtain ⟨⟨taker, emptied', heap₂⟩, second, returned⟩ := bind_eq_ok.mp returned
  obtain ⟨⟨final, emptied'', heap₃⟩, third, returned⟩ := bind_eq_ok.mp returned
  -- The other vector goes to `tmp`.
  have accounts := accounts.exchange
  obtain ⟨inTmp, rfl, runs₁⟩ := adoptFrom_spec holdsOther first
  have still := holds.frame_runs runs₁ accounts fun buffer => List.mem_append_left _
  -- This vector goes to the other.
  have accounts₁ := (runs₁ _ accounts).1.exchange
  obtain ⟨inOther, rfl, runs₂⟩ := moveAssign_spec (Holds.make platform heap₁ other.manager) still accounts₁ second
  have stillTmp := inTmp.frame_runs runs₂ accounts₁ fun buffer => List.mem_append_left _
  -- And `tmp` goes to this one.
  have accounts₂ := (runs₂ _ accounts₁).1.exchange
  obtain ⟨inThis, rfl, runs₃⟩ := moveAssign_spec (Holds.make platform heap₂ this.manager) stillTmp accounts₂ third
  have stillOther := inOther.frame_runs runs₃ accounts₂ fun buffer => List.mem_append_left _
  have accounts₃ := (runs₃ _ accounts₂).1
  cases released : releaseStorage platform (make platform tmp.manager) heap₃ with
  | mk destroyed heap₄ =>
      obtain ⟨-, runs₄⟩ := releaseStorage_spec (Holds.make platform heap₃ tmp.manager) released
      dsimp only at returned
      rw [released] at returned
      cases returned
      refine ⟨inThis.frame_runs runs₄ accounts₃ fun buffer => List.mem_append_left _,
        stillOther.frame_runs runs₄ accounts₃ fun buffer member => List.mem_append_right _ (List.mem_append_left _ member), ?_⟩
      have toTmp := (runs₁.append this.buffers).perm List.perm_append_comm List.perm_append_comm
      have toOther := (runs₂.append tmp.buffers).perm .rfl List.perm_append_comm
      exact ((toTmp.trans toOther).trans (runs₃.append _)).trans (runs₄.append _)

theorem copyAssign_spec (holds : Holds platform heap this list) (holdsOther : Holds platform heap other listOther)
    (accounts : Accounts platform.sizeof vectorTag heap (this.buffers ++ (other.buffers ++ more)))
    (returned : copyAssign platform this other heap = .ok (this', heap')) :
    Method platform heap this heap' this' listOther := by
  unfold copyAssign at returned
  obtain ⟨⟨tmp, heap₁⟩, first, returned⟩ := bind_eq_ok.mp returned
  obtain ⟨⟨final, left, heap₂⟩, second, returned⟩ := bind_eq_ok.mp returned
  have copied := copyFrom_spec holdsOther accounts.exchange first
  have accounts₀ : Accounts platform.sizeof vectorTag heap
      ((make platform other.manager).buffers ++ (this.buffers ++ (other.buffers ++ more))) := accounts
  have still := holds.frame_runs copied.runs accounts₀ fun buffer => List.mem_append_left _
  have accounts₁ := (copied.runs _ accounts₀).1.exchange
  obtain ⟨inThis, inTmp, runs₂⟩ := swap_spec still copied.holds accounts₁ second
  have accounts₂ := (runs₂ (other.buffers ++ more) (by rw [List.append_assoc]; exact accounts₁)).1
  cases released : releaseStorage platform left heap₂ with
  | mk destroyed heap₃ =>
      obtain ⟨-, runs₃⟩ := releaseStorage_spec inTmp released
      dsimp only at returned
      rw [released] at returned
      cases returned
      rw [List.append_assoc] at accounts₂
      refine ⟨inThis.frame_runs runs₃ accounts₂.exchange fun buffer => List.mem_append_left _, ?_⟩
      have copies := (copied.runs.append this.buffers).perm .rfl List.perm_append_comm
      exact (copies.trans runs₂).trans ((runs₃.append _).perm List.perm_append_comm .rfl)

theorem ofList_spec {manager : Nat} {init : List T} (exact : init.length * platform.sizeof < 2 ^ 64)
    (returned : ofList platform manager heap init = .ok (this', heap')) :
    Method platform heap (make platform manager) heap' this' init := by
  unfold ofList at returned
  obtain ⟨⟨reserved, heap₁⟩, first, rest⟩ := bind_eq_ok.mp returned
  obtain ⟨method, -⟩ := reserve_spec (Holds.make platform heap manager) exact first
  exact method.trans (emplaceAll_spec method.holds rest)

theorem ofRange_spec {manager : Nat} {sized : Bool} {range : List T}
    (exact : sized = true → range.length * platform.sizeof < 2 ^ 64)
    (returned : ofRange platform manager heap sized range = .ok (this', heap')) :
    Method platform heap (make platform manager) heap' this' range := by
  refine appendRange_spec (Holds.make platform heap manager) ?_ returned
  rw [List.length_nil, Nat.zero_add]
  exact exact

end SoulLib.Containers.SoulVector
