import SoulLib.Containers.PriorityQueue

/-! Heaps of a `std::priority_queue`.

The standard says what `std::push_heap` and `std::pop_heap` do to the elements and
that a heap stays one, and leaves open where the elements go. A heap carries its
order, and whoever implements the two operations supplies them as functions.
-/

set_option autoImplicit false

namespace SoulLib.Containers

variable {α : Type}

/-- What the standard asks of a comparison. -/
structure StrictWeakOrder (less : α → α → Bool) : Prop where
  irreflexive : ∀ a, less a a = false
  transitive : ∀ a b c, less a b = true → less b c = true → less a c = true
  negativelyTransitive : ∀ a b c, less a b = false → less b c = false → less a c = false

theorem StrictWeakOrder.asymmetric {less : α → α → Bool} (order : StrictWeakOrder less) {a b : α}
    (below : less a b = true) : less b a = false := by
  by_contra above
  have cycle := order.transitive a b a below (by simpa using above)
  rw [order.irreflexive] at cycle
  cases cycle

/-- The element at the first position is not below that at the second. -/
def NotBelow (less : α → α → Bool) (elements : List α) (first second : Nat) : Prop :=
  ∀ a ∈ elements[first]?, ∀ b ∈ elements[second]?, less a b = false

/-- No element is above its parent. -/
def IsHeap (less : α → α → Bool) (elements : List α) : Prop :=
  ∀ child, 0 < child → NotBelow less elements ((child - 1) / 2) child

structure HeapQueue (less : α → α → Bool) where
  elements : List α
  isHeap : IsHeap less elements

namespace HeapQueue

variable {less : α → α → Bool}

def empty : HeapQueue less where
  elements := []
  isHeap := by
    intro child _ a found
    cases found

/-- Nothing is above the element on top, by induction on the position. -/
theorem not_above_top (order : StrictWeakOrder less) (heap : HeapQueue less) {top element : α}
    (first : heap.elements.head? = some top) (member : element ∈ heap.elements) : less top element = false := by
  have front : heap.elements[0]? = some top := by rw [← first, List.head?_eq_getElem?]
  obtain ⟨position, found⟩ := List.getElem?_of_mem member
  induction position using Nat.strongRecOn generalizing element with
  | ind position ih =>
      by_cases positive : 0 < position
      · have bound := (List.getElem?_eq_some_iff.mp found).1
        have above : (position - 1) / 2 < heap.elements.length := by omega
        have parent := List.getElem?_eq_getElem above
        have further := ih _ (by omega) (List.mem_of_getElem? parent) parent
        exact order.negativelyTransitive _ _ _ further (heap.isHeap position positive _ parent _ found)
      · obtain rfl : position = 0 := by omega
        rw [front] at found
        cases found
        exact order.irreflexive top

end HeapQueue

/-- `push` is `push_back` with `std::push_heap`, and `pop` is `std::pop_heap` with `pop_back`. -/
structure HeapAlgorithms (less : α → α → Bool) where
  push : HeapQueue less → α → HeapQueue less
  pop : HeapQueue less → HeapQueue less
  push_perm : ∀ heap element, (push heap element).elements.Perm (element :: heap.elements)
  pop_perm : ∀ heap, (pop heap).elements.Perm heap.elements.tail

namespace HeapAlgorithms

variable {less : α → α → Bool} (algorithms : HeapAlgorithms less)

theorem length_pop_lt {heap : HeapQueue less} {top : α} {rest : List α} (filled : heap.elements = top :: rest) :
    (algorithms.pop heap).elements.length < heap.elements.length := by
  rw [(algorithms.pop_perm heap).length_eq, filled]
  exact Nat.lt_succ_self _

/-- The elements in the order in which they are popped. -/
def drain (heap : HeapQueue less) : List α :=
  match _ : heap.elements with
  | [] => []
  | top :: _ => top :: drain (algorithms.pop heap)
termination_by heap.elements.length
decreasing_by exact algorithms.length_pop_lt ‹_›

/-- One heap is popped until it is empty, and what is kept of its elements is pushed onto another. -/
def transfer (keep : α → Option α) (heap into : HeapQueue less) : HeapQueue less :=
  match _ : heap.elements with
  | [] => into
  | top :: _ =>
      transfer keep (algorithms.pop heap) (match keep top with
        | some element => algorithms.push into element
        | none => into)
termination_by heap.elements.length
decreasing_by exact algorithms.length_pop_lt ‹_›

/-- Induction along the pops that empty a heap. -/
theorem popping_induction {motive : HeapQueue less → Prop} (empty : ∀ heap, heap.elements = [] → motive heap)
    (pop : ∀ heap top rest, heap.elements = top :: rest → motive (algorithms.pop heap) → motive heap)
    (heap : HeapQueue less) : motive heap := by
  induction size : heap.elements.length using Nat.strongRecOn generalizing heap with
  | ind size ih =>
      cases filled : heap.elements with
      | nil => exact empty heap filled
      | cons top rest => exact pop heap top rest filled (ih _ (size ▸ algorithms.length_pop_lt filled) _ rfl)

variable {heap into : HeapQueue less} {keep : α → Option α} {top : α} {rest : List α}

theorem drain_empty (empty : heap.elements = []) : algorithms.drain heap = [] := by
  rw [drain]
  split
  · rfl
  · next filled =>
      rw [empty] at filled
      cases filled

theorem drain_pop (filled : heap.elements = top :: rest) :
    algorithms.drain heap = top :: algorithms.drain (algorithms.pop heap) := by
  rw [drain]
  split
  · next empty =>
      rw [empty] at filled
      cases filled
  · next same =>
      rw [filled] at same
      cases same
      rfl

theorem transfer_empty (empty : heap.elements = []) : algorithms.transfer keep heap into = into := by
  rw [transfer]
  split
  · rfl
  · next filled =>
      rw [empty] at filled
      cases filled

theorem transfer_pop (filled : heap.elements = top :: rest) :
    algorithms.transfer keep heap into =
      algorithms.transfer keep (algorithms.pop heap) (match keep top with
        | some element => algorithms.push into element
        | none => into) := by
  rw [transfer]
  split
  · next empty =>
      rw [empty] at filled
      cases filled
  · next same =>
      rw [filled] at same
      cases same
      rfl

theorem pop_perm_rest (filled : heap.elements = top :: rest) : (algorithms.pop heap).elements.Perm rest := by
  have popped := algorithms.pop_perm heap
  rwa [filled] at popped

theorem drain_perm (heap : HeapQueue less) : (algorithms.drain heap).Perm heap.elements := by
  induction heap using algorithms.popping_induction with
  | empty heap empty => rw [algorithms.drain_empty empty, empty]
  | pop heap top rest filled ih =>
      rw [algorithms.drain_pop filled, filled]
      exact (ih.trans (algorithms.pop_perm_rest filled)).cons top

theorem drain_pairwise (order : StrictWeakOrder less) (heap : HeapQueue less) :
    (algorithms.drain heap).Pairwise fun earlier later => less earlier later = false := by
  induction heap using algorithms.popping_induction with
  | empty heap empty =>
      rw [algorithms.drain_empty empty]
      exact .nil
  | pop heap top rest filled ih =>
      rw [algorithms.drain_pop filled, List.pairwise_cons]
      refine ⟨?_, ih⟩
      intro later member
      have popped := (algorithms.drain_perm _).mem_iff.mp member
      have within := (algorithms.pop_perm_rest filled).mem_iff.mp popped
      refine heap.not_above_top order ?_ ?_
      · rw [filled, List.head?_cons]
      · rw [filled]
        exact List.mem_cons_of_mem top within

theorem transfer_perm (keep : α → Option α) (heap into : HeapQueue less) :
    (algorithms.transfer keep heap into).elements.Perm (heap.elements.filterMap keep ++ into.elements) := by
  induction heap using algorithms.popping_induction generalizing into with
  | empty heap empty => rw [algorithms.transfer_empty empty, empty, List.filterMap_nil, List.nil_append]
  | pop heap top rest filled ih =>
      have popped := (algorithms.pop_perm_rest filled).filterMap keep
      rw [algorithms.transfer_pop filled, filled, List.filterMap_cons]
      cases keep top with
      | none => exact (ih into).trans (popped.append_right _)
      | some element =>
          have pushed := (ih (algorithms.push into element)).trans (popped.append (algorithms.push_perm into element))
          exact pushed.trans List.perm_middle

end HeapAlgorithms

end SoulLib.Containers
