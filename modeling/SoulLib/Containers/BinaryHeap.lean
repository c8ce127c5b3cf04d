import SoulLib.Containers.Heap

/-! The heap operations on a binary tree in a vector.

An element is pushed at the end and exchanged with its parents. When the top is
popped the last element takes its place, and is exchanged with the larger of its
children.
-/

set_option autoImplicit false

namespace SoulLib.Containers

variable {α : Type} {less : α → α → Bool} {elements : List α}

def exchange (elements : List α) (i j : Nat) : List α :=
  match elements[i]?, elements[j]? with
  | some a, some b => (elements.set i b).set j a
  | _, _ => elements

theorem exchange_perm (elements : List α) (i j : Nat) : (exchange elements i j).Perm elements := by
  unfold exchange
  split
  · next a b first second =>
      obtain ⟨boundI, rfl⟩ := List.getElem?_eq_some_iff.mp first
      obtain ⟨boundJ, rfl⟩ := List.getElem?_eq_some_iff.mp second
      exact List.set_set_perm boundI boundJ
  · exact .refl _

theorem getElem?_exchange {i j : Nat} {a b : α} (first : elements[i]? = some a) (second : elements[j]? = some b)
    (k : Nat) : (exchange elements i j)[k]? = if k = j then some a else if k = i then some b else elements[k]? := by
  have boundI := (List.getElem?_eq_some_iff.mp first).1
  have boundJ := (List.getElem?_eq_some_iff.mp second).1
  simp only [exchange, first, second, List.getElem?_set, List.length_set, boundI, boundJ, if_true, eq_comm (b := k)]

section SiftUp

def siftUp (less : α → α → Bool) (elements : List α) (child : Nat) : List α :=
  if 0 < child then
    match elements[(child - 1) / 2]?, elements[child]? with
    | some above, some element =>
        if less above element then siftUp less (exchange elements ((child - 1) / 2) child) ((child - 1) / 2)
        else elements
    | _, _ => elements
  else elements
termination_by child

/-- Only the element at a position may be above its parent, and its children are not above that parent either. -/
structure HeapButAt (less : α → α → Bool) (elements : List α) (position : Nat) : Prop where
  others : ∀ child, 0 < child → child ≠ position → NotBelow less elements ((child - 1) / 2) child
  grandchildren : 0 < position → ∀ child, 0 < child → (child - 1) / 2 = position →
    NotBelow less elements ((position - 1) / 2) child

theorem HeapButAt.isHeap {position : Nat} (so : HeapButAt less elements position)
    (fits : 0 < position → NotBelow less elements ((position - 1) / 2) position) : IsHeap less elements := by
  intro child positive
  by_cases here : child = position
  · subst here
    exact fits positive
  · exact so.others child positive here

/-- The element that was above its parent may be above its next parent. -/
theorem HeapButAt.exchanged (order : StrictWeakOrder less) {position : Nat} (so : HeapButAt less elements position)
    (positive : 0 < position) {above element : α} (parent : elements[(position - 1) / 2]? = some above)
    (here : elements[position]? = some element) (exceeds : less above element = true) :
    HeapButAt less (exchange elements ((position - 1) / 2) position) ((position - 1) / 2) := by
  have lookup := getElem?_exchange parent here
  have moved : (exchange elements ((position - 1) / 2) position)[(position - 1) / 2]? = some element := by
    rw [lookup, if_neg (by omega), if_pos rfl]
  constructor
  · intro child positive' differ a foundA b foundB
    by_cases same : child = position
    · subst same
      rw [moved] at foundA
      rw [lookup, if_pos rfl] at foundB
      cases foundA
      cases foundB
      exact order.asymmetric exceeds
    · rw [lookup, if_neg same, if_neg differ] at foundB
      by_cases below : (child - 1) / 2 = position
      · -- A child of the position gets the old parent as its parent.
        rw [lookup, if_pos below] at foundA
        cases foundA
        exact so.grandchildren positive child positive' below above parent b foundB
      · by_cases sibling : (child - 1) / 2 = (position - 1) / 2
        · rw [sibling, moved] at foundA
          cases foundA
          have under := so.others child positive' same above (sibling ▸ parent) b foundB
          by_contra exceeded
          have further := order.transitive _ _ _ exceeds (by simpa using exceeded)
          rw [under] at further
          cases further
        · rw [lookup, if_neg below, if_neg sibling] at foundA
          exact so.others child positive' same a foundA b foundB
  · intro positive' child childPositive childOf a foundA b foundB
    rw [lookup, if_neg (by omega), if_neg (by omega)] at foundA
    have under := so.others ((position - 1) / 2) positive' (by omega) a foundA above parent
    by_cases same : child = position
    · rw [lookup, if_pos same] at foundB
      cases foundB
      exact under
    · rw [lookup, if_neg same, if_neg (by omega)] at foundB
      have grandparent := so.others child childPositive same above (childOf ▸ parent) b foundB
      exact order.negativelyTransitive _ _ _ under grandparent

theorem siftUp_perm (less : α → α → Bool) (elements : List α) (child : Nat) :
    (siftUp less elements child).Perm elements := by
  induction child using Nat.strongRecOn generalizing elements with
  | ind child ih =>
      rw [siftUp]
      split
      · split
        · split
          · exact (ih _ (by omega) _).trans (exchange_perm _ _ _)
          · exact .refl _
        · exact .refl _
      · exact .refl _

theorem siftUp_isHeap (order : StrictWeakOrder less) {position : Nat} (so : HeapButAt less elements position) :
    IsHeap less (siftUp less elements position) := by
  induction position using Nat.strongRecOn generalizing elements with
  | ind position ih =>
      rw [siftUp]
      split
      · next positive =>
          split
          · next above element parent here =>
              split
              · next exceeds => exact ih _ (by omega) (so.exchanged order positive parent here exceeds)
              · next fits =>
                  refine so.isHeap ?_
                  intro _ a foundA b foundB
                  rw [parent] at foundA
                  rw [here] at foundB
                  cases foundA
                  cases foundB
                  simpa using fits
          · next missing =>
              refine so.isHeap ?_
              intro _ a foundA b foundB
              exact absurd foundB (missing a b foundA)
      · next root => exact so.isHeap fun positive => absurd positive root

end SiftUp

section SiftDown

/-- The larger of the children, or the only one. -/
def largerChild (less : α → α → Bool) (elements : List α) (parent : Nat) : Nat :=
  match elements[2 * parent + 1]?, elements[2 * parent + 2]? with
  | some left, some right => if less left right then 2 * parent + 2 else 2 * parent + 1
  | _, _ => 2 * parent + 1

theorem largerChild_cases (less : α → α → Bool) (elements : List α) (parent : Nat) :
    largerChild less elements parent = 2 * parent + 1 ∨ largerChild less elements parent = 2 * parent + 2 := by
  unfold largerChild
  split
  · split
    · exact .inr rfl
    · exact .inl rfl
  · exact .inl rfl

theorem notBelow_largerChild (order : StrictWeakOrder less) {parent child : Nat} (positive : 0 < child)
    (childOf : (child - 1) / 2 = parent) : NotBelow less elements (largerChild less elements parent) child := by
  have sides : child = 2 * parent + 1 ∨ child = 2 * parent + 2 := by omega
  intro a foundA b foundB
  unfold largerChild at foundA
  split at foundA
  · next left right foundL foundR =>
      split at foundA
      · next exceeds =>
          rw [foundR] at foundA
          cases foundA
          rcases sides with rfl | rfl
          · rw [foundL] at foundB
            cases foundB
            exact order.asymmetric exceeds
          · rw [foundR] at foundB
            cases foundB
            exact order.irreflexive _
      · next fits =>
          rw [foundL] at foundA
          cases foundA
          rcases sides with rfl | rfl
          · rw [foundL] at foundB
            cases foundB
            exact order.irreflexive _
          · rw [foundR] at foundB
            cases foundB
            simpa using fits
  · next missing =>
      rcases sides with rfl | rfl
      · rw [foundB] at foundA
        cases foundA
        exact order.irreflexive _
      · exact absurd foundB (missing a b foundA)

def siftDown (less : α → α → Bool) (elements : List α) (parent : Nat) : List α :=
  match elements[parent]?, _ : elements[largerChild less elements parent]? with
  | some element, some larger =>
      if less element larger then
        siftDown less (exchange elements parent (largerChild less elements parent)) (largerChild less elements parent)
      else elements
  | _, _ => elements
termination_by elements.length - parent
decreasing_by
  have bound := (List.getElem?_eq_some_iff.mp ‹elements[largerChild less elements parent]? = some larger›).1
  have sides := largerChild_cases less elements parent
  rw [(exchange_perm _ _ _).length_eq]
  omega

/-- Only the children of a position may be above it, and they are not above its parent. -/
structure HeapButBelow (less : α → α → Bool) (elements : List α) (position : Nat) : Prop where
  others : ∀ child, 0 < child → (child - 1) / 2 ≠ position → NotBelow less elements ((child - 1) / 2) child
  grandchildren : 0 < position → ∀ child, 0 < child → (child - 1) / 2 = position →
    NotBelow less elements ((position - 1) / 2) child

theorem HeapButBelow.isHeap {position : Nat} (so : HeapButBelow less elements position)
    (fits : ∀ child, 0 < child → (child - 1) / 2 = position → NotBelow less elements position child) :
    IsHeap less elements := by
  intro child positive
  by_cases childOf : (child - 1) / 2 = position
  · rw [childOf]
    exact fits child positive childOf
  · exact so.others child positive childOf

theorem HeapButBelow.exchanged (order : StrictWeakOrder less) {position : Nat} (so : HeapButBelow less elements position)
    {element larger : α} (here : elements[position]? = some element)
    (child : elements[largerChild less elements position]? = some larger) (exceeds : less element larger = true) :
    HeapButBelow less (exchange elements position (largerChild less elements position))
      (largerChild less elements position) := by
  have sides := largerChild_cases less elements position
  have chosen : ∀ other, 0 < other → (other - 1) / 2 = position →
      NotBelow less elements (largerChild less elements position) other :=
    fun _ positive childOf => notBelow_largerChild order positive childOf
  generalize largerChild less elements position = next at *
  have lookup := getElem?_exchange here child
  have moved : (exchange elements position next)[position]? = some larger := by
    rw [lookup, if_neg (by omega), if_pos rfl]
  constructor
  · intro other positive differ a foundA b foundB
    by_cases same : other = next
    · have parent : (other - 1) / 2 = position := by omega
      rw [parent, moved] at foundA
      rw [lookup, if_pos same] at foundB
      cases foundA
      cases foundB
      exact order.asymmetric exceeds
    · by_cases sibling : (other - 1) / 2 = position
      · rw [sibling, moved] at foundA
        rw [lookup, if_neg same, if_neg (by omega)] at foundB
        cases foundA
        exact chosen other positive sibling larger child b foundB
      · rw [lookup, if_neg differ, if_neg sibling] at foundA
        by_cases up : other = position
        · -- The parent of the position gets the larger child as its own.
          subst up
          rw [moved] at foundB
          cases foundB
          exact so.grandchildren positive next (by omega) (by omega) a foundA larger child
        · rw [lookup, if_neg same, if_neg up] at foundB
          exact so.others other positive sibling a foundA b foundB
  · intro positive other otherPositive childOf a foundA b foundB
    have parent : (next - 1) / 2 = position := by omega
    rw [parent, moved] at foundA
    rw [lookup, if_neg (by omega), if_neg (by omega)] at foundB
    cases foundA
    exact so.others other otherPositive (by omega) larger (childOf ▸ child) b foundB

theorem siftDown_perm (less : α → α → Bool) (elements : List α) (parent : Nat) :
    (siftDown less elements parent).Perm elements := by
  fun_induction siftDown less elements parent with
  | case1 elements parent element larger child exceeds here ih => exact ih.trans (exchange_perm _ _ _)
  | case2 => exact .refl _
  | case3 => exact .refl _

theorem notBelow_of_missing {parent child : Nat} (missing : ∀ element larger, elements[parent]? = some element →
      elements[largerChild less elements parent]? = some larger → False)
    (positive : 0 < child) (childOf : (child - 1) / 2 = parent) : NotBelow less elements parent child := by
  intro a foundA b foundB
  have bound := (List.getElem?_eq_some_iff.mp foundB).1
  have left : 2 * parent + 1 < elements.length := by omega
  have inside : largerChild less elements parent < elements.length := by
    unfold largerChild
    split
    · next right foundR =>
        have boundR := (List.getElem?_eq_some_iff.mp foundR).1
        split <;> omega
    · exact left
  exact (missing a _ foundA (List.getElem?_eq_getElem inside)).elim

theorem siftDown_isHeap (order : StrictWeakOrder less) {position : Nat} (so : HeapButBelow less elements position) :
    IsHeap less (siftDown less elements position) := by
  fun_induction siftDown less elements position with
  | case1 elements parent element larger child here exceeds ih => exact ih (so.exchanged order here child exceeds)
  | case2 elements parent element larger child here fits =>
      refine so.isHeap ?_
      intro other positive childOf a foundA b foundB
      rw [here] at foundA
      cases foundA
      have under := notBelow_largerChild order positive childOf larger child b foundB
      exact order.negativelyTransitive _ _ _ (by simpa using fits) under
  | case3 elements parent missing =>
      refine so.isHeap ?_
      intro other positive childOf
      exact notBelow_of_missing missing positive childOf

end SiftDown

namespace BinaryHeap

def push (less : α → α → Bool) (elements : List α) (element : α) : List α :=
  siftUp less (elements ++ [element]) elements.length

/-- The last element goes to the top. -/
def pop (less : α → α → Bool) (elements : List α) : List α :=
  match elements.tail.getLast? with
  | none => []
  | some last => siftDown less (last :: elements.tail.dropLast) 0

theorem push_perm (elements : List α) (element : α) : (push less elements element).Perm (element :: elements) :=
  (siftUp_perm less _ _).trans List.perm_append_comm

theorem pop_perm (elements : List α) : (pop less elements).Perm elements.tail := by
  unfold pop
  split
  · next none => rw [List.getLast?_eq_none_iff.mp none]
  · next last found =>
      have split : elements.tail.dropLast ++ [last] = elements.tail := List.dropLast_append_getLast? last found
      have front : (elements.tail.dropLast ++ [last]).Perm (last :: elements.tail.dropLast) :=
        List.perm_append_singleton last _
      rw [split] at front
      exact (siftDown_perm less _ _).trans front.symm

theorem push_isHeap (order : StrictWeakOrder less) (isHeap : IsHeap less elements) (element : α) :
    IsHeap less (push less elements element) := by
  apply siftUp_isHeap order
  constructor
  · intro child positive differ a foundA b foundB
    have bound := (List.getElem?_eq_some_iff.mp foundB).1
    rw [List.length_append, List.length_singleton] at bound
    rw [List.getElem?_append_left (by omega)] at foundA foundB
    exact isHeap child positive a foundA b foundB
  · intro positive child childPositive childOf a foundA b foundB
    have bound := (List.getElem?_eq_some_iff.mp foundB).1
    rw [List.length_append, List.length_singleton] at bound
    omega

theorem pop_isHeap (order : StrictWeakOrder less) (isHeap : IsHeap less elements) :
    IsHeap less (pop less elements) := by
  unfold pop
  split
  · intro child _ a foundA
    cases foundA
  · next last found =>
      apply siftDown_isHeap order
      have same : ∀ position element, 0 < position →
          (last :: elements.tail.dropLast)[position]? = some element → elements[position]? = some element := by
        intro position element positive there
        obtain ⟨before, rfl⟩ := Nat.exists_eq_succ_of_ne_zero (Nat.ne_of_gt positive)
        rw [Nat.succ_eq_add_one, List.getElem?_cons_succ, List.getElem?_dropLast] at there
        split at there
        · rwa [List.getElem?_tail] at there
        · cases there
      constructor
      · intro child positive differ a foundA b foundB
        exact isHeap child positive a (same _ _ (by omega) foundA) b (same _ _ positive foundB)
      · intro positive
        exact absurd positive (Nat.lt_irrefl 0)

end BinaryHeap

/-- The binary heap does what the standard says. -/
def binaryHeap (order : StrictWeakOrder less) : HeapAlgorithms less where
  push heap element := ⟨BinaryHeap.push less heap.elements element, BinaryHeap.push_isHeap order heap.isHeap element⟩
  pop heap := ⟨BinaryHeap.pop less heap.elements, BinaryHeap.pop_isHeap order heap.isHeap⟩
  push_perm heap element := BinaryHeap.push_perm heap.elements element
  pop_perm heap := BinaryHeap.pop_perm heap.elements

end SoulLib.Containers
