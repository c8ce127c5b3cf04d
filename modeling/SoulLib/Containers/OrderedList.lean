import Mathlib.Data.List.TakeWhile
import SoulLib.Containers.Comparator

/-! Elements kept in order.

What the standard promises of its ordered containers: an element goes behind those that
are equivalent to it, or is refused if there is one, and what is erased is everything
that is equivalent.
-/

set_option autoImplicit false

namespace SoulLib.Containers

variable {α : Type} (less : α → α → Bool)

/-- Neither comes before the other. -/
def equivalent (a b : α) : Bool := !less a b && !less b a

/-- No element comes before an earlier one. -/
def InOrder (list : List α) : Prop := list.Pairwise fun a b => less b a = false

/-- Every element comes before the later ones. -/
def StrictlyInOrder (list : List α) : Prop := list.Pairwise fun a b => less a b = true

/-- Behind everything that does not come after the element. -/
def insertBehind (element : α) : List α → List α
  | [] => [element]
  | first :: rest => if less element first then element :: first :: rest else first :: insertBehind element rest

/-- What is equivalent to the element is changed instead, if there is such. -/
def insertOr (change : α → α) (element : α) : List α → List α
  | [] => [element]
  | first :: rest =>
      if less element first then element :: first :: rest
      else if less first element then first :: insertOr change element rest
      else change first :: rest

/-- What comes before the element, what is equivalent to it, and what comes after it. -/
def lowerPart (element : α) (list : List α) : List α := list.takeWhile (less · element)

def equalRange (element : α) (list : List α) : List α :=
  (list.dropWhile (less · element)).takeWhile fun other => !less element other

def upperPart (element : α) (list : List α) : List α :=
  (list.dropWhile (less · element)).dropWhile fun other => !less element other

def eraseEquivalent (element : α) (list : List α) : List α := list.filter fun other => !equivalent less other element

variable {less} {element : α} {list : List α} {change : α → α}

theorem equivalent_iff {a b : α} : equivalent less a b = true ↔ less a b = false ∧ less b a = false := by
  simp [equivalent]

theorem equivalent_comm (a b : α) : equivalent less a b = equivalent less b a := by
  rw [equivalent, equivalent, Bool.and_comm]

theorem insertBehind_perm (element : α) (list : List α) : (insertBehind less element list).Perm (element :: list) := by
  induction list with
  | nil => exact .refl _
  | cons first rest ih =>
      rw [insertBehind]
      split
      · exact .refl _
      · exact (ih.cons first).trans (.swap element first rest)

theorem parts_append (element : α) (list : List α) :
    lowerPart less element list ++ equalRange less element list ++ upperPart less element list = list := by
  rw [List.append_assoc, equalRange, upperPart, List.takeWhile_append_dropWhile, lowerPart,
    List.takeWhile_append_dropWhile]

theorem less_of_mem_lowerPart {other : α} (member : other ∈ lowerPart less element list) :
    less other element = true := by
  have kept : other ∈ list.takeWhile (less · element) := member
  have before := List.mem_takeWhile_imp kept
  exact before

theorem mem_insertOr {other : α} (member : other ∈ insertOr less change element list) :
    other = element ∨ other ∈ list ∨ ∃ before ∈ list, equivalent less before element = true ∧ other = change before := by
  induction list with
  | nil => exact .inl (List.mem_singleton.mp member)
  | cons first rest ih =>
      rw [insertOr] at member
      split at member
      · rcases List.mem_cons.mp member with same | before
        · exact .inl same
        · exact .inr (.inl before)
      · next notBefore =>
          split at member
          · rcases List.mem_cons.mp member with rfl | later
            · exact .inr (.inl List.mem_cons_self)
            · rcases ih later with same | before | ⟨before, within, equal, changed⟩
              · exact .inl same
              · exact .inr (.inl (List.mem_cons_of_mem _ before))
              · exact .inr (.inr ⟨before, List.mem_cons_of_mem _ within, equal, changed⟩)
          · next notAfter =>
              rcases List.mem_cons.mp member with changed | later
              · refine .inr (.inr ⟨first, List.mem_cons_self, ?_, changed⟩)
                exact equivalent_iff.mpr ⟨by simpa using notAfter, by simpa using notBefore⟩
              · exact .inr (.inl (List.mem_cons_of_mem _ later))

section StrictWeak

variable [order : IsStrictWeakOrder α fun a b => less a b = true]

theorem equivalent_self (a : α) : equivalent less a a = true :=
  equivalent_iff.mpr ⟨less_irreflexive a, less_irreflexive a⟩

theorem equivalent_trans {a b c : α} (first : equivalent less a b = true) (second : equivalent less b c = true) :
    equivalent less a c = true := by
  rw [equivalent_iff] at *
  exact ⟨not_less_transitive second.1 first.1, not_less_transitive first.2 second.2⟩

theorem less_of_equivalent_of_less {a b c : α} (same : equivalent less a b = true) (before : less b c = true) :
    less a c = true := by
  by_contra notBefore
  rw [Bool.not_eq_true] at notBefore
  have never : less b c = false := not_less_transitive notBefore (equivalent_iff.mp same).2
  cases never.symm.trans before

theorem less_of_less_of_equivalent {a b c : α} (before : less a b = true) (same : equivalent less b c = true) :
    less a c = true := by
  by_contra notBefore
  rw [Bool.not_eq_true] at notBefore
  have never : less a b = false := not_less_transitive (equivalent_iff.mp same).2 notBefore
  cases never.symm.trans before

theorem StrictlyInOrder.inOrder (strict : StrictlyInOrder less list) : InOrder less list :=
  strict.imp fun before => less_asymmetric before

theorem InOrder.insertBehind (inOrder : InOrder less list) : InOrder less (insertBehind less element list) := by
  induction list with
  | nil => exact List.pairwise_singleton _ _
  | cons first rest ih =>
      obtain ⟨above, sorted⟩ := List.pairwise_cons.mp inOrder
      rw [Containers.insertBehind]
      split
      · next before =>
          refine List.pairwise_cons.mpr ⟨?_, inOrder⟩
          intro other member
          rcases List.mem_cons.mp member with rfl | later
          · exact less_asymmetric before
          · exact not_less_transitive (less_asymmetric before) (above other later)
      · next notBefore =>
          refine List.pairwise_cons.mpr ⟨?_, ih sorted⟩
          intro other member
          rcases List.mem_cons.mp ((insertBehind_perm element rest).mem_iff.mp member) with rfl | later
          · simpa using notBefore
          · exact above other later

theorem InOrder.not_less_of_mem_dropWhile (inOrder : InOrder less list) {other : α}
    (member : other ∈ list.dropWhile (less · element)) : less other element = false := by
  induction list with
  | nil => cases member
  | cons first rest ih =>
      obtain ⟨above, sorted⟩ := List.pairwise_cons.mp inOrder
      cases before : less first element with
      | true =>
          rw [List.dropWhile_cons_of_pos (by simpa using before)] at member
          exact ih sorted member
      | false =>
          rw [List.dropWhile_cons_of_neg (by simp [before])] at member
          rcases List.mem_cons.mp member with rfl | later
          · exact before
          · exact not_less_transitive before (above other later)

theorem InOrder.equivalent_of_mem_equalRange (inOrder : InOrder less list) {other : α}
    (member : other ∈ equalRange less element list) : equivalent less other element = true := by
  have notBefore := inOrder.not_less_of_mem_dropWhile ((List.takeWhile_sublist _).subset member)
  have kept : other ∈ (list.dropWhile (less · element)).takeWhile fun other => !less element other := member
  have notAfter := List.mem_takeWhile_imp kept
  exact equivalent_iff.mpr ⟨notBefore, by simpa using notAfter⟩

theorem InOrder.less_of_mem_upperPart (inOrder : InOrder less list) {other : α}
    (member : other ∈ upperPart less element list) : less element other = true := by
  have later : InOrder less (list.dropWhile (less · element)) := inOrder.sublist (List.dropWhile_sublist _)
  rw [upperPart] at member
  generalize list.dropWhile (less · element) = tail at later member
  induction tail with
  | nil => cases member
  | cons first rest ih =>
      obtain ⟨above, sorted⟩ := List.pairwise_cons.mp later
      cases after : less element first with
      | false =>
          rw [List.dropWhile_cons_of_pos (by simpa using after)] at member
          exact ih sorted member
      | true =>
          rw [List.dropWhile_cons_of_neg (by simp [after])] at member
          rcases List.mem_cons.mp member with rfl | within
          · exact after
          · by_contra notAfter
            rw [Bool.not_eq_true] at notAfter
            cases (not_less_transitive (above other within) notAfter).symm.trans after

/-- What is changed must stay where it is. -/
theorem StrictlyInOrder.insertOr (strict : StrictlyInOrder less list)
    (stays : ∀ other, equivalent less (change other) other = true) :
    StrictlyInOrder less (insertOr less change element list) := by
  induction list with
  | nil => exact List.pairwise_singleton _ _
  | cons first rest ih =>
      obtain ⟨above, sorted⟩ := List.pairwise_cons.mp strict
      rw [Containers.insertOr]
      split
      · next before =>
          refine List.pairwise_cons.mpr ⟨?_, strict⟩
          intro other member
          rcases List.mem_cons.mp member with rfl | later
          · exact before
          · exact less_transitive before (above other later)
      · split
        · next after =>
            refine List.pairwise_cons.mpr ⟨?_, ih sorted⟩
            intro other member
            rcases mem_insertOr member with rfl | later | ⟨before, later, -, rfl⟩
            · exact after
            · exact above other later
            · have same := stays before
              rw [equivalent_comm] at same
              exact less_of_less_of_equivalent (above before later) same
        · refine List.pairwise_cons.mpr ⟨?_, sorted⟩
          intro other later
          exact less_of_equivalent_of_less (stays first) (above other later)

theorem filter_insertBehind (inOrder : InOrder less list) (representative : α) :
    (insertBehind less element list).filter (equivalent less · representative) =
      list.filter (equivalent less · representative) ++
        if equivalent less element representative then [element] else [] := by
  induction list with
  | nil => simp [Containers.insertBehind, List.filter_cons]
  | cons first rest ih =>
      obtain ⟨above, sorted⟩ := List.pairwise_cons.mp inOrder
      rw [Containers.insertBehind]
      split
      · next before =>
          by_cases same : equivalent less element representative = true
          · -- Nothing that comes after the element belongs to its class.
            have beyond : ∀ other ∈ first :: rest, ¬equivalent less other representative = true := by
              intro other member equal
              have later : less element other = true := by
                rcases List.mem_cons.mp member with rfl | within
                · exact before
                · by_contra notBefore
                  rw [Bool.not_eq_true] at notBefore
                  cases (not_less_transitive (above other within) notBefore).symm.trans before
              rw [equivalent_comm] at equal
              have both := equivalent_trans same equal
              cases (equivalent_iff.mp both).1.symm.trans later
            rw [List.filter_cons, if_pos same, List.filter_eq_nil_iff.mpr beyond, if_pos same]
            rfl
          · rw [List.filter_cons, if_neg same, if_neg same, List.append_nil]
      · by_cases same : equivalent less first representative = true
        · rw [List.filter_cons, if_pos same, ih sorted, List.filter_cons, if_pos same]
          rfl
        · rw [List.filter_cons, if_neg same, ih sorted, List.filter_cons, if_neg same]

end StrictWeak

end SoulLib.Containers
