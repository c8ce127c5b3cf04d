import Mathlib.Data.List.Perm.Basic
import Mathlib.Order.RelClasses

/-! Comparators that are strict weak orders, and sorting by them.

A comparator tells whether its first argument comes before its second. A stable
sort leaves elements alone that it does not tell apart.
-/

set_option autoImplicit false

namespace SoulLib.Containers

variable {α : Type} {less : α → α → Bool}

/-- A stable sort by a comparator. -/
def stableSort (less : α → α → Bool) (list : List α) : List α := list.mergeSort fun a b => !less b a

theorem stableSort_perm (list : List α) : (stableSort less list).Perm list := List.mergeSort_perm _ _

section StrictWeak

variable [order : IsStrictWeakOrder α fun a b => less a b = true] {a b c : α}

theorem less_irreflexive (a : α) : less a a = false := by
  have never := order.irrefl a
  simpa using never

theorem less_transitive (first : less a b = true) (second : less b c = true) : less a c = true :=
  order.trans a b c first second

theorem less_asymmetric (below : less a b = true) : less b a = false := by
  by_contra above
  rw [Bool.not_eq_false] at above
  exact absurd (less_transitive below above) (order.irrefl a)

theorem not_less_transitive (first : less b a = false) (second : less c b = false) : less c a = false := by
  by_contra above
  rw [Bool.not_eq_false] at above
  -- `c` is before `a` although neither is told apart from `b` on that side.
  cases beyond : less b c with
  | true =>
      have cycle := less_transitive beyond above
      rw [first] at cycle
      cases cycle
  | false =>
      cases before : less a b with
      | true =>
          have cycle := less_transitive above before
          rw [second] at cycle
          cases cycle
      | false =>
          have equal := order.incomp_trans a b c (by simp [before, first]) (by simp [beyond, second])
          exact equal.2 above

theorem pairwise_stableSort (list : List α) : (stableSort less list).Pairwise fun a b => less b a = false := by
  have transitive : ∀ a b c, (!less b a) = true → (!less c b) = true → (!less c a) = true := by
    intro a b c first second
    rw [Bool.not_eq_true'] at *
    exact not_less_transitive first second
  have total : ∀ a b, ((!less b a) || (!less a b)) = true := by
    intro a b
    cases below : less b a with
    | false => rfl
    | true => rw [less_asymmetric below]; rfl
  exact (List.pairwise_mergeSort transitive total list).imp fun after => by simpa using after

theorem stableSort_eq_self_iff {list : List α} :
    stableSort less list = list ↔ list.Pairwise fun a b => less b a = false := by
  constructor
  · intro same
    have sorted : (stableSort less list).Pairwise fun a b => less b a = false := pairwise_stableSort list
    rwa [same] at sorted
  · intro sorted
    exact List.mergeSort_of_pairwise (sorted.imp fun after => by simpa using after)

end StrictWeak

theorem eq_stableSort_of_pairwise (total : IsStrictTotalOrder α fun a b => less a b = true) {list sorted : List α}
    (perm : sorted.Perm list) (pairwise : sorted.Pairwise fun a b => less b a = false) :
    sorted = stableSort less list := by
  have order : IsStrictWeakOrder α fun a b => less a b = true := isStrictWeakOrder_of_isOrderConnected
  refine List.Perm.eq_of_pairwise ?_ pairwise (pairwise_stableSort list) (perm.trans (stableSort_perm list).symm)
  intro a b _ _ notAfter notBefore
  exact total.trichotomous a b (by simpa using notBefore) (by simpa using notAfter)

end SoulLib.Containers
