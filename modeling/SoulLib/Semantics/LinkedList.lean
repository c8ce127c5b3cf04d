import Mathlib.Data.List.Nodup
import Mathlib.Logic.Function.Basic

/-! Lists that are threaded through memory.

Every node holds the address of the next. What a list that ends contains is
determined by where it starts, so it meets no node twice.
-/

set_option autoImplicit false

namespace SoulLib.Semantics

/-- The pointers from `head` on lead through `nodes` and end there. -/
inductive Linked {Address : Type} (next : Address → Option Address) : Option Address → List Address → Prop where
  | nil : Linked next none []
  | cons {node : Address} {nodes : List Address} : Linked next (next node) nodes →
      Linked next (some node) (node :: nodes)

namespace Linked

variable {Address : Type} {next next' : Address → Option Address} {head : Option Address} {node : Address}
  {nodes others : List Address}

theorem unique (linked : Linked next head nodes) (again : Linked next head others) : nodes = others := by
  induction linked generalizing others with
  | nil =>
      cases again
      rfl
  | cons rest ih =>
      cases again with
      | cons rest' => rw [ih rest']

theorem drop {earlier later : List Address} (linked : Linked next head (earlier ++ node :: later)) :
    Linked next (some node) (node :: later) := by
  induction earlier generalizing head with
  | nil =>
      cases linked with
      | cons rest => exact .cons rest
  | cons first earlier ih =>
      cases linked with
      | cons rest => exact ih rest

theorem nodup (linked : Linked next head nodes) : nodes.Nodup := by
  induction linked with
  | nil => exact List.nodup_nil
  | cons rest ih =>
      refine List.nodup_cons.mpr ⟨?_, ih⟩
      intro member
      obtain ⟨earlier, later, rfl⟩ := List.append_of_mem member
      -- a node that is met again would be followed by lists of two lengths
      have twice := congrArg List.length ((Linked.cons rest).unique rest.drop)
      simp only [List.length_append, List.length_cons] at twice
      omega

theorem eq_nil_iff (linked : Linked next head nodes) : nodes = [] ↔ head = none := by
  cases linked <;> simp

/-- What lies outside of the list does not matter. -/
theorem frame (linked : Linked next head nodes) (same : ∀ node ∈ nodes, next' node = next node) :
    Linked next' head nodes := by
  induction linked with
  | nil => exact .nil
  | cons rest ih =>
      have here := ih fun other member => same other (List.mem_cons_of_mem _ member)
      rw [← same _ List.mem_cons_self] at here
      exact .cons here

section Update

variable [DecidableEq Address]

theorem update (linked : Linked next head nodes) (outside : node ∉ nodes) (value : Option Address) :
    Linked (Function.update next node value) head nodes := by
  apply linked.frame
  intro other member
  exact Function.update_of_ne (ne_of_mem_of_not_mem member outside) _ _

theorem push (linked : Linked next head nodes) (outside : node ∉ nodes) :
    Linked (Function.update next node head) (some node) (node :: nodes) := by
  apply Linked.cons
  rw [Function.update_self]
  exact linked.update outside head

end Update

end Linked

end SoulLib.Semantics
