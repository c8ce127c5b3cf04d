import Mathlib.Data.List.Nodup

/-! Concurrent calls that look as if each happened at once.

A history records when calls begin and return. It is linearizable if the calls can
be put in one order in which the object, called by one thread, would have answered
the same, and in which a call that began after another had returned comes after it.
-/

set_option autoImplicit false

namespace SoulLib.Semantics

/-- What an operation does when nothing else happens meanwhile. -/
structure SequentialObject (State Op Result : Type) where
  apply : State → Op → State × Result

inductive Moment (Op Result : Type) where
  | invoke (call : Nat) (op : Op)
  | return_ (call : Nat) (result : Result)
  deriving DecidableEq, Repr

variable {State Op Result : Type}

/-- A call, its operation and what it answers. -/
structure Completion (Op Result : Type) where
  call : Nat
  op : Op
  result : Result
  deriving DecidableEq, Repr

namespace SequentialObject

variable (object : SequentialObject State Op Result)

/-- One thread makes the calls in this order and gets these answers. -/
inductive Answers : State → List (Completion Op Result) → State → Prop where
  | nil {state : State} : Answers state [] state
  | cons {state after : State} {completion : Completion Op Result} {rest : List (Completion Op Result)} :
      (object.apply state completion.op).2 = completion.result →
      Answers (object.apply state completion.op).1 rest after → Answers state (completion :: rest) after

structure Linearizes (start : State) (history : List (Moment Op Result)) (order : List (Completion Op Result))
    (after : State) : Prop where
  answers : object.Answers start order after
  once : (order.map Completion.call).Nodup
  invoked : ∀ completion ∈ order, .invoke completion.call completion.op ∈ history
  returned : ∀ call result, .return_ call result ∈ history → ∃ op, ⟨call, op, result⟩ ∈ order
  realTime : ∀ before result after op, [.return_ before result, .invoke after op].Sublist history →
    after ∈ order.map Completion.call → [before, after].Sublist (order.map Completion.call)

/-- A history with the order in which the calls so far have taken effect, each between its beginning and its return. -/
inductive Pointed (start : State) : List (Moment Op Result) → List (Completion Op Result) → State → Prop where
  | begin : Pointed start [] [] start
  | invoke {history : List (Moment Op Result)} {order : List (Completion Op Result)} {state : State} {call : Nat}
      (op : Op) : Pointed start history order state → (∀ other, .invoke call other ∉ history) →
      Pointed start (history ++ [.invoke call op]) order state
  | effect {history : List (Moment Op Result)} {order : List (Completion Op Result)} {state : State} {call : Nat}
      {op : Op} : Pointed start history order state → .invoke call op ∈ history →
      call ∉ order.map Completion.call →
      Pointed start history (order ++ [⟨call, op, (object.apply state op).2⟩]) (object.apply state op).1
  | return_ {history : List (Moment Op Result)} {order : List (Completion Op Result)} {state : State} {call : Nat}
      {op : Op} {result : Result} : Pointed start history order state → ⟨call, op, result⟩ ∈ order →
      Pointed start (history ++ [.return_ call result]) order state

variable {object} {start state after : State} {history : List (Moment Op Result)}
  {order rest : List (Completion Op Result)}

theorem Answers.concat (answers : object.Answers start order state) (call : Nat) (op : Op) :
    object.Answers start (order ++ [⟨call, op, (object.apply state op).2⟩]) (object.apply state op).1 := by
  induction answers with
  | nil => exact .cons rfl .nil
  | cons answered _ ih => exact .cons answered ih

/-- The last of two moments in a longer history is new, or both are old. -/
theorem pair_sublist_concat {α : Type} {first second last : α} {list : List α}
    (pair : [first, second].Sublist (list ++ [last])) :
    [first, second].Sublist list ∨ first ∈ list ∧ second = last := by
  obtain ⟨front, back, same, inFront, inBack⟩ := List.sublist_append_iff.mp pair
  cases back with
  | nil =>
      rw [List.append_nil] at same
      exact .inl (same ▸ inFront)
  | cons next more =>
      have length := inBack.length_le
      have none : more = [] := by
        apply List.eq_nil_of_length_eq_zero
        simp only [List.length_cons, List.length_nil] at length
        omega
      subst none
      have equal : next = last := by simpa using inBack
      have split : [first] ++ [second] = front ++ [next] := same
      obtain ⟨before, here⟩ := List.append_inj' split rfl
      subst before
      refine .inr ⟨inFront.subset List.mem_cons_self, ?_⟩
      simpa [equal] using here

/-- Calls that take effect at one moment each are linearizable. -/
theorem Pointed.linearizes (pointed : object.Pointed start history order state) :
    object.Linearizes start history order state := by
  induction pointed with
  | begin =>
      refine ⟨.nil, List.nodup_nil, ?_, ?_, ?_⟩
      · exact fun _ member => by cases member
      · exact fun _ _ member => by cases member
      · exact fun _ _ _ _ _ member => by cases member
  | @invoke history order state call op pointed fresh linearizes =>
      refine ⟨linearizes.answers, linearizes.once, ?_, ?_, ?_⟩
      · exact fun completion member => List.mem_append_left _ (linearizes.invoked completion member)
      · intro other result member
        rcases List.mem_append.mp member with old | new
        · exact linearizes.returned other result old
        · cases List.mem_singleton.mp new
      · intro before result after operation pair member
        rcases pair_sublist_concat pair with old | ⟨-, new⟩
        · exact linearizes.realTime before result after operation old member
        · -- A call that has just begun has had no effect.
          cases new
          obtain ⟨completion, among, same⟩ := List.mem_map.mp member
          exact absurd (same ▸ linearizes.invoked completion among) (fresh completion.op)
  | @effect history order state call op pointed begun unanswered linearizes =>
      have calls : (order ++ ([⟨call, op, (object.apply state op).2⟩] : List (Completion Op Result))).map
          Completion.call = order.map Completion.call ++ [call] := by
        rw [List.map_append, List.map_singleton]
      refine ⟨linearizes.answers.concat call op, ?_, ?_, ?_, ?_⟩
      · rw [calls]
        exact List.nodup_append_comm.mp (List.nodup_cons.mpr ⟨unanswered, linearizes.once⟩)
      · intro completion member
        rcases List.mem_append.mp member with old | new
        · exact linearizes.invoked completion old
        · rw [List.mem_singleton.mp new]
          exact begun
      · intro other result member
        obtain ⟨operation, among⟩ := linearizes.returned other result member
        exact ⟨operation, List.mem_append_left _ among⟩
      · intro before result after operation pair member
        rw [calls] at member ⊢
        rcases List.mem_append.mp member with old | new
        · exact (linearizes.realTime before result after operation pair old).trans (List.sublist_append_left _ _)
        · -- What returned before has had its effect already, and comes first.
          rw [List.mem_singleton.mp new]
          obtain ⟨earlier, among⟩ := linearizes.returned before result (pair.subset List.mem_cons_self)
          have there : before ∈ order.map Completion.call := List.mem_map.mpr ⟨_, among, rfl⟩
          exact (List.singleton_sublist.mpr there).append (List.Sublist.refl [call])
  | @return_ history order state call op result pointed answered linearizes =>
      refine ⟨linearizes.answers, linearizes.once, ?_, ?_, ?_⟩
      · exact fun completion member => List.mem_append_left _ (linearizes.invoked completion member)
      · intro other value member
        rcases List.mem_append.mp member with old | new
        · exact linearizes.returned other value old
        · cases List.mem_singleton.mp new
          exact ⟨op, answered⟩
      · intro before value after operation pair member
        rcases pair_sublist_concat pair with old | ⟨-, new⟩
        · exact linearizes.realTime before value after operation old member
        · cases new

end SequentialObject

end SoulLib.Semantics
