import Mathlib.Data.Multiset.AddSub
import Mathlib.Data.Multiset.Count
import SoulLib.Semantics.Runs

/-! Threads that share a state and interleave atomic operations.

Each thread is a stack of operations it still has to perform. A step performs
the operation on top of one stack atomically and replaces it with the operations
it calls. Proofs about all interleavings forget which thread owns an operation
and keep only the multiset of pending operations.
-/

set_option autoImplicit false

namespace SoulLib.Semantics

/-- A shared state and, for each thread, the operations it has yet to perform. -/
structure Pool (Shared Op : Type) where
  shared : Shared
  threads : List (List Op)

namespace Pool

variable {Shared Op Choice : Type}

/-- The operation that thread `i` performs next. -/
def next (pool : Pool Shared Op) (i : Nat) : Option Op :=
  pool.threads[i]?.bind List.head?

/-- Every pending operation, whichever thread performs it. -/
def ops (pool : Pool Shared Op) : Multiset Op :=
  (pool.threads.flatten : Multiset Op)

/-- A label names the thread that moves and the choice its operation makes. -/
def machine (execute : Shared → Op → Choice → Option (Shared × List Op)) :
    System (Pool Shared Op) (Nat × Choice) where
  step pool label :=
    match pool.threads[label.1]? with
    | some (op :: rest) =>
        (execute pool.shared op label.2).map fun result =>
          ⟨result.1, pool.threads.set label.1 (result.2 ++ rest)⟩
    | _ => none

/-- Admit a step by the shared state, the pending operations, and the operation
and choice of the moving thread. -/
def admits (guard : Shared → Multiset Op → Op → Choice → Prop) (pool : Pool Shared Op)
    (label : Nat × Choice) : Prop :=
  ∀ op, pool.next label.1 = some op → guard pool.shared pool.ops op label.2

instance {guard : Shared → Multiset Op → Op → Choice → Prop}
    [∀ shared pending op choice, Decidable (guard shared pending op choice)]
    (pool : Pool Shared Op) (label : Nat × Choice) : Decidable (pool.admits guard label) :=
  match found : pool.next label.1 with
  | none => isTrue fun _ moving => by simp [found] at moving
  | some op => decidable_of_iff (guard pool.shared pool.ops op label.2) (by simp [admits, found])

private theorem flatten_set {threads : List (List Op)} {i : Nat} {op : Op} {rest : List Op}
    (found : threads[i]? = some (op :: rest)) (pushed : List Op) :
    ∃ others : List Op, threads.flatten.Perm (op :: others) ∧
      (threads.set i (pushed ++ rest)).flatten.Perm (pushed ++ others) := by
  induction threads generalizing i with
  | nil => simp at found
  | cons stack threads ih =>
      cases i with
      | zero =>
          simp only [List.getElem?_cons_zero, Option.some.injEq] at found
          subst found
          exact ⟨rest ++ threads.flatten, by simp, by simp⟩
      | succ i =>
          obtain ⟨others, before, after⟩ := ih (by simpa using found)
          refine ⟨stack ++ others, ?_, ?_⟩
          · rw [List.flatten_cons]
            exact (before.append_left stack).trans List.perm_middle
          · rw [List.set_cons_succ, List.flatten_cons]
            refine (after.append_left stack).trans ?_
            rw [← List.append_assoc, ← List.append_assoc]
            exact List.perm_append_comm.append_right others

variable {execute : Shared → Op → Choice → Option (Shared × List Op)}

theorem step_cases {pool after : Pool Shared Op} {label : Nat × Choice}
    (taken : (machine execute).step pool label = some after) :
    ∃ op pushed rest, pool.next label.1 = some op ∧
      execute pool.shared op label.2 = some (after.shared, pushed) ∧
      pool.ops = op ::ₘ rest ∧ after.ops = (pushed : Multiset Op) + rest := by
  simp only [machine] at taken
  split at taken
  · next op rest found =>
      obtain ⟨⟨shared, pushed⟩, executed, same⟩ := Option.map_eq_some_iff.mp taken
      subst same
      obtain ⟨others, before, set⟩ := flatten_set found pushed
      refine ⟨op, pushed, (others : Multiset Op), by simp [next, found], executed, ?_, ?_⟩
      · exact Multiset.coe_eq_coe.mpr before
      · rw [Multiset.coe_add]
        exact Multiset.coe_eq_coe.mpr set
  · cases taken

variable {guard : Shared → Multiset Op → Op → Choice → Prop} {start pool : Pool Shared Op}

/-- One operation at a time: `known` may be used on both sides of the step. -/
theorem invariant_of (known holds : Shared → Multiset Op → Prop)
    (established : ∀ {p : Pool Shared Op}, (machine execute).Reaches (admits guard) start p →
      known p.shared p.ops)
    (initial : holds start.shared start.ops)
    (kept : ∀ {shared shared' : Shared} {op : Op} {pushed : List Op} {rest : Multiset Op}
      {choice : Choice}, known shared (op ::ₘ rest) → known shared' (pushed + rest) →
      holds shared (op ::ₘ rest) → guard shared (op ::ₘ rest) op choice →
      execute shared op choice = some (shared', pushed) → holds shared' (pushed + rest))
    (reach : (machine execute).Reaches (admits guard) start pool) : holds pool.shared pool.ops := by
  induction reach with
  | start => exact initial
  | @next before after label earlier allowed taken ih =>
      obtain ⟨op, pushed, rest, moving, executed, opsBefore, opsAfter⟩ := step_cases taken
      have knownBefore := established earlier
      have knownAfter := established (.next earlier allowed taken)
      have allows := allowed op moving
      rw [opsAfter] at knownAfter ⊢
      rw [opsBefore] at ih knownBefore allows
      exact kept knownBefore knownAfter ih allows executed

theorem invariant (holds : Shared → Multiset Op → Prop)
    (initial : holds start.shared start.ops)
    (kept : ∀ {shared shared' : Shared} {op : Op} {pushed : List Op} {rest : Multiset Op}
      {choice : Choice}, holds shared (op ::ₘ rest) → guard shared (op ::ₘ rest) op choice →
      execute shared op choice = some (shared', pushed) → holds shared' (pushed + rest))
    (reach : (machine execute).Reaches (admits guard) start pool) : holds pool.shared pool.ops :=
  invariant_of (fun _ _ => True) holds (fun _ => trivial) initial (fun _ _ => kept) reach

/-- One stack at a time: a step changes the stack of the moving thread, and every other
stack has to stand the change of the shared state. -/
theorem invariant_stacks (known : Shared → Prop) (holds : Shared → List Op → Prop)
    (begins : known start.shared) (initial : ∀ stack ∈ start.threads, holds start.shared stack)
    (kept : ∀ {shared shared' : Shared} {op : Op} {pushed rest : List Op} {choice : Choice},
      known shared → holds shared (op :: rest) → execute shared op choice = some (shared', pushed) →
      known shared' ∧ holds shared' (pushed ++ rest) ∧ ∀ stack, holds shared stack → holds shared' stack)
    (reach : (machine execute).Reaches (admits guard) start pool) :
    known pool.shared ∧ ∀ stack ∈ pool.threads, holds pool.shared stack := by
  induction reach with
  | start => exact ⟨begins, initial⟩
  | @next before after label earlier allowed taken ih =>
      simp only [machine] at taken
      split at taken
      · next op rest found =>
          obtain ⟨⟨shared, pushed⟩, executed, same⟩ := Option.map_eq_some_iff.mp taken
          subst same
          obtain ⟨knownAfter, moved, others⟩ := kept ih.1 (ih.2 _ (List.mem_of_getElem? found)) executed
          refine ⟨knownAfter, ?_⟩
          intro stack member
          rcases List.mem_or_eq_of_mem_set member with old | rfl
          · exact others stack (ih.2 stack old)
          · exact moved
      · cases taken

/-- One thread apart from all the others: whichever thread moves, its own stack changes, and both kinds of
stacks have to stand the change of the shared state. -/
theorem invariant_apart (apart : Nat) (known : Shared → Prop) (own others : Shared → List Op → Prop)
    (begins : known start.shared)
    (ownInitial : ∃ stack, start.threads[apart]? = some stack ∧ own start.shared stack)
    (othersInitial : ∀ i ≠ apart, ∀ stack, start.threads[i]? = some stack → others start.shared stack)
    (ownKept : ∀ {shared shared' : Shared} {op : Op} {pushed rest : List Op} {choice : Choice} {pending : Multiset Op},
      known shared → own shared (op :: rest) → guard shared pending op choice →
      execute shared op choice = some (shared', pushed) →
      known shared' ∧ own shared' (pushed ++ rest) ∧ ∀ stack, others shared stack → others shared' stack)
    (othersKept : ∀ {shared shared' : Shared} {op : Op} {pushed rest : List Op} {choice : Choice},
      known shared → others shared (op :: rest) → execute shared op choice = some (shared', pushed) →
      known shared' ∧ others shared' (pushed ++ rest) ∧ (∀ stack, own shared stack → own shared' stack) ∧
        ∀ stack, others shared stack → others shared' stack)
    (reach : (machine execute).Reaches (admits guard) start pool) :
    known pool.shared ∧ (∃ stack, pool.threads[apart]? = some stack ∧ own pool.shared stack) ∧
      ∀ i ≠ apart, ∀ stack, pool.threads[i]? = some stack → others pool.shared stack := by
  induction reach with
  | start => exact ⟨begins, ownInitial, othersInitial⟩
  | @next before after label earlier allowed taken ih =>
      obtain ⟨here, ⟨mine, at_, owned⟩, theirs⟩ := ih
      simp only [machine] at taken
      split at taken
      · next op rest found =>
          obtain ⟨⟨shared, pushed⟩, executed, same⟩ := Option.map_eq_some_iff.mp taken
          subst same
          have bound := (List.getElem?_eq_some_iff.mp found).1
          -- the step is one of the thread apart, or of another
          by_cases moving : label.1 = apart
          · have guarded := allowed op (by simp [next, found])
            obtain rfl := Option.some.inj ((moving ▸ found).symm.trans at_)
            obtain ⟨knownAfter, moved, stand⟩ := ownKept here owned guarded executed
            refine ⟨knownAfter, ⟨_, by rw [← moving, List.getElem?_set_self bound], moved⟩, ?_⟩
            intro i differs stack other
            rw [List.getElem?_set_ne (by omega)] at other
            exact stand stack (theirs i differs stack other)
          · obtain ⟨knownAfter, moved, ownStands, stand⟩ := othersKept here (theirs _ moving _ found) executed
            refine ⟨knownAfter, ⟨mine, by rw [List.getElem?_set_ne moving, at_], ownStands mine owned⟩, ?_⟩
            intro i differs stack other
            -- a third thread keeps its stack, but has to stand the new shared state
            by_cases same : label.1 = i
            · rw [← same, List.getElem?_set_self bound] at other
              cases other
              exact moved
            · rw [List.getElem?_set_ne same] at other
              exact stand stack (theirs i differs stack other)
      · cases taken

theorem reaches_perform {i : Nat} {op : Op} {rest pushed : List Op} {choice : Choice} {shared' : Shared}
    (reach : (machine execute).Reaches (admits guard) start pool) (found : pool.threads[i]? = some (op :: rest))
    (executed : execute pool.shared op choice = some (shared', pushed))
    (allowed : guard pool.shared pool.ops op choice) :
    (machine execute).Reaches (admits guard) start ⟨shared', pool.threads.set i (pushed ++ rest)⟩ := by
  refine System.Reaches.next reach (?_ : admits guard pool (i, choice)) ?_
  · intro moving next
    obtain rfl : op = moving := by simpa [Pool.next, found] using next
    exact allowed
  · simp [machine, found, executed]

end Pool

end SoulLib.Semantics
