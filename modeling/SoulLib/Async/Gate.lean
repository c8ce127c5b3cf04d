import Mathlib.Algebra.Group.Nat.Defs
import Mathlib.Data.Multiset.AddSub
import Mathlib.Data.Multiset.Count

/-! A counting gate whose registrations are published before they are counted.

A gate waits for sources. It goes through a list of sources once: it leaves a
registration with each source that is not completed yet, and counts the
registration in a second step. A completed source releases the registrations it
holds; the release that finds the counter at one opens the gate. A gate without
registrations opens itself at the end of its list. Releases may come in between
any two of these steps.
-/

set_option autoImplicit false

namespace SoulLib.Async

/-- How far a gate has come with its list. -/
inductive Phase (Source : Type) (w : Nat) where
  | idle
  | registering (rest : List (Option Source)) (pending : BitVec w)
  | counting (rest : List (Option Source)) (pending : BitVec w)
  | settled

section Phases

variable {Source : Type} {w : Nat}

/-- Every source of the list is completed. -/
def Complete (completed : Source → Bool) (sources : List (Option Source)) : Prop :=
  ∀ source, some source ∈ sources → completed source = true

instance (completed : Source → Bool) (sources : List (Option Source)) :
    Decidable (Complete completed sources) :=
  decidable_of_iff (∀ token ∈ sources, token.all completed = true) (by
    constructor
    · intro all source member
      exact all (some source) member
    · intro complete token member
      cases token with
      | none => rfl
      | some source => exact complete source member)

/-- In this phase a release cannot be mistaken for the last one. -/
def Phase.Timely (completed : Source → Bool) (counter : BitVec w) : Phase Source w → Prop
  | .registering rest _ => 2 ≤ counter.toNat ∨ Complete completed rest
  | .counting _ _ => 2 ≤ counter.toNat
  | .idle | .settled => True

instance (completed : Source → Bool) (counter : BitVec w) :
    (phase : Phase Source w) → Decidable (phase.Timely completed counter)
  | .registering rest _ => inferInstanceAs (Decidable (2 ≤ counter.toNat ∨ Complete completed rest))
  | .counting _ _ => inferInstanceAs (Decidable (2 ≤ counter.toNat))
  | .idle | .settled => inferInstanceAs (Decidable True)

end Phases

structure Gate (Source : Type) (w : Nat) where
  completed : Source → Bool
  held : Multiset Source
  counter : BitVec w
  phase : Phase Source w
  dependencies : List (Option Source)
  opened : Nat

namespace Gate

variable {Source : Type} {w : Nat}

def Timely (gate : Gate Source w) : Prop := gate.phase.Timely gate.completed gate.counter

inductive Step [DecidableEq Source] (gate : Gate Source w) : Gate Source w → Prop where
  | complete (completed : Source → Bool)
      (grows : ∀ source, gate.completed source = true → completed source = true) :
      Step gate { gate with completed }
  | enter (dependencies : List (Option Source)) (idle : gate.phase = .idle)
      (bound : dependencies.length < 2 ^ w) :
      Step gate { gate with phase := .registering dependencies 0, dependencies }
  | skip (token : Option Source) (rest : List (Option Source)) (pending : BitVec w)
      (here : gate.phase = .registering (token :: rest) pending)
      (settled : ∀ source, token = some source → gate.completed source = true) :
      Step gate { gate with phase := .registering rest pending }
  | register (source : Source) (rest : List (Option Source)) (pending : BitVec w)
      (here : gate.phase = .registering (some source :: rest) pending)
      (incomplete : gate.completed source = false) :
      Step gate { gate with phase := .counting rest pending, held := source ::ₘ gate.held }
  | count (rest : List (Option Source)) (pending : BitVec w) (here : gate.phase = .counting rest pending) :
      Step gate { gate with phase := .registering rest (pending + 1), counter := gate.counter + 1 }
  | finish (pending : BitVec w) (here : gate.phase = .registering [] pending) :
      Step gate { gate with phase := .settled, opened := gate.opened + if pending = 0 then 1 else 0 }
  | release (source : Source) (holds : source ∈ gate.held) (completed : gate.completed source = true)
      (timely : gate.Timely) :
      Step gate { gate with
        held := gate.held.erase source
        counter := gate.counter - 1
        opened := gate.opened + if gate.counter = 1 then 1 else 0 }

/-- Every source of the list is completed or still holds a registration. -/
def Covers (gate : Gate Source w) (sources : List (Option Source)) : Prop :=
  ∀ source, some source ∈ sources → gate.completed source = true ∨ source ∈ gate.held

/-- What holds in each phase. -/
def Consistent (gate : Gate Source w) : Prop :=
  match gate.phase with
  | .idle => gate.held = 0 ∧ gate.counter = 0 ∧ gate.opened = 0
  | .registering rest pending =>
      gate.counter.toNat = gate.held.card ∧ gate.held.card ≤ pending.toNat ∧
        (∃ done, gate.dependencies = done ++ rest ∧ pending.toNat ≤ done.length ∧ gate.Covers done) ∧
        (gate.opened = 0 → gate.held = 0 → pending = 0) ∧
        (gate.opened = 1 → pending ≠ 0 ∧ Complete gate.completed rest)
  | .counting rest pending =>
      gate.counter.toNat + 1 = gate.held.card ∧ gate.held.card ≤ pending.toNat + 1 ∧
        (∃ done, gate.dependencies = done ++ rest ∧ pending.toNat + 1 ≤ done.length ∧ gate.Covers done) ∧
        gate.opened = 0
  | .settled =>
      gate.counter.toNat = gate.held.card ∧ gate.Covers gate.dependencies ∧
        (gate.opened = 0 → gate.held ≠ 0)

structure Sound (gate : Gate Source w) : Prop where
  once : gate.opened ≤ 1
  shut : gate.opened = 1 → gate.held = 0
  bound : gate.dependencies.length < 2 ^ w
  consistent : gate.Consistent

variable {gate gate' : Gate Source w}

theorem Covers.of_grows {sources : List (Option Source)} (covers : gate.Covers sources)
    (completed : ∀ source, gate.completed source = true → gate'.completed source = true)
    (held : ∀ source, source ∈ gate.held → gate'.completed source = true ∨ source ∈ gate'.held) :
    gate'.Covers sources := by
  intro source member
  rcases covers source member with done | waiting
  · exact .inl (completed source done)
  · exact held source waiting

theorem Covers.concat {sources : List (Option Source)} {token : Option Source} (covers : gate.Covers sources)
    (last : ∀ source, token = some source → gate.completed source = true ∨ source ∈ gate.held) :
    gate.Covers (sources ++ [token]) := by
  intro source member
  rcases List.mem_append.mp member with old | new
  · exact covers source old
  · exact last source (List.mem_singleton.mp new).symm

theorem Sound.complete (sound : gate.Sound) (opened : gate.opened = 1) :
    Complete gate.completed gate.dependencies := by
  have empty := sound.shut opened
  have consistent := sound.consistent
  unfold Consistent at consistent
  have covered : ∀ sources, gate.Covers sources → Complete gate.completed sources := by
    intro sources covers source member
    have cover := covers source member
    simpa [empty] using cover
  split at consistent
  · omega
  · obtain ⟨-, -, ⟨done, same, -, covers⟩, -, rest⟩ := consistent
    intro source member
    rw [same, List.mem_append] at member
    rcases member with early | late
    · exact covered done covers source early
    · exact (rest opened).2 source late
  · omega
  · exact covered _ consistent.2.1

theorem Sound.counter_pos (sound : gate.Sound) (timely : gate.Timely) {source : Source}
    (holds : source ∈ gate.held) : 0 < gate.counter.toNat := by
  have positive : 0 < gate.held.card := Multiset.card_pos_iff_exists_mem.mpr ⟨source, holds⟩
  have consistent := sound.consistent
  unfold Consistent at consistent
  unfold Timely Phase.Timely at timely
  split at consistent
  · simp [consistent.1] at holds
  · omega
  · next here =>
      rw [here] at timely
      simp only at timely
      omega
  · omega

theorem Sound.opened (sound : gate.Sound) (settled : gate.phase = .settled) (empty : gate.held = 0) :
    gate.opened = 1 := by
  have consistent := sound.consistent
  unfold Consistent at consistent
  rw [settled] at consistent
  have once := sound.once
  by_contra closed
  exact consistent.2.2 (by omega) empty

theorem toNat_one (wide : 1 < 2 ^ w) : (1 : BitVec w).toNat = 1 := by
  rw [BitVec.ofNat_eq_ofNat, BitVec.toNat_ofNat]
  exact Nat.mod_eq_of_lt wide

theorem eq_one_iff {counter : BitVec w} (positive : 0 < counter.toNat) : counter = 1 ↔ counter.toNat = 1 := by
  have below := counter.isLt
  have one : (1 : BitVec w).toNat = 1 := toNat_one (by omega)
  rw [← BitVec.toNat_inj, one]

theorem toNat_pred {counter : BitVec w} (positive : 0 < counter.toNat) :
    (counter - 1).toNat = counter.toNat - 1 := by
  have below := counter.isLt
  have one : (1 : BitVec w).toNat = 1 := toNat_one (by omega)
  rw [BitVec.toNat_sub_of_le (by rw [BitVec.le_def, one]; exact positive), one]

theorem toNat_succ {counter : BitVec w} (room : counter.toNat + 1 < 2 ^ w) :
    (counter + 1).toNat = counter.toNat + 1 := by
  have one : (1 : BitVec w).toNat = 1 := toNat_one (by omega)
  rw [BitVec.toNat_add, one, Nat.mod_eq_of_lt room]

theorem Sound.enter (sound : gate.Sound) {dependencies : List (Option Source)} (idle : gate.phase = .idle)
    (bound : dependencies.length < 2 ^ w) :
    Sound { gate with phase := .registering dependencies 0, dependencies } := by
  have consistent := sound.consistent
  simp only [Consistent, idle] at consistent
  obtain ⟨empty, counter, closed⟩ := consistent
  refine ⟨sound.once, sound.shut, bound, ?_⟩
  refine ⟨by simp [empty, counter], by simp [empty], ⟨[], rfl, by simp, ?_⟩, by simp, ?_⟩
  · intro source member
    cases member
  · intro opened
    simp [closed] at opened

theorem Sound.skip (sound : gate.Sound) {token : Option Source} {rest : List (Option Source)}
    {pending : BitVec w} (here : gate.phase = .registering (token :: rest) pending)
    (settled : ∀ source, token = some source → gate.completed source = true) :
    Sound { gate with phase := .registering rest pending } := by
  have consistent := sound.consistent
  simp only [Consistent, here] at consistent
  obtain ⟨counter, below, ⟨done, same, counted, covers⟩, closed, opened⟩ := consistent
  refine ⟨sound.once, sound.shut, sound.bound, counter, below, ⟨done ++ [token], ?_, ?_, ?_⟩, closed, ?_⟩
  · simp [same]
  · simp only [List.length_append, List.length_singleton]
    omega
  · exact covers.concat fun source here => .inl (settled source here)
  · intro open'
    exact ⟨(opened open').1, fun source member => (opened open').2 source (List.mem_cons_of_mem _ member)⟩

theorem Sound.register (sound : gate.Sound) {source : Source} {rest : List (Option Source)}
    {pending : BitVec w} (here : gate.phase = .registering (some source :: rest) pending)
    (incomplete : gate.completed source = false) :
    Sound { gate with phase := .counting rest pending, held := source ::ₘ gate.held } := by
  have consistent := sound.consistent
  simp only [Consistent, here] at consistent
  obtain ⟨counter, below, ⟨done, same, counted, covers⟩, -, opened⟩ := consistent
  -- An open gate has no incomplete source left in its list.
  have closed : gate.opened = 0 := by
    by_contra open'
    have once := sound.once
    have complete := (opened (by omega)).2 source (by simp)
    rw [incomplete] at complete
    cases complete
  refine ⟨sound.once, by simp [closed], sound.bound, ?_, ?_, ⟨done ++ [some source], ?_, ?_, ?_⟩, closed⟩
  · simp [counter]
  · simp only [Multiset.card_cons]
    omega
  · simp [same]
  · simp only [List.length_append, List.length_singleton]
    omega
  · refine Covers.concat (covers.of_grows (fun _ => id) ?_) ?_
    · intro other waiting
      exact .inr (Multiset.mem_cons_of_mem waiting)
    · rintro _ ⟨⟩
      exact .inr (Multiset.mem_cons_self _ _)

theorem Sound.count (sound : gate.Sound) {rest : List (Option Source)} {pending : BitVec w}
    (here : gate.phase = .counting rest pending) :
    Sound { gate with phase := .registering rest (pending + 1), counter := gate.counter + 1 } := by
  have consistent := sound.consistent
  simp only [Consistent, here] at consistent
  obtain ⟨counter, below, ⟨done, same, counted, covers⟩, closed⟩ := consistent
  have length : done.length < 2 ^ w := by
    have bound := sound.bound
    rw [same, List.length_append] at bound
    omega
  have pendingNext := toNat_succ (show pending.toNat + 1 < 2 ^ w by omega)
  have counterNext := toNat_succ (show gate.counter.toNat + 1 < 2 ^ w by omega)
  refine ⟨sound.once, sound.shut, sound.bound, ?_, ?_, ⟨done, same, ?_, covers⟩, ?_, by simp [closed]⟩
  · rw [counterNext]
    exact counter
  · rw [pendingNext]
    exact below
  · rw [pendingNext]
    exact counted
  · intro _ empty
    have none : gate.held.card = 0 := by simpa using empty
    omega

theorem Sound.finish (sound : gate.Sound) {pending : BitVec w} (here : gate.phase = .registering [] pending) :
    Sound { gate with phase := .settled, opened := gate.opened + if pending = 0 then 1 else 0 } := by
  have consistent := sound.consistent
  simp only [Consistent, here] at consistent
  obtain ⟨counter, below, ⟨done, same, counted, covers⟩, closed, opened⟩ := consistent
  have once := sound.once
  have all : gate.dependencies = done := by simpa using same
  by_cases zero : pending = 0
  · have empty : gate.held = 0 := by
      rw [← Multiset.card_eq_zero]
      simpa [zero] using below
    have shut : gate.opened = 0 := by
      by_contra open'
      exact (opened (by omega)).1 zero
    refine ⟨by simp [shut, zero], fun _ => empty, sound.bound, counter, ?_, by simp [zero]⟩
    rw [all]
    exact covers
  · simp only [zero, if_false, Nat.add_zero]
    refine ⟨once, sound.shut, sound.bound, counter, ?_, ?_⟩
    · rw [all]
      exact covers
    · intro shut empty
      exact zero (closed shut empty)

theorem Sound.release [DecidableEq Source] (sound : gate.Sound) {source : Source} (holds : source ∈ gate.held)
    (completed : gate.completed source = true) (timely : gate.Timely) :
    Sound { gate with
      held := gate.held.erase source
      counter := gate.counter - 1
      opened := gate.opened + if gate.counter = 1 then 1 else 0 } := by
  have positive := sound.counter_pos timely holds
  have pred := toNat_pred positive
  have one := eq_one_iff positive
  have card := Multiset.card_erase_add_one holds
  -- An open gate holds no source, so this one is still shut.
  have closed : gate.opened = 0 := by
    by_contra open'
    have once := sound.once
    have empty := sound.shut (by omega)
    simp [empty] at holds
  have cover : ∀ sources, gate.Covers sources → Covers { gate with
      held := gate.held.erase source
      counter := gate.counter - 1
      opened := gate.opened + if gate.counter = 1 then 1 else 0 } sources := by
    intro sources covers
    refine covers.of_grows (fun _ => id) ?_
    intro other waiting
    by_cases same : other = source
    · subst same
      exact .inl completed
    · exact .inr ((Multiset.mem_erase_of_ne same).mpr waiting)
  have opens : ∀ value, gate.opened + (if gate.counter = 1 then 1 else 0) = value →
      (gate.counter.toNat = 1 ∧ value = 1) ∨ (gate.counter.toNat ≠ 1 ∧ value = 0) := by
    intro value same
    split at same
    · next last => exact .inl ⟨one.mp last, by omega⟩
    · next more => exact .inr ⟨mt one.mpr more, by omega⟩
  have once : gate.opened + (if gate.counter = 1 then 1 else 0) ≤ 1 := by
    rcases opens _ rfl with ⟨-, value⟩ | ⟨-, value⟩ <;> omega
  have last (opened : gate.opened + (if gate.counter = 1 then 1 else 0) = 1) : gate.counter.toNat = 1 := by
    rcases opens _ opened with ⟨only, -⟩ | ⟨-, value⟩
    · exact only
    · cases value
  have more (opened : gate.opened + (if gate.counter = 1 then 1 else 0) = 0) : gate.counter.toNat ≠ 1 := by
    rcases opens _ opened with ⟨-, value⟩ | ⟨several, -⟩
    · cases value
    · exact several
  have emptied : gate.held.erase source = 0 ↔ gate.held.card = 1 := by
    rw [← Multiset.card_eq_zero]
    omega
  have consistent := sound.consistent
  unfold Timely Phase.Timely at timely
  unfold Consistent at consistent
  split at consistent
  -- Idle gates hold nothing; the other phases keep the books in their own way.
  · simp [consistent.1] at holds
  · next rest pending here =>
      rw [here] at timely
      simp only at timely
      obtain ⟨counter, below, ⟨done, same, counted, covers⟩, shut, -⟩ := consistent
      refine ⟨once, ?_, sound.bound, ?_⟩
      · intro opened
        have only := last opened
        exact emptied.mpr (by omega)
      · unfold Consistent
        simp only [here]
        refine ⟨by omega, by omega, ⟨done, same, counted, cover done covers⟩, ?_, ?_⟩
        · intro opened empty
          have several := more opened
          rw [emptied] at empty
          omega
        · intro opened
          have only := last opened
          refine ⟨?_, timely.resolve_left (by omega)⟩
          rintro rfl
          have none : (0 : BitVec w).toNat = 0 := by simp
          omega
  · next rest pending here =>
      rw [here] at timely
      simp only at timely
      obtain ⟨counter, below, ⟨done, same, counted, covers⟩, shut⟩ := consistent
      -- Between registering and counting the counter still lacks the new source.
      have value : gate.opened + (if gate.counter = 1 then 1 else 0) = 0 := by
        rcases opens _ rfl with ⟨last, -⟩ | ⟨-, value⟩
        · omega
        · exact value
      refine ⟨once, fun opened => ?_, sound.bound, ?_⟩
      · cases value.symm.trans opened
      · unfold Consistent
        simp only [here]
        exact ⟨by omega, by omega, ⟨done, same, counted, cover done covers⟩, value⟩
  · next here =>
      obtain ⟨counter, covers, shut⟩ := consistent
      refine ⟨once, ?_, sound.bound, ?_⟩
      · intro opened
        have only := last opened
        exact emptied.mpr (by omega)
      · unfold Consistent
        simp only [here]
        refine ⟨by omega, cover _ covers, ?_⟩
        intro opened empty
        have several := more opened
        rw [emptied] at empty
        omega

theorem Sound.grow (sound : gate.Sound) {completed : Source → Bool}
    (grows : ∀ source, gate.completed source = true → completed source = true) :
    Sound { gate with completed } := by
  have cover : ∀ sources, gate.Covers sources → Covers { gate with completed } sources :=
    fun sources covers => covers.of_grows grows fun _ => .inr
  refine ⟨sound.once, sound.shut, sound.bound, ?_⟩
  have consistent := sound.consistent
  unfold Consistent at consistent ⊢
  cases here : gate.phase with
  | idle =>
      rw [here] at consistent
      exact consistent
  | registering rest pending =>
      rw [here] at consistent
      obtain ⟨counter, below, ⟨done, same, counted, covers⟩, closed, opened⟩ := consistent
      refine ⟨counter, below, ⟨done, same, counted, cover done covers⟩, closed, ?_⟩
      intro open'
      exact ⟨(opened open').1, fun source member => grows source ((opened open').2 source member)⟩
  | counting rest pending =>
      rw [here] at consistent
      obtain ⟨counter, below, ⟨done, same, counted, covers⟩, closed⟩ := consistent
      exact ⟨counter, below, ⟨done, same, counted, cover done covers⟩, closed⟩
  | settled =>
      rw [here] at consistent
      exact ⟨consistent.1, cover _ consistent.2.1, consistent.2.2⟩

theorem Sound.step [DecidableEq Source] (sound : gate.Sound) (stepped : gate.Step gate') : gate'.Sound := by
  cases stepped with
  | complete completed grows => exact sound.grow grows
  | enter dependencies idle bound => exact sound.enter idle bound
  | skip token rest pending here settled => exact sound.skip here settled
  | register source rest pending here incomplete => exact sound.register here incomplete
  | count rest pending here => exact sound.count here
  | finish pending here => exact sound.finish here
  | release source holds completed timely => exact sound.release holds completed timely

end Gate

end SoulLib.Async
