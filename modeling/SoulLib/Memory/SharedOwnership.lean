import SoulLib.Memory.SharedPtr

/-! What the managers know of the blocks that shared pointers own.

A block of the factory is in the books of the manager that was in the registry when
it was made, for exactly as long as some handle owns it, whatever the registry holds
meanwhile.
-/

set_option autoImplicit false

namespace SoulLib.Memory.Smart

open SoulLib.Semantics (System)

namespace Sharing

/-- The control block at an index, while handles own it. -/
def Alive (scope : Sharing) (index : Nat) (control : Control) : Prop :=
  scope.controls[index]? = some control ∧ control.alive = true

structure Sound (scope : Sharing) : Prop where
  owned : ∀ index, some index ∈ scope.strong → ∃ control, scope.Alive index control
  owner : ∀ index control, scope.Alive index control → some index ∈ scope.strong
  live : ∀ index control, scope.Alive index control → control.object ∈ scope.live
  distinct : ∀ first second control other, scope.Alive first control → scope.Alive second other →
    control.object = other.object → first = second
  registered : ∀ index control manager, scope.Alive index control → control.manager = some manager →
    (scope.managers manager).info control.object = some control.info
  made : ∀ index control manager, scope.Alive index control → control.manager = some manager →
    scope.foreign manager control.object = false
  books : ∀ manager ptr found, (scope.managers manager).info ptr = some found →
    (∃ index control, scope.Alive index control ∧ control.manager = some manager ∧ control.object = ptr) ∨
      scope.foreign manager ptr = true
  weak : ∀ index, some index ∈ scope.weak → index < scope.controls.length

variable {new : OperatorNew} {scope scope' : Sharing} {index handle ptr : Nat} {control : Control} {call : SharedCall}

theorem holds_iff : scope.Holds ptr ↔ ∃ index control, scope.Alive index control ∧ control.object = ptr := by
  constructor
  · rintro ⟨control, member, alive, same⟩
    obtain ⟨index, found⟩ := List.mem_iff_getElem?.mp member
    exact ⟨index, control, ⟨found, alive⟩, same⟩
  · rintro ⟨index, control, ⟨found, alive⟩, same⟩
    exact ⟨control, List.mem_of_getElem? found, alive, same⟩

theorem useCount_eq_zero : scope.useCount index = 0 ↔ some index ∉ scope.strong := List.count_eq_zero

theorem Sound.handles (sound : Sound scope) {strong weak : List (Option Nat)} {registry : Option Nat}
    (same : ∀ index, some index ∈ strong ↔ some index ∈ scope.strong)
    (bounded : ∀ index, some index ∈ weak → index < scope.controls.length) :
    Sound { scope with strong, weak, registry } where
  owned index member := sound.owned index ((same index).mp member)
  owner index control alive := (same index).mpr (sound.owner index control alive)
  live := sound.live
  distinct := sound.distinct
  registered := sound.registered
  made := sound.made
  books := sound.books
  weak := bounded

theorem Sound.bound (sound : Sound scope) (member : some index ∈ scope.strong) : index < scope.controls.length := by
  obtain ⟨control, found, -⟩ := sound.owned index member
  exact (List.getElem?_eq_some_iff.mp found).1

section Disposal

theorem alive_dispose (scope : Sharing) (found : scope.controls[index]? = some control) (other : Nat) (next : Control) :
    (scope.dispose index control).Alive other next ↔ other ≠ index ∧ scope.Alive other next := by
  have bound := (List.getElem?_eq_some_iff.mp found).1
  unfold Alive dispose
  by_cases same : other = index
  · subst same
    simp only [List.getElem?_set_self bound, Option.some.injEq, ne_eq, not_true_eq_false, false_and, iff_false, not_and]
    rintro rfl dead
    cases dead
  · simp [same, List.getElem?_set_ne (Ne.symm same)]

theorem info_dispose (holder address : Nat) :
    ((scope.dispose index control).managers holder).info address =
      if control.manager = some holder ∧ address = control.object then none
      else (scope.managers holder).info address := by
  unfold dispose
  cases captured : control.manager with
  | none => simp
  | some manager =>
      simp only [MemoryManager.info_update_unregister, Option.some.injEq]
      simp only [eq_comm]

theorem Sound.disposed (sound : Sound scope) {strong : List (Option Nat)} (alive : scope.Alive index control)
    (lost : some index ∉ strong) (others : ∀ other ≠ index, some other ∈ strong ↔ some other ∈ scope.strong) :
    Sound (dispose { scope with strong } index control) := by
  -- disposing kills this control block and no other
  have kept (other : Nat) (next : Control) : (dispose { scope with strong } index control).Alive other next ↔
      other ≠ index ∧ scope.Alive other next := alive_dispose { scope with strong } alive.1 other next
  -- two live control blocks own different objects
  have apart {other : Nat} {next : Control} (differs : other ≠ index) (here : scope.Alive other next) :
      next.object ≠ control.object := fun same => differs (sound.distinct _ _ _ _ here alive same)
  constructor
  · intro other member
    have differs : other ≠ index := fun same => lost (same ▸ member)
    obtain ⟨next, here⟩ := sound.owned other ((others other differs).mp member)
    exact ⟨next, (kept other next).mpr ⟨differs, here⟩⟩
  · intro other next here
    obtain ⟨differs, before⟩ := (kept other next).mp here
    exact (others other differs).mpr (sound.owner other next before)
  · intro other next here
    obtain ⟨differs, before⟩ := (kept other next).mp here
    exact (List.mem_erase_of_ne (apart differs before)).mpr (sound.live other next before)
  · intro first second one two here there
    exact sound.distinct first second one two ((kept _ _).mp here).2 ((kept _ _).mp there).2
  · intro other next manager here captured
    obtain ⟨differs, before⟩ := (kept other next).mp here
    -- what another live handle registered is not what the manager forgets here
    rw [info_dispose, if_neg fun both => apart differs before both.2]
    exact sound.registered other next manager before captured
  · intro other next manager here captured
    exact sound.made other next manager ((kept other next).mp here).2 captured
  · intro manager address found registered
    rw [info_dispose] at registered
    split at registered
    · cases registered
    · next elsewhere =>
        rcases sound.books manager address found registered with ⟨other, next, before, captured, same⟩ | foreign
        · have differs : other ≠ index := by
            rintro rfl
            obtain rfl : control = next := Option.some.inj (alive.1.symm.trans before.1)
            exact elsewhere ⟨captured, same.symm⟩
          exact .inl ⟨other, next, (kept other next).mpr ⟨differs, before⟩, captured, same⟩
        · exact .inr foreign
  · intro other member
    have bound := sound.weak other member
    simpa [dispose] using bound

theorem mem_set_iff {slots : List (Option Nat)} {given : Option Nat} (bound : handle < slots.length) (value : Nat) :
    some value ∈ slots.set handle given ↔
      given = some value ∨ ∃ other ≠ handle, slots[other]? = some (some value) := by
  rw [List.mem_iff_getElem?]
  constructor
  · rintro ⟨position, here⟩
    by_cases same : handle = position
    · rw [← same, List.getElem?_set_self bound] at here
      exact .inl (Option.some.inj here)
    · rw [List.getElem?_set_ne same] at here
      exact .inr ⟨position, Ne.symm same, here⟩
  · rintro (rfl | ⟨other, differs, here⟩)
    · exact ⟨handle, List.getElem?_set_self bound⟩
    · exact ⟨other, by rw [List.getElem?_set_ne (Ne.symm differs)]; exact here⟩

theorem Sound.replace (sound : Sound scope) {given : Option Nat}
    (owned : ∀ index, given = some index → some index ∈ scope.strong)
    (done : scope.replace handle given = some scope') : Sound scope' := by
  obtain ⟨before, found, rest⟩ := Option.bind_eq_some_iff.mp done
  have bound := (List.getElem?_eq_some_iff.mp found).1
  have within (index : Nat) (member : some index ∈ scope.strong.set handle given) : some index ∈ scope.strong := by
    rcases (mem_set_iff bound index).mp member with rfl | ⟨other, -, here⟩
    · exact owned index rfl
    · exact List.mem_of_getElem? here
  have kept (index : Nat) (differs : before ≠ some index) (member : some index ∈ scope.strong) :
      some index ∈ scope.strong.set handle given := by
    obtain ⟨position, here⟩ := List.mem_iff_getElem?.mp member
    refine (mem_set_iff bound index).mpr (.inr ⟨position, ?_, here⟩)
    rintro rfl
    exact differs (Option.some.inj (found.symm.trans here))
  -- the handle may have held nothing, the last share of a block, or one of several
  cases before with
  | none =>
      cases rest
      exact sound.handles (fun index => ⟨within index, kept index (by simp)⟩) sound.weak
  | some index =>
      simp only at rest
      split at rest
      · next last =>
          obtain ⟨control, stored, same⟩ := Option.bind_eq_some_iff.mp rest
          cases same
          obtain ⟨present, alive⟩ := sound.owned index (List.mem_of_getElem? found)
          obtain rfl : present = control := Option.some.inj (alive.1.symm.trans stored)
          refine sound.disposed alive (useCount_eq_zero.mp last) ?_
          exact fun other differs => ⟨within other, kept other fun same => differs (Option.some.inj same).symm⟩
      · next left =>
          cases rest
          have still : some index ∈ scope.strong.set handle given := by
            by_contra lost
            exact left (useCount_eq_zero.mpr lost)
          refine sound.handles (fun other => ⟨within other, ?_⟩) sound.weak
          intro member
          by_cases same : other = index
          · exact same ▸ still
          · exact kept other (fun here => same (Option.some.inj here).symm) member

end Disposal

section Creation

theorem alive_append {made : Control} (other : Nat) (next : Control) (alive : made.alive = true) :
    ((scope.controls ++ [made])[other]? = some next ∧ next.alive = true) ↔
      scope.Alive other next ∨ other = scope.controls.length ∧ next = made := by
  unfold Alive
  rcases Nat.lt_trichotomy other scope.controls.length with below | same | above
  · rw [List.getElem?_append_left below]
    simp [Nat.ne_of_lt below]
  · subst same
    rw [List.getElem?_concat_length, List.getElem?_eq_none (Nat.le_refl _)]
    constructor
    · rintro ⟨same, -⟩
      exact .inr ⟨rfl, (Option.some.inj same).symm⟩
    · rintro (⟨none, -⟩ | ⟨-, rfl⟩)
      · cases none
      · exact ⟨rfl, alive⟩
  · rw [List.getElem?_eq_none (by simp; omega), List.getElem?_eq_none (Nat.le_of_lt above)]
    simp [Nat.ne_of_gt above]

theorem Sound.make (sound : Sound scope) {manager : Option Nat} {info : AllocationInfo}
    {managers : Nat → MemoryManager} {foreign : Nat → Nat → Bool} {registry : Option Nat}
    (here : ∀ holder, manager = some holder →
      (managers holder).info (new.address scope.calls scope.live) = some info ∧
        foreign holder (new.address scope.calls scope.live) = false)
    (elsewhere : ∀ holder address, address ≠ new.address scope.calls scope.live →
      (managers holder).info address = (scope.managers holder).info address ∧
        foreign holder address = scope.foreign holder address)
    (others : ∀ holder found, manager ≠ some holder →
      (managers holder).info (new.address scope.calls scope.live) = some found →
        foreign holder (new.address scope.calls scope.live) = true) :
    Sound { scope.make new manager info with managers, foreign, registry } := by
  have kept (other : Nat) (next : Control) :
      Alive { scope.make new manager info with managers, foreign, registry } other next ↔ scope.Alive other next ∨
        other = scope.controls.length ∧ next = { object := new.address scope.calls scope.live, manager, info } :=
    alive_append other next rfl
  -- The address of the new object is not live, so no control block has it.
  have unused : new.address scope.calls scope.live ∉ scope.live := new.fresh _ _
  have apart {other : Nat} {next : Control} (alive : scope.Alive other next) :
      next.object ≠ new.address scope.calls scope.live := fun same => unused (same ▸ sound.live other next alive)
  have last : Alive { scope.make new manager info with managers, foreign, registry } scope.controls.length
      { object := new.address scope.calls scope.live, manager, info } := (kept _ _).mpr (.inr ⟨rfl, rfl⟩)
  constructor
  · intro other member
    rcases List.mem_append.mp member with before | fresh
    · obtain ⟨next, alive⟩ := sound.owned other before
      exact ⟨next, (kept other next).mpr (.inl alive)⟩
    · obtain rfl : other = scope.controls.length := by simpa using fresh
      exact ⟨_, last⟩
  · intro other next alive
    rcases (kept other next).mp alive with before | ⟨rfl, -⟩
    · exact List.mem_append_left _ (sound.owner other next before)
    · exact List.mem_append_right _ (List.mem_singleton.mpr rfl)
  · intro other next alive
    rcases (kept other next).mp alive with before | ⟨-, rfl⟩
    · exact List.mem_cons_of_mem _ (sound.live other next before)
    · exact List.mem_cons_self
  · intro first second one two here there same
    rcases (kept first one).mp here with before | ⟨rfl, rfl⟩
    · rcases (kept second two).mp there with earlier | ⟨-, rfl⟩
      · exact sound.distinct first second one two before earlier same
      · exact absurd same (apart before)
    · rcases (kept second two).mp there with earlier | ⟨rfl, -⟩
      · exact absurd same.symm (apart earlier)
      · rfl
  · intro other next holder alive captured
    rcases (kept other next).mp alive with before | ⟨-, rfl⟩
    · rw [(elsewhere holder next.object (apart before)).1]
      exact sound.registered other next holder before captured
    · exact (here holder captured).1
  · intro other next holder alive captured
    rcases (kept other next).mp alive with before | ⟨-, rfl⟩
    · exact (elsewhere holder next.object (apart before)).2.trans (sound.made other next holder before captured)
    · exact (here holder captured).2
  · intro holder address found registered
    by_cases same : address = new.address scope.calls scope.live
    · subst same
      by_cases mine : manager = some holder
      · exact .inl ⟨_, _, last, mine, rfl⟩
      · exact .inr (others holder found mine registered)
    · obtain ⟨info, marked⟩ := elsewhere holder address same
      rw [info] at registered
      rcases sound.books holder address found registered with ⟨other, next, alive, captured, here⟩ | foreign
      · exact .inl ⟨other, next, (kept other next).mpr (.inl alive), captured, here⟩
      · exact .inr (marked.trans foreign)
  · intro other member
    have bound := sound.weak other member
    exact Nat.lt_of_lt_of_le bound (by simp [Sharing.make])

theorem get_eq (scope : Sharing) : MemoryRegistry.get scope =
    (scope.registry.getD 0, { scope with registry := some (scope.registry.getD 0) }) := by
  obtain ⟨live, calls, managers, registry, controls, strong, weak, foreign⟩ := scope
  cases registry <;> rfl

theorem createWithArgs_eq (new : OperatorNew) (sizeof : Nat) (typeName tag : String) :
    scope.createWithArgs new sizeof typeName tag =
      let manager := scope.registry.getD 0
      let info : AllocationInfo := ⟨sizeof, makeRuntimeTag (if tag.isEmpty then typeName else tag)⟩
      let raw := new.address scope.calls scope.live
      { scope.make new (some manager) info with
        registry := some manager
        managers :=
          Function.update scope.managers manager ((scope.managers manager).registerAllocation raw sizeof info.tag)
        foreign := fun holder ptr => scope.foreign holder ptr && !(holder == manager && ptr == raw) } := by
  simp only [createWithArgs, get_eq]
  cases tag.isEmpty <;> rfl

theorem Sound.createWithArgs (sound : Sound scope) (new : OperatorNew) (sizeof : Nat) (typeName tag : String) :
    Sound (scope.createWithArgs new sizeof typeName tag) := by
  rw [createWithArgs_eq]
  refine sound.make ?_ ?_ ?_
  · intro holder same
    cases same
    exact ⟨by rw [MemoryManager.info_update_register, if_pos ⟨rfl, rfl⟩], by simp⟩
  · intro holder address differs
    rw [MemoryManager.info_update_register, if_neg fun both => differs both.2]
    simp [differs]
  · intro holder found differs registered
    rw [MemoryManager.info_update_register, if_neg fun both => differs (congrArg some both.1.symm)] at registered
    have apart : holder ≠ scope.registry.getD 0 := fun same => differs (congrArg some same.symm)
    rcases sound.books _ _ found registered with ⟨other, next, alive, -, same⟩ | foreign
    · exact absurd (sound.live other next alive) (same ▸ new.fresh _ _)
    · simpa [apart] using foreign

theorem Sound.adopt (sound : Sound scope) (new : OperatorNew) (info : AllocationInfo) :
    Sound (scope.make new none info) := by
  have made : Sound { scope.make new none info with
      managers := scope.managers, foreign := scope.foreign, registry := scope.registry } := by
    refine sound.make (fun holder none => by cases none) (fun _ _ _ => ⟨rfl, rfl⟩) ?_
    intro holder found _ registered
    rcases sound.books holder _ found registered with ⟨other, next, alive, -, same⟩ | foreign
    · exact absurd (sound.live other next alive) (same ▸ new.fresh _ _)
    · exact foreign
  exact made

end Creation

section Elsewhere

/-- Other code changes what is registered at an address that no handle owns. -/
theorem Sound.elsewhere (sound : Sound scope) {managers : Nat → MemoryManager} {foreign : Nat → Nat → Bool}
    {live : List Nat} {calls : Nat}
    (kept : ∀ index control, scope.Alive index control → control.object ∈ live ∧
      ∀ holder, (managers holder).info control.object = (scope.managers holder).info control.object ∧
        foreign holder control.object = scope.foreign holder control.object)
    (marked : ∀ holder address found, (managers holder).info address = some found →
      (scope.managers holder).info address = some found ∧ foreign holder address = scope.foreign holder address ∨
        foreign holder address = true) :
    Sound { scope with managers, foreign, live, calls } where
  owned := sound.owned
  owner := sound.owner
  live index control alive := (kept index control alive).1
  distinct := sound.distinct
  registered index control manager alive captured :=
    ((kept index control alive).2 manager).1.trans (sound.registered index control manager alive captured)
  made index control manager alive captured :=
    ((kept index control alive).2 manager).2.trans (sound.made index control manager alive captured)
  books holder address found registered := by
    rcases marked holder address found registered with ⟨before, same⟩ | now
    · rcases sound.books holder address found before with owned | foreign
      · exact .inl owned
      · exact .inr (same.trans foreign)
    · exact .inr now
  weak := sound.weak

theorem Sound.register (sound : Sound scope) {manager size : Nat} {tag : MemoryTag} (free : ¬scope.Holds ptr) :
    Sound { scope with
      managers := Function.update scope.managers manager ((scope.managers manager).registerAllocation ptr size tag)
      foreign := Function.update scope.foreign manager (Function.update (scope.foreign manager) ptr true) } := by
  refine sound.elsewhere ?_ ?_
  · intro index control alive
    have apart : control.object ≠ ptr := fun same => free (holds_iff.mpr ⟨index, control, alive, same⟩)
    refine ⟨sound.live index control alive, fun holder => ⟨?_, ?_⟩⟩
    · rw [MemoryManager.info_update_register, if_neg fun both => apart both.2]
    · by_cases same : holder = manager
      · subst same
        simp [apart]
      · simp [same]
  · intro holder address found registered
    rw [MemoryManager.info_update_register] at registered
    split at registered
    · next here =>
        obtain ⟨rfl, rfl⟩ := here
        exact .inr (by simp)
    · next apart =>
        refine .inl ⟨registered, ?_⟩
        by_cases same : holder = manager
        · subst same
          have differs : address ≠ ptr := fun here => apart ⟨rfl, here⟩
          simp [differs]
        · simp [same]

theorem Sound.unregister (sound : Sound scope) {manager : Nat} (free : ¬scope.Holds ptr) :
    Sound { scope with
      managers := Function.update scope.managers manager ((scope.managers manager).unregisterAllocation ptr) } := by
  refine sound.elsewhere ?_ ?_
  · intro index control alive
    refine ⟨sound.live index control alive, fun holder => ⟨?_, rfl⟩⟩
    rw [MemoryManager.info_update_unregister, if_neg]
    rintro ⟨-, same⟩
    exact free (holds_iff.mpr ⟨index, control, alive, same⟩)
  · intro holder address found registered
    rw [MemoryManager.info_update_unregister] at registered
    split at registered
    · cases registered
    · exact .inl ⟨registered, rfl⟩

end Elsewhere

theorem strong_replace {given : Option Nat} (done : scope.replace handle given = some scope') :
    handle < scope.strong.length ∧ scope'.strong = scope.strong.set handle given ∧ scope'.weak = scope.weak ∧
      scope'.controls.length = scope.controls.length := by
  obtain ⟨before, found, rest⟩ := Option.bind_eq_some_iff.mp done
  refine ⟨(List.getElem?_eq_some_iff.mp found).1, ?_⟩
  cases before with
  | none =>
      cases rest
      exact ⟨rfl, rfl, rfl⟩
  | some index =>
      simp only at rest
      split at rest
      · obtain ⟨control, -, same⟩ := Option.bind_eq_some_iff.mp rest
        cases same
        exact ⟨rfl, rfl, by simp [dispose]⟩
      · cases rest
        exact ⟨rfl, rfl, rfl⟩

theorem lock_eq_some : scope.lock handle = some index ↔
    scope.weak[handle]? = some (some index) ∧ some index ∈ scope.strong := by
  unfold lock expired
  rw [Option.ite_none_left_eq_some, Option.join_eq_some_iff]
  cases watched : scope.weak[handle]?.join with
  | none =>
      have unwatched : scope.weak[handle]? ≠ some (some index) := fun here => by simp [here] at watched
      simp [unwatched]
  | some control =>
      rw [Option.join_eq_some_iff] at watched
      rw [watched]
      simp only [beq_iff_eq, useCount_eq_zero, not_not, Option.some.injEq]
      constructor
      · rintro ⟨owned, rfl⟩
        exact ⟨rfl, owned⟩
      · rintro ⟨rfl, owned⟩
        exact ⟨owned, rfl⟩

section Steps

theorem Sound.push (sound : Sound scope) {given : Option Nat} (owned : ∀ index, given = some index →
    some index ∈ scope.strong) : Sound (scope.push given) := by
  refine sound.handles (fun index => ⟨?_, List.mem_append_left _⟩) sound.weak
  intro member
  rcases List.mem_append.mp member with before | last
  · exact before
  · exact owned index (List.mem_singleton.mp last).symm

theorem Sound.move (sound : Sound scope) {source : Nat} {moved : Option Nat}
    (found : scope.strong[source]? = some moved) :
    Sound { scope with strong := scope.strong.set source none ++ [moved] } := by
  have bound := (List.getElem?_eq_some_iff.mp found).1
  refine sound.handles (fun index => ?_) sound.weak
  rw [List.mem_append, mem_set_iff bound, List.mem_singleton]
  constructor
  · rintro ((none | ⟨other, -, here⟩) | rfl)
    · cases none
    · exact List.mem_of_getElem? here
    · exact List.mem_of_getElem? found
  · intro member
    obtain ⟨position, here⟩ := List.mem_iff_getElem?.mp member
    by_cases same : position = source
    · subst same
      exact .inr (Option.some.inj (here.symm.trans found))
    · exact .inl (.inr ⟨position, same, here⟩)

theorem Sound.moveAssign (sound : Sound scope) {source : Nat} {moved : Option Nat} (differ : handle ≠ source)
    (found : scope.strong[source]? = some moved) (done : scope.replace handle moved = some scope') :
    Sound { scope' with strong := scope'.strong.set source none } := by
  have replaced := sound.replace (fun index same => List.mem_of_getElem? (same ▸ found)) done
  obtain ⟨bound, strong, -⟩ := strong_replace done
  have within := (List.getElem?_eq_some_iff.mp found).1
  refine replaced.handles (fun index => ?_) replaced.weak
  rw [mem_set_iff (by rw [strong, List.length_set]; exact within)]
  constructor
  · rintro (none | ⟨other, -, here⟩)
    · cases none
    · exact List.mem_of_getElem? here
  · intro member
    -- What the source owned is owned by the other handle as well.
    have taken : scope'.strong[handle]? = some moved := by rw [strong, List.getElem?_set_self bound]
    have kept : scope'.strong[source]? = some moved := by rw [strong, List.getElem?_set_ne differ, found]
    obtain ⟨position, here⟩ := List.mem_iff_getElem?.mp member
    by_cases same : position = source
    · subst same
      exact .inr ⟨handle, differ, taken.trans (kept.symm.trans here)⟩
    · exact .inr ⟨position, same, here⟩

theorem Sound.watch (sound : Sound scope) {given : Option Nat} (bounded : ∀ index, given = some index →
    index < scope.controls.length) : Sound { scope with weak := scope.weak ++ [given] } := by
  refine sound.handles (fun _ => Iff.rfl) ?_
  intro index member
  rcases List.mem_append.mp member with before | last
  · exact sound.weak index before
  · exact bounded index (List.mem_singleton.mp last).symm

theorem Sound.forget (sound : Sound scope) : Sound { scope with weak := scope.weak.set handle none } := by
  refine sound.handles (fun _ => Iff.rfl) ?_
  intro index member
  rcases List.mem_or_eq_of_mem_set member with before | none
  · exact sound.weak index before
  · cases none

theorem Sound.allocate (sound : Sound scope) (address calls : Nat) :
    Sound { scope with live := address :: scope.live, calls } :=
  sound.elsewhere (fun index control alive => ⟨List.mem_cons_of_mem _ (sound.live index control alive),
    fun _ => ⟨rfl, rfl⟩⟩)
    fun _ _ _ registered => .inl ⟨registered, rfl⟩

theorem Sound.delete (sound : Sound scope) (free : ¬scope.Holds ptr) :
    Sound { scope with live := scope.live.erase ptr } := by
  refine sound.elsewhere ?_ fun _ _ _ registered => .inl ⟨registered, rfl⟩
  intro index control alive
  have apart : control.object ≠ ptr := fun same => free (holds_iff.mpr ⟨index, control, alive, same⟩)
  exact ⟨(List.mem_erase_of_ne apart).mpr (sound.live index control alive), fun _ => ⟨rfl, rfl⟩⟩

theorem Sound.step (sound : Sound scope) (done : step new scope call = some scope') : Sound scope' := by
  cases call with
  | createWithArgs sizeof typeName tag =>
      cases done
      exact sound.createWithArgs new sizeof typeName tag
  | adopt info =>
      cases done
      exact sound.adopt new info
  | null =>
      cases done
      exact sound.push (fun index none => by cases none)
  | copy source =>
      obtain ⟨copied, found, rfl⟩ := Option.map_eq_some_iff.mp done
      exact sound.push fun index same => List.mem_of_getElem? (same ▸ found)
  | move source =>
      obtain ⟨moved, found, same⟩ := Option.bind_eq_some_iff.mp done
      cases same
      exact sound.move found
  | copyAssign handle source =>
      obtain ⟨copied, found, replaced⟩ := Option.bind_eq_some_iff.mp done
      exact sound.replace (fun index same => List.mem_of_getElem? (same ▸ found)) replaced
  | moveAssign handle source =>
      -- A handle that is moved to itself is left alone.
      simp only [Sharing.step] at done
      split at done
      · cases done
        exact sound
      · next differ =>
          obtain ⟨moved, found, rest⟩ := Option.bind_eq_some_iff.mp done
          obtain ⟨replaced, taken, same⟩ := Option.bind_eq_some_iff.mp rest
          cases same
          exact sound.moveAssign differ found taken
  | destroy handle => exact sound.replace (fun index none => by cases none) done
  | getWeak source =>
      obtain ⟨watched, found, rfl⟩ := Option.map_eq_some_iff.mp done
      exact sound.watch fun index same => sound.bound (List.mem_of_getElem? (same ▸ found))
  | copyWeak source =>
      obtain ⟨watched, found, rfl⟩ := Option.map_eq_some_iff.mp done
      exact sound.watch fun index same => sound.weak index (List.mem_of_getElem? (same ▸ found))
  | destroyWeak handle =>
      cases done
      exact sound.forget
  | lock handle =>
      cases done
      exact sound.push fun index locked => (lock_eq_some.mp locked).2
  | get =>
      cases done
      rw [get_eq]
      exact sound.handles (fun _ => Iff.rfl) sound.weak
  | set manager =>
      cases done
      exact sound.handles (fun _ => Iff.rfl) sound.weak
  | reset =>
      cases done
      exact sound.handles (fun _ => Iff.rfl) sound.weak
  | register manager ptr size tag =>
      obtain ⟨free, same⟩ := Option.ite_none_left_eq_some.mp done
      cases same
      exact sound.register free
  | unregister manager ptr =>
      obtain ⟨free, same⟩ := Option.ite_none_left_eq_some.mp done
      cases same
      exact sound.unregister free
  | new =>
      cases done
      exact sound.allocate _ _
  | delete ptr =>
      obtain ⟨free, same⟩ := Option.ite_none_left_eq_some.mp done
      cases same
      exact sound.delete free

end Steps

section Lifetime

/-- What a control block says of its object stays, and a dead one stays dead. -/
def Remembers (scope scope' : Sharing) : Prop :=
  ∀ (index : Nat) (control : Control), scope.controls[index]? = some control →
    ∃ alive, scope'.controls[index]? = some { control with alive } ∧ (alive = true → control.alive = true)

theorem Remembers.of_eq (same : scope'.controls = scope.controls) : Remembers scope scope' :=
  fun _ control found => ⟨control.alive, same ▸ found, id⟩

theorem Remembers.trans {middle : Sharing} (first : Remembers scope middle) (rest : Remembers middle scope') :
    Remembers scope scope' := by
  intro index control found
  obtain ⟨alive, here, before⟩ := first index control found
  obtain ⟨later, there, between⟩ := rest index _ here
  exact ⟨later, there, fun now => before (between now)⟩

theorem remembers_make {manager : Option Nat} {info : AllocationInfo}
    (same : scope'.controls = (scope.make new manager info).controls) : Remembers scope scope' := by
  intro index control found
  have bound := (List.getElem?_eq_some_iff.mp found).1
  refine ⟨control.alive, ?_, id⟩
  rw [same, Sharing.make, List.getElem?_append_left bound]
  exact found

theorem remembers_replace {given : Option Nat} (done : scope.replace handle given = some scope') :
    Remembers scope scope' := by
  obtain ⟨before, -, rest⟩ := Option.bind_eq_some_iff.mp done
  cases before with
  | none =>
      cases rest
      exact .of_eq rfl
  | some index =>
      simp only at rest
      split at rest
      · obtain ⟨control, stored, same⟩ := Option.bind_eq_some_iff.mp rest
        cases same
        intro other next found
        by_cases same : index = other
        · subst same
          obtain rfl : control = next := Option.some.inj (stored.symm.trans found)
          exact ⟨false, List.getElem?_set_self (List.getElem?_eq_some_iff.mp found).1, by simp⟩
        · exact ⟨next.alive, (List.getElem?_set_ne same).trans found, id⟩
      · cases rest
        exact .of_eq rfl

theorem remembers_step (done : step new scope call = some scope') : Remembers scope scope' := by
  cases call with
  | createWithArgs sizeof typeName tag =>
      cases done
      exact remembers_make (by rw [createWithArgs_eq])
  | adopt info =>
      cases done
      exact remembers_make rfl
  | copyAssign handle source =>
      obtain ⟨copied, -, replaced⟩ := Option.bind_eq_some_iff.mp done
      exact remembers_replace replaced
  | moveAssign handle source =>
      simp only [Sharing.step] at done
      split at done
      · cases done
        exact .of_eq rfl
      · obtain ⟨moved, -, rest⟩ := Option.bind_eq_some_iff.mp done
        obtain ⟨replaced, taken, same⟩ := Option.bind_eq_some_iff.mp rest
        cases same
        exact (remembers_replace taken).trans (.of_eq rfl)
  -- of the remaining calls none changes a control block
  | destroy handle => exact remembers_replace done
  | move source =>
      obtain ⟨moved, -, same⟩ := Option.bind_eq_some_iff.mp done
      cases same
      exact .of_eq rfl
  | copy source =>
      obtain ⟨copied, -, rfl⟩ := Option.map_eq_some_iff.mp done
      exact .of_eq rfl
  | getWeak source =>
      obtain ⟨watched, -, rfl⟩ := Option.map_eq_some_iff.mp done
      exact .of_eq rfl
  | copyWeak source =>
      obtain ⟨watched, -, rfl⟩ := Option.map_eq_some_iff.mp done
      exact .of_eq rfl
  | register manager ptr size tag =>
      obtain ⟨-, same⟩ := Option.ite_none_left_eq_some.mp done
      cases same
      exact .of_eq rfl
  | unregister manager ptr =>
      obtain ⟨-, same⟩ := Option.ite_none_left_eq_some.mp done
      cases same
      exact .of_eq rfl
  | delete ptr =>
      obtain ⟨-, same⟩ := Option.ite_none_left_eq_some.mp done
      cases same
      exact .of_eq rfl
  | get =>
      cases done
      exact .of_eq (by simp only [get_eq])
  | null => cases done; exact .of_eq rfl
  | destroyWeak handle => cases done; exact .of_eq rfl
  | lock handle => cases done; exact .of_eq rfl
  | set manager => cases done; exact .of_eq rfl
  | reset => cases done; exact .of_eq rfl
  | new => cases done; exact .of_eq rfl

end Lifetime

/-- The calls are made in any order. -/
def Reachable (new : OperatorNew) (start scope : Sharing) : Prop := (system new).Reaches (fun _ _ => True) start scope

/-- Before the first pointer there are other blocks, and others are registered. -/
def begin (live : List Nat) (managers : Nat → MemoryManager) (registry : Option Nat) : Sharing :=
  { live, managers, registry, foreign := fun manager ptr => ((managers manager).info ptr).isSome }

section Runs

variable {start : Sharing} {live : List Nat} {managers : Nat → MemoryManager} {registry : Option Nat}

theorem sound_begin : Sound (begin live managers registry) where
  owned index member := by cases member
  owner index control alive := by cases alive.1
  live index control alive := by cases alive.1
  distinct first _ control _ alive _ _ := by cases alive.1
  registered index control _ alive _ := by cases alive.1
  made index control _ alive _ := by cases alive.1
  books manager ptr found here := .inr (Option.isSome_iff_exists.mpr ⟨found, here⟩)
  weak index member := by cases member

theorem Sound.reached (sound : Sound start) (reach : Reachable new start scope) : Sound scope :=
  reach.invariant sound fun _ _ _ _ sound _ done => sound.step done

theorem Reachable.remembers (reach : Reachable new start scope) : Remembers start scope :=
  reach.invariant (.of_eq rfl) fun _ _ _ _ earlier _ done => earlier.trans (remembers_step done)

theorem Sound.lost (sound : Sound start) (reach : Reachable new start scope) (bound : index < start.controls.length)
    (unowned : some index ∉ start.strong) : some index ∉ scope.strong := by
  intro member
  have found := List.getElem?_eq_getElem bound
  obtain ⟨alive, here, before⟩ := reach.remembers index _ found
  obtain ⟨present, there, still⟩ := (sound.reached reach).owned index member
  rw [here, Option.some.injEq] at there
  subst there
  exact unowned (sound.owner index _ ⟨found, before still⟩)

/-- As long as some handle owns it, a block of the factory is live and in the books of the manager that was in the
registry when it was made, with its size and tag. -/
theorem registered_while_owned (before : Reachable new (begin live managers registry) start)
    (sizeof : Nat) (typeName tag : String)
    (afterwards : Reachable new (start.createWithArgs new sizeof typeName tag) scope)
    (owned : 0 < scope.useCount start.controls.length) :
    new.address start.calls start.live ∈ scope.live ∧
      (scope.managers (start.registry.getD 0)).info (new.address start.calls start.live) =
        some ⟨sizeof, makeRuntimeTag (if tag.isEmpty then typeName else tag)⟩ := by
  have made := (sound_begin.reached before).createWithArgs new sizeof typeName tag
  have sound := made.reached afterwards
  have found : (start.createWithArgs new sizeof typeName tag).controls[start.controls.length]? =
      some { object := new.address start.calls start.live, manager := some (start.registry.getD 0),
             info := ⟨sizeof, makeRuntimeTag (if tag.isEmpty then typeName else tag)⟩ } := by
    rw [createWithArgs_eq]
    exact List.getElem?_concat_length
  obtain ⟨alive, here, -⟩ := afterwards.remembers _ _ found
  obtain ⟨control, there, still⟩ := sound.owned _ (List.count_pos_iff.mp owned)
  have same := Option.some.inj (there.symm.trans here)
  subst same
  exact ⟨sound.live _ _ ⟨here, still⟩, sound.registered _ _ _ ⟨here, still⟩ rfl⟩

theorem copy_registered_after_reset :
    ∃ scope, (system .above).run (fun _ _ => True)
        ((begin [] (fun _ => {}) (some 1)).createWithArgs .above 8 "i" "") [.copy 0, .reset, .destroy 0] = some scope ∧
      (scope.managers 1).info 1 = some ⟨8, makeRuntimeTag "i"⟩ := by
  obtain ⟨scope, ran, owned⟩ : ∃ scope, (system .above).run (fun _ _ => True)
      ((begin [] (fun _ => {}) (some 1)).createWithArgs .above 8 "i" "") [.copy 0, .reset, .destroy 0] = some scope ∧
      0 < scope.useCount 0 := ⟨_, rfl, by decide⟩
  exact ⟨scope, ran, (registered_while_owned .start 8 "i" "" (System.reaches_of_run ran) owned).2⟩

/-- What the managers have in their books and other code has not registered is exactly what the factory made and
some handle owns. -/
theorem books_iff_owned (reach : Reachable new (begin live managers registry) scope) (manager ptr : Nat) :
    ((scope.managers manager).info ptr).isSome ∧ scope.foreign manager ptr = false ↔
      ∃ index control, scope.controls[index]? = some control ∧ 0 < scope.useCount index ∧
        control.manager = some manager ∧ control.object = ptr := by
  have sound := sound_begin.reached reach
  constructor
  · rintro ⟨registered, mine⟩
    obtain ⟨found, registered⟩ := Option.isSome_iff_exists.mp registered
    rcases sound.books manager ptr found registered with ⟨index, control, alive, captured, same⟩ | foreign
    · exact ⟨index, control, alive.1, List.count_pos_iff.mpr (sound.owner index control alive), captured, same⟩
    · cases mine.symm.trans foreign
  · rintro ⟨index, control, found, owned, captured, rfl⟩
    obtain ⟨present, alive⟩ := sound.owned index (List.count_pos_iff.mp owned)
    obtain rfl : present = control := Option.some.inj (alive.1.symm.trans found)
    exact ⟨Option.isSome_iff_exists.mpr ⟨_, sound.registered index _ manager alive captured⟩,
      sound.made index _ manager alive captured⟩

theorem books_after_copy :
    ∃ scope, (system .above).run (fun _ _ => True) (begin [] (fun _ => {}) none)
        [.createWithArgs 8 "i" "", .copy 0, .destroy 0] = some scope ∧
      ((scope.managers 0).info 1).isSome ∧ scope.foreign 0 1 = false := by
  obtain ⟨scope, ran, owned⟩ : ∃ scope, (system .above).run (fun _ _ => True) (begin [] (fun _ => {}) none)
        [.createWithArgs 8 "i" "", .copy 0, .destroy 0] = some scope ∧
      ∃ index control, scope.controls[index]? = some control ∧ 0 < scope.useCount index ∧
        control.manager = some 0 ∧ control.object = 1 := ⟨_, rfl, 0, _, rfl, by decide, rfl, rfl⟩
  exact ⟨scope, ran, (books_iff_owned (System.reaches_of_run ran) 0 1).mpr owned⟩

/-- A block that a weak pointer has found expired is never owned again. -/
theorem expired_forever (before : Reachable new (begin live managers registry) start)
    (watched : start.weak[handle]? = some (some index)) (expired : start.expired handle = true)
    (afterwards : Reachable new start scope) (other : Nat) (watches : scope.weak[other]? = some (some index)) :
    scope.expired other = true ∧ scope.lock other = none := by
  have sound := sound_begin.reached before
  have unowned : some index ∉ start.strong := by
    rw [Sharing.expired, watched] at expired
    exact useCount_eq_zero.mp (beq_iff_eq.mp expired)
  have lost := sound.lost afterwards (sound.weak index (List.mem_of_getElem? watched)) unowned
  have gone : scope.expired other = true := by
    rw [Sharing.expired, watches]
    exact beq_iff_eq.mpr (useCount_eq_zero.mpr lost)
  exact ⟨gone, by rw [Sharing.lock, if_pos gone]⟩

theorem copied_weak_expired :
    ∃ scope, (system .above).run (fun _ _ => True) (begin [] (fun _ => {}) none)
        [.createWithArgs 8 "i" "", .getWeak 0, .destroy 0] = some scope ∧
      ∃ after, (system .above).run (fun _ _ => True) scope [.copyWeak 0, .createWithArgs 8 "i" ""] = some after ∧
        after.lock 1 = none := by
  obtain ⟨scope, ran, watched, expired, after, followed, watches⟩ :
      ∃ scope, (system .above).run (fun _ _ => True) (begin [] (fun _ => {}) none)
          [.createWithArgs 8 "i" "", .getWeak 0, .destroy 0] = some scope ∧
        scope.weak[0]? = some (some 0) ∧ scope.expired 0 = true ∧
        ∃ after, (system .above).run (fun _ _ => True) scope [.copyWeak 0, .createWithArgs 8 "i" ""] = some after ∧
          after.weak[1]? = some (some 0) := ⟨_, rfl, rfl, by decide, _, rfl, rfl⟩
  exact ⟨scope, ran, after, followed, (expired_forever (System.reaches_of_run ran) watched expired
    (System.reaches_of_run followed) 1 watches).2⟩

end Runs

end Sharing

end SoulLib.Memory.Smart
