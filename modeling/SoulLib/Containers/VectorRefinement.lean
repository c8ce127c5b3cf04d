import SoulLib.Containers.Comparator
import SoulLib.Containers.VectorMethods
import SoulLib.Containers.Vectors

/-! The vectors refine lists, and the managers' books balance.

`Represents` relates the vectors to lists and says that exactly the buffers of the
live vectors are registered. Every operation keeps it, with the list changed
as the operation says unless an element of a full vector was inserted into it.
-/

set_option autoImplicit false

namespace SoulLib.Containers.Vectors

open SoulLib.Memory (Heap BadAlloc Buffer Accounts Runs)
open SoulLib.Semantics (System)
open SoulVector (Holds Method)

variable {T : Type} {platform : Platform T}

/-- The buffers of a vector that may have been destroyed. -/
def owned : Option (SoulVector T) → List Buffer
  | none => []
  | some vector => vector.buffers

/-- The vectors hold the lists, and the heap accounts for their buffers. -/
structure Represents (platform : Platform T) (vectors : Vectors T) (lists : Lists T) : Prop where
  holds : ∀ index : Nat, Option.Rel (Option.Rel (Holds platform vectors.heap)) vectors.objects[index]? lists[index]?
  accounts : Accounts platform.sizeof vectorTag vectors.heap (vectors.objects.flatMap owned)

theorem perm_set (objects : List (Option (SoulVector T))) {index : Nat} (bound : index < objects.length)
    (object : Option (SoulVector T)) :
    ((objects.set index object).flatMap owned).Perm (owned object ++ (objects.set index none).flatMap owned) := by
  induction objects generalizing index with
  | nil => cases bound
  | cons first rest ih =>
      cases index with
      | zero => exact .refl _
      | succ index =>
          rw [List.set_cons_succ, List.set_cons_succ, List.flatMap_cons, List.flatMap_cons]
          have moved := (ih (Nat.lt_of_succ_lt_succ bound)).append_left (owned first)
          exact moved.trans (List.perm_append_comm_assoc _ _ _)

theorem owned_of_ne {objects : List (Option (SoulVector T))} {index other : Nat} {object : Option (SoulVector T)}
    (found : objects[other]? = some object) (differs : other ≠ index) :
    ∀ buffer ∈ owned object, buffer ∈ (objects.set index none).flatMap owned := by
  intro buffer member
  refine List.mem_flatMap.mpr ⟨object, ?_, member⟩
  apply List.mem_of_getElem? (i := other)
  rw [List.getElem?_set_ne (Ne.symm differs), found]

theorem rel_imp {α β : Type} {first second : α → β → Prop} {a : Option α} {b : Option β}
    (related : Option.Rel first a b) (implies : ∀ x ∈ a, ∀ y, first x y → second x y) : Option.Rel second a b := by
  cases related with
  | some holds => exact .some (implies _ rfl _ holds)
  | none => exact .none

variable {vectors : Vectors T} {lists : Lists T}

/-- Changing some vectors by code that runs on their buffers only. -/
theorem Represents.change (represents : Represents platform vectors lists) {used left rest : List Buffer}
    {objects : List (Option (SoulVector T))} {heap : Heap T} {changed : Lists T}
    (before : (vectors.objects.flatMap owned).Perm (used ++ rest)) (after : (left ++ rest).Perm (objects.flatMap owned))
    (runs : Runs platform.sizeof vectorTag vectors.heap used heap left)
    (entries : ∀ index : Nat, Option.Rel (Option.Rel (Holds platform heap)) objects[index]? changed[index]? ∨
      objects[index]? = vectors.objects[index]? ∧ changed[index]? = lists[index]? ∧
        ∀ object ∈ vectors.objects[index]?, ∀ buffer ∈ owned object, buffer ∈ rest) :
    Represents platform { objects, heap } changed := by
  have accounts := represents.accounts.perm before
  refine ⟨?_, (runs rest accounts).1.perm after⟩
  intro index
  rcases entries index with new | ⟨sameObject, sameList, within⟩
  · exact new
  · dsimp only
    rw [sameObject, sameList]
    refine rel_imp (represents.holds index) ?_
    intro object here list related
    refine rel_imp related ?_
    rintro vector rfl list holds
    exact holds.frame_runs runs accounts (within _ here)

theorem object_eq_some {index : Nat} {this : SoulVector T} :
    vectors.object index = some this ↔ vectors.objects[index]? = some (some this) :=
  Option.join_eq_some_iff

theorem list_eq_some {index : Nat} {list : List T} : lists.list index = some list ↔ lists[index]? = some (some list) :=
  Option.join_eq_some_iff

theorem Represents.list_of_object (represents : Represents platform vectors lists) {index : Nat} {this : SoulVector T}
    (found : vectors.object index = some this) :
    ∃ list, lists.list index = some list ∧ Holds platform vectors.heap this list := by
  have related := represents.holds index
  rw [object_eq_some.mp found] at related
  rw [Lists.list]
  generalize lists[index]? = entry at related
  cases related with
  | some inner =>
      cases inner with
      | some holds => exact ⟨_, rfl, holds⟩

theorem set_self {α : Type} {values : List α} {index : Nat} {value : α} (found : values[index]? = some value) :
    values.set index value = values := by
  apply List.ext_getElem?
  intro other
  by_cases same : index = other
  · subst same
    rw [found, List.getElem?_set_self (List.getElem?_eq_some_iff.mp found).1]
  · rw [List.getElem?_set_ne same]

variable {this this' other other' : SoulVector T} {heap : Heap T} {list list' listOther : List T} {index : Nat}

theorem perm_object (found : vectors.object index = some this) :
    (vectors.objects.flatMap owned).Perm (this.buffers ++ (vectors.objects.set index none).flatMap owned) := by
  rw [object_eq_some] at found
  have split := perm_set _ (List.getElem?_eq_some_iff.mp found).1 (some this)
  rwa [set_self found] at split

theorem Represents.replace (represents : Represents platform vectors lists) (found : vectors.object index = some this)
    (known : lists.list index = some list) {object : Option (SoulVector T)} {entry : Option (List T)}
    (related : Option.Rel (Holds platform heap) object entry)
    (runs : Runs platform.sizeof vectorTag vectors.heap this.buffers heap (owned object)) :
    Represents platform { objects := vectors.objects.set index object, heap } (lists.set index entry) := by
  have bound := (List.getElem?_eq_some_iff.mp (object_eq_some.mp found)).1
  have boundList := (List.getElem?_eq_some_iff.mp (list_eq_some.mp known)).1
  refine represents.change (perm_object found) (perm_set _ bound object).symm runs ?_
  intro position
  by_cases same : index = position
  · subst same
    left
    rw [List.getElem?_set_self bound, List.getElem?_set_self boundList]
    exact .some related
  · right
    rw [List.getElem?_set_ne same, List.getElem?_set_ne same]
    exact ⟨rfl, rfl, fun object here => owned_of_ne here (Ne.symm same)⟩

theorem Represents.update (represents : Represents platform vectors lists)
    (found : vectors.object index = some this) (known : lists.list index = some list)
    (method : Method platform vectors.heap this heap this' list') :
    Represents platform { objects := vectors.objects.set index (some this'), heap } (lists.set index (some list')) :=
  represents.replace found known (.some method.holds) method.runs

theorem Represents.length_eq (represents : Represents platform vectors lists) :
    vectors.objects.length = lists.length := by
  have covers : ∀ index : Nat, index < vectors.objects.length ↔ index < lists.length := by
    intro index
    have related := represents.holds index
    rw [← Nat.not_le, ← Nat.not_le, ← List.getElem?_eq_none_iff, ← List.getElem?_eq_none_iff]
    generalize vectors.objects[index]? = object at related
    generalize lists[index]? = list at related
    cases related with
    | some inner => simp
    | none => simp
  have first := covers vectors.objects.length
  have second := covers lists.length
  omega

theorem Represents.add (represents : Represents platform vectors lists)
    (runs : Runs platform.sizeof vectorTag vectors.heap [] heap this'.buffers) (holds : Holds platform heap this' list') :
    Represents platform { objects := vectors.objects ++ [some this'], heap } (lists ++ [some list']) := by
  have after : (this'.buffers ++ vectors.objects.flatMap owned).Perm
      ((vectors.objects ++ [some this']).flatMap owned) := by
    rw [List.flatMap_append, List.flatMap_singleton]
    exact List.perm_append_comm
  refine represents.change (.refl _) after runs ?_
  intro position
  rcases Nat.lt_trichotomy position vectors.objects.length with less | rfl | greater
  · right
    rw [List.getElem?_append_left less, List.getElem?_append_left (represents.length_eq ▸ less)]
    refine ⟨rfl, rfl, ?_⟩
    intro object here buffer member
    exact List.mem_flatMap.mpr ⟨object, List.mem_of_getElem? here, member⟩
  · left
    rw [List.getElem?_concat_length, represents.length_eq, List.getElem?_concat_length]
    exact .some (.some holds)
  · left
    have length := represents.length_eq
    rw [List.getElem?_eq_none (by simp; omega), List.getElem?_eq_none (by simp; omega)]
    exact .none

variable {second : Nat}

theorem perm_set_both {objects : List (Option (SoulVector T))} (differs : index ≠ second)
    (bound : index < objects.length) (boundSecond : second < objects.length) (object source : Option (SoulVector T)) :
    (((objects.set index object).set second source).flatMap owned).Perm
      (owned object ++ owned source ++ ((objects.set index none).set second none).flatMap owned) := by
  have inner := perm_set (objects.set second none) (by simpa using bound) object
  have outer := perm_set (objects.set index object) (by simpa using boundSecond) source
  rw [List.set_comm _ _ (Ne.symm differs), List.set_comm _ _ (Ne.symm differs)] at inner
  rw [List.append_assoc]
  exact (outer.trans (inner.append_left _)).trans (List.perm_append_comm_assoc _ _ _)

theorem perm_objects (differs : index ≠ second) (found : vectors.object index = some this)
    (foundSecond : vectors.object second = some other) :
    (vectors.objects.flatMap owned).Perm
      (this.buffers ++ other.buffers ++ ((vectors.objects.set index none).set second none).flatMap owned) := by
  rw [object_eq_some] at found foundSecond
  have split := perm_set_both differs (List.getElem?_eq_some_iff.mp found).1
    (List.getElem?_eq_some_iff.mp foundSecond).1 (some this) (some other)
  rwa [set_self found, set_self foundSecond] at split

theorem Represents.updateBoth (represents : Represents platform vectors lists) (differs : index ≠ second)
    (found : vectors.object index = some this) (foundSecond : vectors.object second = some other)
    (known : lists.list index = some list) (knownSecond : lists.list second = some listOther)
    {changed changedSecond : List T} (holds : Holds platform heap this' changed)
    (holdsSecond : Holds platform heap other' changedSecond)
    (runs : Runs platform.sizeof vectorTag vectors.heap (this.buffers ++ other.buffers) heap
      (this'.buffers ++ other'.buffers)) :
    Represents platform { objects := (vectors.objects.set index (some this')).set second (some other'), heap }
      ((lists.set index (some changed)).set second (some changedSecond)) := by
  have bound := (List.getElem?_eq_some_iff.mp (object_eq_some.mp found)).1
  have boundSecond := (List.getElem?_eq_some_iff.mp (object_eq_some.mp foundSecond)).1
  have boundList := (List.getElem?_eq_some_iff.mp (list_eq_some.mp known)).1
  have boundListSecond := (List.getElem?_eq_some_iff.mp (list_eq_some.mp knownSecond)).1
  refine represents.change (perm_objects differs found foundSecond)
    (perm_set_both differs bound boundSecond (some this') (some other')).symm runs ?_
  intro position
  by_cases atSecond : second = position
  · subst atSecond
    left
    rw [List.getElem?_set_self (by simpa using boundSecond), List.getElem?_set_self (by simpa using boundListSecond)]
    exact .some (.some holdsSecond)
  · rw [List.getElem?_set_ne atSecond, List.getElem?_set_ne atSecond]
    by_cases atFirst : index = position
    · subst atFirst
      left
      rw [List.getElem?_set_self bound, List.getElem?_set_self boundList]
      exact .some (.some holds)
    · right
      rw [List.getElem?_set_ne atFirst, List.getElem?_set_ne atFirst]
      refine ⟨rfl, rfl, ?_⟩
      intro object here
      exact owned_of_ne (by rw [List.getElem?_set_ne atFirst, here]) (Ne.symm atSecond)

theorem Represents.move (represents : Represents platform vectors lists) (found : vectors.object index = some other)
    (known : lists.list index = some list) {manager : Nat} (holds : Holds platform heap this' list)
    (runs : Runs platform.sizeof vectorTag vectors.heap other.buffers heap this'.buffers) :
    Represents platform
      { objects := vectors.objects.set index (some (SoulVector.make platform manager)) ++ [some this'], heap }
      (lists.set index (some []) ++ [some list]) := by
  have bound := (List.getElem?_eq_some_iff.mp (object_eq_some.mp found)).1
  have boundList := (List.getElem?_eq_some_iff.mp (list_eq_some.mp known)).1
  have after : (this'.buffers ++ (vectors.objects.set index none).flatMap owned).Perm
      ((vectors.objects.set index (some (SoulVector.make platform manager)) ++ [some this']).flatMap owned) := by
    rw [List.flatMap_append, List.flatMap_singleton]
    exact (List.perm_append_comm).trans ((perm_set _ bound (some (SoulVector.make platform manager))).symm.append_right _)
  refine represents.change (perm_object found) after runs ?_
  intro position
  have length := represents.length_eq
  rcases Nat.lt_trichotomy position vectors.objects.length with less | rfl | greater
  · rw [List.getElem?_append_left (by simpa using less), List.getElem?_append_left (by simp; omega)]
    by_cases same : index = position
    · subst same
      left
      rw [List.getElem?_set_self bound, List.getElem?_set_self boundList]
      exact .some (.some (Holds.make platform heap manager))
    · right
      rw [List.getElem?_set_ne same, List.getElem?_set_ne same]
      exact ⟨rfl, rfl, fun object here => owned_of_ne here (Ne.symm same)⟩
  · left
    have last : (vectors.objects.set index (some (SoulVector.make platform manager)) ++ [some this'])[vectors.objects.length]? =
        some (some this') := by simp
    have lastList : (lists.set index (some []) ++ [some list])[vectors.objects.length]? = some (some list) := by
      simp [length]
    rw [last, lastList]
    exact .some (.some holds)
  · left
    rw [List.getElem?_eq_none (by simp; omega), List.getElem?_eq_none (by simp; omega)]
    exact .none

variable {vectors' : Vectors T}

theorem toOption_eq_some {ε α : Type} {result : Except ε α} {value : α} :
    result.toOption = some value ↔ result = .ok value := by
  cases result <;> simp [Except.toOption]

theorem Represents.of_update (represents : Represents platform vectors lists)
    {method : SoulVector T → Heap T → Except BadAlloc (SoulVector.Result T)} {change : List T → List T}
    (taken : vectors.update index method = some vectors')
    (spec : ∀ this list this' heap, vectors.object index = some this → Holds platform vectors.heap this list →
      method this vectors.heap = .ok (this', heap) → Method platform vectors.heap this heap this' (change list)) :
    Represents platform vectors' (lists.update index change) := by
  obtain ⟨this, found, rest⟩ := Option.bind_eq_some_iff.mp taken
  obtain ⟨⟨this', heap⟩, returned, rfl⟩ := Option.map_eq_some_iff.mp rest
  obtain ⟨list, known, holds⟩ := represents.list_of_object found
  rw [Lists.update, known]
  exact represents.update found known (spec this list this' heap found holds (toOption_eq_some.mp returned))

theorem Represents.of_add (represents : Represents platform vectors lists)
    {result : Except BadAlloc (SoulVector.Result T)} {manager : Nat} (taken : vectors.add result = some vectors')
    (spec : ∀ this heap, result = .ok (this, heap) →
      Method platform vectors.heap (SoulVector.make platform manager) heap this list) :
    Represents platform vectors' (lists ++ [some list]) := by
  obtain ⟨⟨this, heap⟩, returned, rfl⟩ := Option.map_eq_some_iff.mp taken
  have method := spec this heap (toOption_eq_some.mp returned)
  exact represents.add method.runs method.holds

theorem Represents.accounts_both (represents : Represents platform vectors lists) (differs : index ≠ second)
    (found : vectors.object index = some this) (foundSecond : vectors.object second = some other) :
    Accounts platform.sizeof vectorTag vectors.heap
      (this.buffers ++ (other.buffers ++ ((vectors.objects.set index none).set second none).flatMap owned)) := by
  rw [← List.append_assoc]
  exact represents.accounts.perm (perm_objects differs found foundSecond)

theorem Represents.of_copyAssign (represents : Represents platform vectors lists)
    (taken : vectors.copyAssign platform index second = some vectors') :
    Represents platform vectors' (lists.set index (lists.list second)) := by
  obtain ⟨other, foundOther, rest⟩ := Option.bind_eq_some_iff.mp taken
  obtain ⟨listOther, knownOther, holdsOther⟩ := represents.list_of_object foundOther
  rw [knownOther]
  split at rest
  · next same =>
      subst same
      cases rest
      rw [set_self (list_eq_some.mp knownOther)]
      exact represents
  · next differs =>
      obtain ⟨this, found, rest⟩ := Option.bind_eq_some_iff.mp rest
      obtain ⟨⟨this', heap⟩, returned, rfl⟩ := Option.map_eq_some_iff.mp rest
      obtain ⟨list, known, holds⟩ := represents.list_of_object found
      exact represents.update found known (SoulVector.copyAssign_spec holds holdsOther
        (represents.accounts_both differs found foundOther) (toOption_eq_some.mp returned))

theorem Represents.of_move (represents : Represents platform vectors lists)
    (taken : vectors.move platform index = some vectors') :
    Represents platform vectors' (lists.set index (some []) ++ [lists.list index]) := by
  obtain ⟨other, found, rest⟩ := Option.bind_eq_some_iff.mp taken
  obtain ⟨⟨this, other', heap⟩, returned, rfl⟩ := Option.map_eq_some_iff.mp rest
  obtain ⟨list, known, holds⟩ := represents.list_of_object found
  obtain ⟨adopted, rfl, runs⟩ := SoulVector.adoptFrom_spec holds (toOption_eq_some.mp returned)
  rw [known]
  exact represents.move found known adopted runs

theorem Represents.of_moveAssign (represents : Represents platform vectors lists)
    (taken : vectors.updateBoth index second (SoulVector.moveAssign platform) = some vectors') :
    Represents platform vectors'
      (if index = second then lists else (lists.set index (lists.list second)).set second (some [])) := by
  obtain ⟨this, found, rest⟩ := Option.bind_eq_some_iff.mp taken
  obtain ⟨other, foundOther, rest⟩ := Option.bind_eq_some_iff.mp rest
  split at rest
  · next same =>
      cases rest
      rw [if_pos same]
      exact represents
  · next differs =>
      rw [if_neg differs]
      obtain ⟨⟨this', other', heap⟩, returned, rfl⟩ := Option.map_eq_some_iff.mp rest
      obtain ⟨list, known, holds⟩ := represents.list_of_object found
      obtain ⟨listOther, knownOther, holdsOther⟩ := represents.list_of_object foundOther
      obtain ⟨adopted, rfl, runs⟩ := SoulVector.moveAssign_spec holds holdsOther
        (represents.accounts_both differs found foundOther) (toOption_eq_some.mp returned)
      rw [knownOther]
      refine represents.updateBoth differs found foundOther known knownOther adopted (Holds.make platform heap _) ?_
      rw [SoulVector.buffers_make, List.append_nil]
      exact runs

theorem Represents.of_swap (represents : Represents platform vectors lists)
    (taken : vectors.updateBoth index second (SoulVector.swap platform) = some vectors') :
    Represents platform vectors' ((lists.set index (lists.list second)).set second (lists.list index)) := by
  obtain ⟨this, found, rest⟩ := Option.bind_eq_some_iff.mp taken
  obtain ⟨other, foundOther, done⟩ := Option.bind_eq_some_iff.mp rest
  clear rest
  obtain ⟨list, known, holds⟩ := represents.list_of_object found
  obtain ⟨listOther, knownOther, holdsOther⟩ := represents.list_of_object foundOther
  rw [knownOther, known]
  split at done
  · next same =>
      subst same
      cases done
      rw [known] at knownOther
      cases knownOther
      rw [set_self (list_eq_some.mp known), set_self (list_eq_some.mp known)]
      exact represents
  · next differs =>
      obtain ⟨⟨this', other', heap⟩, returned, rfl⟩ := Option.map_eq_some_iff.mp done
      obtain ⟨inThis, inOther, runs⟩ := SoulVector.swap_spec holds holdsOther
        (represents.accounts_both differs found foundOther) (toOption_eq_some.mp returned)
      exact represents.updateBoth differs found foundOther known knownOther inThis inOther runs

theorem Represents.of_destroy (represents : Represents platform vectors lists)
    (taken : vectors.destroy platform index = some vectors') : Represents platform vectors' (lists.set index none) := by
  obtain ⟨this, found, rfl⟩ := Option.map_eq_some_iff.mp taken
  obtain ⟨list, known, holds⟩ := represents.list_of_object found
  exact represents.replace found known .none (SoulVector.releaseStorage_spec holds rfl).2

theorem Represents.of_copy (represents : Represents platform vectors lists)
    (taken : ((vectors.object index).bind fun source =>
      vectors.add (SoulVector.copyFrom platform source vectors.heap)) = some vectors') :
    Represents platform vectors' (lists ++ [lists.list index]) := by
  obtain ⟨other, found, rest⟩ := Option.bind_eq_some_iff.mp taken
  obtain ⟨list, known, holds⟩ := represents.list_of_object found
  rw [known]
  exact represents.of_add rest fun this heap returned =>
    SoulVector.copyFrom_spec holds (represents.accounts.perm (perm_object found)) returned

/-- A method that only moves elements to other storage. -/
theorem Represents.of_storage (represents : Represents platform vectors lists)
    {method : SoulVector T → Heap T → Except BadAlloc (SoulVector.Result T)}
    (taken : vectors.update index method = some vectors')
    (spec : ∀ this list this' heap, Holds platform vectors.heap this list →
      method this vectors.heap = .ok (this', heap) → Method platform vectors.heap this heap this' list) :
    Represents platform vectors' lists := by
  obtain ⟨this, found, -⟩ := Option.bind_eq_some_iff.mp taken
  obtain ⟨list, known, -⟩ := represents.list_of_object found
  have changed : Represents platform vectors' (lists.update index id) :=
    represents.of_update taken fun this list this' heap _ holds returned => spec this list this' heap holds returned
  rwa [Lists.update, known, Option.map_some, id, set_self (list_eq_some.mp known)] at changed

theorem sort_eq {comp : T → T → Bool} (total : IsStrictTotalOrder T fun a b => comp a b = true) (list : List T) :
    platform.sort comp list = stableSort comp list :=
  eq_stableSort_of_pairwise total (platform.sort_perm comp list)
    (platform.sort_sorted comp list isStrictWeakOrder_of_isOrderConnected)

theorem Represents.of_update_exists (represents : Represents platform vectors lists)
    {method : SoulVector T → Heap T → Except BadAlloc (SoulVector.Result T)}
    (taken : vectors.update index method = some vectors')
    (spec : ∀ this list this' heap, Holds platform vectors.heap this list →
      method this vectors.heap = .ok (this', heap) → ∃ list', Method platform vectors.heap this heap this' list') :
    ∃ lists', Represents platform vectors' lists' := by
  obtain ⟨this, found, rest⟩ := Option.bind_eq_some_iff.mp taken
  obtain ⟨⟨this', heap⟩, returned, rfl⟩ := Option.map_eq_some_iff.mp rest
  obtain ⟨list, known, holds⟩ := represents.list_of_object found
  obtain ⟨list', method⟩ := spec this list this' heap holds (toOption_eq_some.mp returned)
  exact ⟨_, represents.update found known method⟩

variable [BEq T] {action : VectorAction T}

theorem Represents.step (represents : Represents platform vectors lists) (admits : vectors.Admits platform action)
    (outside : action.RemovesOutside) (unaliased : vectors.Unaliased action)
    (taken : vectors.step platform action = some vectors') : Represents platform vectors' (lists.step action) := by
  unfold Vectors.step at taken
  cases action with
  | construct manager =>
      cases taken
      exact represents.add .refl (Holds.make platform vectors.heap manager)
  | ofList manager init => exact represents.of_add taken fun _ _ => SoulVector.ofList_spec admits
  | ofRange manager sized range => exact represents.of_add taken fun _ _ => SoulVector.ofRange_spec admits
  -- what involves two vectors or makes one has its own lemma
  | copy other => exact represents.of_copy taken
  | move other => exact represents.of_move taken
  | copyAssign this other => exact represents.of_copyAssign taken
  | moveAssign this other => exact represents.of_moveAssign taken
  | swap this other => exact represents.of_swap taken
  | insert this value => exact represents.of_update taken fun _ _ _ _ _ => SoulVector.emplaceValue_spec
  | insertElement this index garbage =>
      refine represents.of_update taken ?_
      intro vector list vector' heap found holds returned
      -- the storage does not grow under the reference, so it still reads the element of the list
      have bound : index < list.length := holds.size_eq ▸ admits vector found
      rw [List.getElem?_eq_getElem bound]
      exact (SoulVector.emplaceElement_spec holds (unaliased vector found) (List.getElem?_eq_getElem bound) returned).1
  | remove this value =>
      refine represents.of_update taken ?_
      intro vector list vector' heap found holds returned
      exact SoulVector.remove_spec holds (Except.ok.inj returned)
  -- the argument would be a reference into the vector
  | removeElement => cases outside
  | erase this pos =>
      refine represents.of_update taken ?_
      intro vector list vector' heap found holds returned
      exact SoulVector.erase_spec holds (Except.ok.inj returned)
  | appendRange this sized range =>
      refine represents.of_update taken ?_
      intro vector list vector' heap found holds returned
      refine SoulVector.appendRange_spec holds ?_ returned
      intro known
      rw [← holds.size_eq]
      exact admits known vector found
  | appendSelf this garbage => exact represents.of_update taken fun _ _ _ _ _ => SoulVector.appendSelf_spec
  | reserve this newCapacity =>
      exact represents.of_storage taken fun _ _ _ _ holds returned => (SoulVector.reserve_spec holds admits returned).1
  | shrinkToFit this => exact represents.of_storage taken fun _ _ _ _ => SoulVector.shrinkToFit_spec
  | clear this =>
      refine represents.of_update taken ?_
      intro vector list vector' heap found holds returned
      exact SoulVector.clear_spec holds (Except.ok.inj returned)
  | sort this comp =>
      refine represents.of_update taken ?_
      intro vector list vector' heap found holds returned
      have sorted := SoulVector.sort_spec holds (Except.ok.inj returned)
      rwa [sort_eq admits] at sorted
  | destroy this => exact represents.of_destroy taken

/-- Also where a vector is given its own elements, some lists are held after a step. -/
theorem Represents.step_exists (represents : Represents platform vectors lists)
    (admits : vectors.Admits platform action) (taken : vectors.step platform action = some vectors') :
    ∃ lists', Represents platform vectors' lists' := by
  by_cases foreign : action.RemovesOutside ∧ vectors.Unaliased action
  · exact ⟨_, represents.step admits foreign.1 foreign.2 taken⟩
  · unfold Vectors.step at taken
    cases action with
    | insertElement this index garbage =>
        refine represents.of_update_exists taken ?_
        intro vector list vector' heap holds returned
        obtain ⟨value, method⟩ := SoulVector.emplaceElement_exists holds returned
        exact ⟨_, method⟩
    | removeElement this index =>
        refine represents.of_update_exists taken ?_
        intro vector list vector' heap holds returned
        obtain ⟨kept, method, -⟩ := SoulVector.removeBy_spec holds (Except.ok.inj returned)
        exact ⟨kept, method⟩
    | _ => exact absurd ⟨trivial, trivial⟩ foreign

end SoulLib.Containers.Vectors
