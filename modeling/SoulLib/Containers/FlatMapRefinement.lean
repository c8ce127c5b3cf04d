import Mathlib.Data.Finmap
import SoulLib.Containers.SoulFlatMap

/-! The flat map refines a finite map.

The keys of the finite map are classes of keys that the comparator does not tell
apart. Every operation keeps the vector in order and does to the finite map that
its entries stand for what its name says.
-/

set_option autoImplicit false

namespace SoulLib.Containers.SoulFlatMap

variable {K V : Type} (compare : K → K → Bool) [order : IsStrictWeakOrder K fun a b => compare a b = true]

/-- Keys modulo equivalence under the comparator. -/
def equivalence : Setoid K where
  r a b := keysEqual compare a b = true
  iseqv :=
    { refl := fun a => keysEqual_iff.mpr ⟨less_irreflexive a, less_irreflexive a⟩
      symm := keysEqual_symm
      trans := keysEqual_trans }

abbrev Key : Type := Quotient (equivalence compare)

instance : DecidableEq (Key compare) :=
  have : ∀ a b : K, Decidable ((equivalence compare).r a b) := fun a b =>
    inferInstanceAs (Decidable (keysEqual compare a b = true))
  Quotient.decidableEq

/-- The class of a key. -/
def keyOf (key : K) : Key compare := Quotient.mk _ key

abbrev FiniteMap (V : Type) : Type := Finmap fun _ : Key compare => V

namespace FiniteMap

variable {compare}

def insertAll (map : FiniteMap compare V) (range : List (K × V)) : FiniteMap compare V :=
  range.foldl (fun map kv => map.insert (keyOf compare kv.1) kv.2) map

/-- What each operation does to the finite map. -/
def apply [Inhabited V] (map : FiniteMap compare V) : Operation K V → FiniteMap compare V
  | .construct _ range => insertAll ∅ range
  | .insert kv => map.insert (keyOf compare kv.1) kv.2
  | .remove kv => map.erase (keyOf compare kv.1)
  | .insertRange _ range => map.insertAll range
  | .index key (some value) => map.insert (keyOf compare key) value
  | .index key none => if keyOf compare key ∈ map then map else map.insert (keyOf compare key) default
  | .reserve _ => map
  | .clear => ∅

end FiniteMap

/-- An entry with the class of its key. -/
def classed (entry : K × V) : Sigma fun _ : Key compare => V := ⟨keyOf compare entry.1, entry.2⟩

/-- The finite map that the entries of a vector stand for. -/
def toFiniteMap (data : List (K × V)) : FiniteMap compare V := (data.map (classed compare)).toFinmap

section Lookup

variable {compare} {data lower upper : List (K × V)} {here : Option (K × V)} {key : K}

theorem keyOf_eq_iff {a b : K} : keyOf compare a = keyOf compare b ↔ keysEqual compare a b = true := by
  rw [keyOf, keyOf, Quotient.eq]
  rfl

theorem lookup_toFiniteMap (data : List (K × V)) (key : Key compare) :
    (toFiniteMap compare data).lookup key = (data.map (classed compare)).dlookup key :=
  Finmap.dlookup_list_toFinmap key _

theorem mem_toFiniteMap {key : Key compare} :
    key ∈ toFiniteMap compare data ↔ ∃ entry ∈ data, keyOf compare entry.1 = key := by
  rw [toFiniteMap, Finmap.mem_list_toFinmap]
  constructor
  · rintro ⟨value, member⟩
    obtain ⟨entry, within, same⟩ := List.mem_map.mp member
    cases same
    exact ⟨entry, within, rfl⟩
  · rintro ⟨entry, within, rfl⟩
    exact ⟨entry.2, List.mem_map.mpr ⟨entry, within, rfl⟩⟩

theorem Split.not_mem (split : Split compare data key lower here upper) :
    keyOf compare key ∉ toFiniteMap compare lower ∧ keyOf compare key ∉ toFiniteMap compare upper := by
  rw [mem_toFiniteMap, mem_toFiniteMap]
  constructor
  · rintro ⟨entry, member, same⟩
    have below := split.low entry member
    rw [(keysEqual_iff.mp (keyOf_eq_iff.mp same)).1] at below
    cases below
  · rintro ⟨entry, member, same⟩
    have above := split.high entry member
    rw [(keysEqual_iff.mp (keyOf_eq_iff.mp same)).2] at above
    cases above

theorem lookup_append (key : Key compare) :
    (toFiniteMap compare (lower ++ upper)).lookup key =
      ((toFiniteMap compare lower).lookup key).or ((toFiniteMap compare upper).lookup key) := by
  simp only [lookup_toFiniteMap, List.map_append, List.dlookup_append]

theorem lookup_cons (entry : K × V) (key : Key compare) :
    (toFiniteMap compare (entry :: upper)).lookup key =
      if keyOf compare entry.1 = key then some entry.2 else (toFiniteMap compare upper).lookup key := by
  simp only [lookup_toFiniteMap, List.map_cons]
  split
  · next same =>
      subst same
      exact List.dlookup_cons_eq _ _ _
  · next other => exact List.dlookup_cons_ne _ _ (Ne.symm other)

theorem Split.toFiniteMap_insert (split : Split compare data key lower here upper) {entry : K × V}
    (same : keysEqual compare entry.1 key = true) :
    toFiniteMap compare (lower ++ entry :: upper) =
      (toFiniteMap compare (lower ++ upper)).insert (keyOf compare key) entry.2 := by
  apply Finmap.ext_lookup
  intro other
  rw [lookup_append, lookup_cons, keyOf_eq_iff.mpr same]
  split
  · next itself =>
      subst itself
      rw [Finmap.lookup_insert, Finmap.lookup_eq_none.mpr split.not_mem.1, Option.none_or]
  · next differs => rw [Finmap.lookup_insert_of_ne _ (Ne.symm differs), lookup_append]

theorem Split.lookup_removed (split : Split compare data key lower here upper) :
    (toFiniteMap compare (lower ++ upper)).lookup (keyOf compare key) = none := by
  rw [lookup_append, Finmap.lookup_eq_none.mpr split.not_mem.1, Finmap.lookup_eq_none.mpr split.not_mem.2]
  rfl

theorem Split.toFiniteMap_erase (split : Split compare data key lower here upper) :
    toFiniteMap compare (lower ++ upper) = (toFiniteMap compare data).erase (keyOf compare key) := by
  apply Finmap.ext_lookup
  intro other
  by_cases same : other = keyOf compare key
  · rw [same, Finmap.lookup_erase, split.lookup_removed]
  · rw [Finmap.lookup_erase_ne same]
    cases here with
    | none => rw [split.whole, Option.toList_none, List.append_nil]
    | some entry =>
        have whole : data = lower ++ entry :: upper := by simpa using split.whole
        rw [whole, split.toFiniteMap_insert (split.equal entry rfl), Finmap.lookup_insert_of_ne _ same]

theorem Split.toFiniteMap_set (split : Split compare data key lower here upper) {entry : K × V}
    (same : keysEqual compare entry.1 key = true) :
    toFiniteMap compare (lower ++ entry :: upper) = (toFiniteMap compare data).insert (keyOf compare key) entry.2 := by
  rw [split.toFiniteMap_insert same, split.toFiniteMap_erase]
  apply Finmap.ext_lookup
  intro other
  by_cases itself : other = keyOf compare key
  · rw [itself, Finmap.lookup_insert, Finmap.lookup_insert]
  · rw [Finmap.lookup_insert_of_ne _ itself, Finmap.lookup_insert_of_ne _ itself, Finmap.lookup_erase_ne itself]

theorem Split.lookup_toFiniteMap (split : Split compare data key lower here upper) :
    (toFiniteMap compare data).lookup (keyOf compare key) = here.map Prod.snd := by
  cases here with
  | none =>
      have whole : data = lower ++ upper := by simpa using split.whole
      rw [whole, split.lookup_removed]
      rfl
  | some entry =>
      have whole : data = lower ++ entry :: upper := by simpa using split.whole
      rw [whole, split.toFiniteMap_insert (split.equal entry rfl), Finmap.lookup_insert]
      rfl

end Lookup

/-- The vector is in order and stands for the finite map. -/
structure Represents (map : SoulFlatMap K V) (abstract : FiniteMap compare V) : Prop where
  sorted : Sorted compare map.data
  same : toFiniteMap compare map.data = abstract

section Refinement

variable {compare} {map : SoulFlatMap K V} {abstract : FiniteMap compare V}

theorem Represents.empty : Represents compare ({} : SoulFlatMap K V) ∅ := ⟨.nil, rfl⟩

theorem Represents.insert (represents : Represents compare map abstract) (kv : K × V) :
    Represents compare (insert compare map kv) (abstract.insert (keyOf compare kv.1) kv.2) := by
  obtain ⟨lower, here, upper, split⟩ := exists_split represents.sorted kv.1
  have same : keysEqual compare ((here.map Prod.fst).getD kv.1) kv.1 = true := by
    cases here with
    | none => exact keyOf_eq_iff.mp rfl
    | some entry => exact split.equal entry rfl
  have inserted : SoulFlatMap.insert compare map kv = ⟨lower ++ ((here.map Prod.fst).getD kv.1, kv.2) :: upper⟩ :=
    split.insert kv.2
  rw [inserted]
  refine ⟨(split.sorted represents.sorted _ same).2, ?_⟩
  rw [split.toFiniteMap_set same, represents.same]

theorem Represents.remove (represents : Represents compare map abstract) (kv : K × V) :
    Represents compare (remove compare map kv) (abstract.erase (keyOf compare kv.1)) := by
  obtain ⟨lower, here, upper, split⟩ := exists_split represents.sorted kv.1
  have removed : SoulFlatMap.remove compare map kv = ⟨lower ++ upper⟩ := split.remove kv.2
  rw [removed]
  refine ⟨(split.sorted represents.sorted kv (keyOf_eq_iff.mp rfl)).1, ?_⟩
  rw [split.toFiniteMap_erase, represents.same]

theorem Represents.insertRange (represents : Represents compare map abstract) (sized : Bool) (range : List (K × V)) :
    Represents compare (insertRange compare map sized range) (abstract.insertAll range) := by
  have reserved : (if sized && 0 < range.length then map.reserve (map.data.length + range.length) else map) = map := by
    split <;> rfl
  rw [SoulFlatMap.insertRange, reserved]
  clear reserved
  induction range generalizing map abstract with
  | nil => exact represents
  | cons first rest ih => exact ih (represents.insert first)

theorem Represents.indexAssign [Inhabited V] (represents : Represents compare map abstract) (key : K)
    (assigned : Option V) :
    Represents compare (indexAssign compare map key assigned) (abstract.apply (.index key assigned)) := by
  obtain ⟨lower, here, upper, split⟩ := exists_split represents.sorted key
  have same : keysEqual compare ((here.map Prod.fst).getD key) key = true := by
    cases here with
    | none => exact keyOf_eq_iff.mp rfl
    | some entry => exact split.equal entry rfl
  have indexed : SoulFlatMap.indexAssign compare map key assigned =
      ⟨lower ++ ((here.map Prod.fst).getD key, assigned.getD ((here.map Prod.snd).getD default)) :: upper⟩ :=
    split.indexAssign assigned
  have found := split.lookup_toFiniteMap
  rw [indexed]
  refine ⟨(split.sorted represents.sorted _ same).2, ?_⟩
  rw [split.toFiniteMap_set same, represents.same]
  rw [represents.same] at found
  cases assigned with
  | some value => rfl
  | none =>
      cases here with
      | none =>
          rw [FiniteMap.apply, if_neg (Finmap.lookup_eq_none.mp found)]
          rfl
      | some entry =>
          -- The value that is there is written back.
          rw [FiniteMap.apply, if_pos (Finmap.mem_of_lookup_eq_some found)]
          apply Finmap.ext_lookup
          intro other
          by_cases itself : other = keyOf compare key
          · rw [itself, Finmap.lookup_insert, found]
            rfl
          · rw [Finmap.lookup_insert_of_ne _ itself]

theorem Represents.apply [Inhabited V] (represents : Represents compare map abstract) (operation : Operation K V) :
    Represents compare (apply compare map operation) (abstract.apply operation) := by
  cases operation with
  | construct sized range => exact Represents.empty.insertRange sized range
  | insert kv => exact represents.insert kv
  | remove kv => exact represents.remove kv
  | insertRange sized range => exact represents.insertRange sized range
  | index key assigned => exact represents.indexAssign key assigned
  | reserve capacity => exact represents
  | clear => exact .empty

theorem represents_run [Inhabited V] (operations : List (Operation K V)) :
    Represents compare (run compare operations) (operations.foldl FiniteMap.apply ∅) := by
  have start : Represents compare ({} : SoulFlatMap K V) ∅ := .empty
  rw [run]
  generalize ({} : SoulFlatMap K V) = map at start ⊢
  generalize (∅ : FiniteMap compare V) = abstract at start ⊢
  induction operations generalizing map abstract with
  | nil => exact start
  | cons first rest ih => exact ih _ _ (start.apply first)

/-- What the container shows of itself is the finite map. -/
structure Agrees (map : SoulFlatMap K V) (abstract : FiniteMap compare V) : Prop where
  increasing : (map.getAll.map Prod.fst).Pairwise fun a b => compare a b = true
  size : map.size = abstract.keys.card
  contains : ∀ key, contains compare map key = decide (keyOf compare key ∈ abstract)
  lookup : ∀ key, lookup compare map key = abstract.lookup (keyOf compare key)
  find : ∀ key, (find compare map key).map map.value = (abstract.lookup (keyOf compare key)).map some

theorem card_keys {data : List (K × V)} (sorted : Sorted compare data) :
    (toFiniteMap compare data).keys.card = data.length := by
  have keys : (toFiniteMap compare data).keys = (data.map fun entry => keyOf compare entry.1).toFinset := by
    ext key
    rw [Finmap.mem_keys, mem_toFiniteMap, List.mem_toFinset, List.mem_map]
  have distinct : (data.map fun entry => keyOf compare entry.1).Nodup := by
    rw [List.Nodup, List.pairwise_map]
    apply sorted.imp
    intro a b below same
    rw [(keysEqual_iff.mp (keyOf_eq_iff.mp same)).1] at below
    cases below
  rw [keys, List.toFinset_card_of_nodup distinct, List.length_map]

theorem Represents.findIterator (represents : Represents compare map abstract) (key : K) :
    (findIterator compare map key).map map.value = (abstract.lookup (keyOf compare key)).map some := by
  obtain ⟨lower, here, upper, split⟩ := exists_split represents.sorted key
  have found : SoulFlatMap.findIterator compare map key = here.map fun _ => lower.length := split.findIterator
  rw [found, ← represents.same, split.lookup_toFiniteMap]
  cases here with
  | none => rfl
  | some entry => simp [value, split.getElem]

theorem Represents.agrees (represents : Represents compare map abstract) : Agrees map abstract where
  increasing := List.pairwise_map.mpr represents.sorted
  size := by rw [← represents.same, card_keys represents.sorted, size]
  contains := by
    intro key
    have found := represents.findIterator key
    rw [contains, Bool.eq_iff_iff, decide_eq_true_iff, ← Finmap.lookup_isSome]
    cases position : SoulFlatMap.findIterator compare map key <;>
      cases value : abstract.lookup (keyOf compare key) <;> simp_all
  lookup := by
    intro key
    have found := represents.findIterator key
    rw [lookup]
    cases position : SoulFlatMap.findIterator compare map key <;>
      cases value : abstract.lookup (keyOf compare key) <;> simp_all
  find := represents.findIterator

/-- Every sequence of operations leaves the container in agreement with the finite map that
the same updates give. -/
theorem run_agrees [Inhabited V] (operations : List (Operation K V)) :
    Agrees (run compare operations) (operations.foldl FiniteMap.apply (∅ : FiniteMap compare V)) :=
  (represents_run operations).agrees

end Refinement

/-- Numbers compared by their tens. -/
def tensBefore (a b : Nat) : Bool := decide (a / 10 < b / 10)

instance : IsStrictWeakOrder Nat fun a b => tensBefore a b = true where
  irrefl a := by simp [tensBefore]
  trans a b c := by
    simp only [tensBefore, decide_eq_true_eq]
    omega
  incomp_trans a b c := by
    simp only [tensBefore, decide_eq_true_eq]
    omega

/-- Keys 21 and 29 are equivalent: the entry keeps the first and has the last value. -/
theorem run_agrees_tens :
    (run tensBefore [.insert (21, 1), .insert (5, 2), .insert (29, 3)]).getAll = [(5, 2), (21, 3)] ∧
      Agrees (run tensBefore [.insert (21, 1), .insert (5, 2), .insert (29, 3)])
        (List.foldl FiniteMap.apply (∅ : FiniteMap tensBefore Nat) [.insert (21, 1), .insert (5, 2), .insert (29, 3)]) :=
  ⟨by decide +kernel, run_agrees _⟩

end SoulLib.Containers.SoulFlatMap
