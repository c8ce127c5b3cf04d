import SoulLib.Containers.Associative
import SoulLib.Containers.FlatMapSort
import SoulLib.Semantics.Runs

/-! Maps and multimaps after any calls.

A multimap is a queue of values for each key. The three maps hold the same entries,
and the ordered and the flat one in the same order.
-/

set_option autoImplicit false

namespace SoulLib.Containers

open SoulLib.Semantics (System)

variable {K V : Type} {compare : K → K → Bool}

instance byKey_order [order : IsStrictWeakOrder K fun a b => compare a b = true] :
    IsStrictWeakOrder (K × V) fun a b => byKey compare a b = true where
  irrefl entry := order.irrefl entry.1
  trans a b c := order.trans a.1 b.1 c.1
  incomp_trans a b c := order.incomp_trans a.1 b.1 c.1

namespace SoulMultimap

inductive Call (K V : Type) where
  | insert (kv : K × V)
  | remove (kv : K × V)
  | insertRange (range : List (K × V))
  | sort (comp : K × V → K × V → Bool)

variable (compare) [BEq V]

def apply (this : SoulMultimap K V) : Call K V → SoulMultimap K V
  | .insert kv => this.insert compare kv
  | .remove kv => this.remove compare kv
  | .insertRange range => this.insertRange compare range
  | .sort comp => this.sort comp

def run (calls : List (Call K V)) : SoulMultimap K V := calls.foldl (apply compare) {}

/-- The values with the key, in the order of the container. -/
def values (key : K) (data : List (K × V)) : List V :=
  (data.filter fun entry => SoulFlatMap.keysEqual compare entry.1 key).map Prod.snd

/-- What a call does to the queue of values of one key. -/
def queued (key : K) (queue : List V) : Call K V → List V
  | .insert kv => if SoulFlatMap.keysEqual compare kv.1 key then queue ++ [kv.2] else queue
  | .remove kv => if SoulFlatMap.keysEqual compare kv.1 key then queue.eraseP (· == kv.2) else queue
  | .insertRange range => queue ++ values compare key range
  | .sort _ => queue

variable {compare} {data : List (K × V)} {kv : K × V} {key : K}

omit [BEq V]

theorem values_append (first second : List (K × V)) :
    values compare key (first ++ second) = values compare key first ++ values compare key second := by
  rw [values, List.filter_append, List.map_append]
  rfl

theorem values_of_all (all : ∀ entry ∈ data, SoulFlatMap.keysEqual compare entry.1 key = true) :
    values compare key data = data.map Prod.snd := by
  rw [values, List.filter_eq_self.mpr all]

theorem values_of_none (none : ∀ entry ∈ data, ¬SoulFlatMap.keysEqual compare entry.1 key = true) :
    values compare key data = [] := by
  rw [values, List.filter_eq_nil_iff.mpr none, List.map_nil]

variable [order : IsStrictWeakOrder K fun a b => compare a b = true]

theorem values_insertBehind (inOrder : InOrder (byKey compare) data) :
    values compare key (insertBehind (byKey compare) kv data) =
      values compare key data ++ if SoulFlatMap.keysEqual compare kv.1 key then [kv.2] else [] := by
  have filtered := @filter_insertBehind _ _ kv _ _ inOrder (key, kv.2)
  have mapped := congrArg (List.map Prod.snd) filtered
  rw [List.map_append] at mapped
  refine mapped.trans ?_
  show values compare key data ++ _ = _
  congr 1
  by_cases same : SoulFlatMap.keysEqual compare kv.1 key = true
  · rw [if_pos same]
    exact congrArg (List.map Prod.snd) (if_pos same)
  · rw [if_neg same]
    exact congrArg (List.map Prod.snd) (if_neg same)

theorem inOrder_insertRange (range : List (K × V)) (key : K) {this : SoulMultimap K V}
    (inOrder : InOrder (byKey compare) this.data) :
    InOrder (byKey compare) (this.insertRange compare range).data ∧
      values compare key (this.insertRange compare range).data =
        values compare key this.data ++ values compare key range := by
  induction range generalizing this with
  | nil => exact ⟨inOrder, (List.append_nil _).symm⟩
  | cons kv range ih =>
      obtain ⟨sorted, queue⟩ := @ih (this.insert compare kv) inOrder.insertBehind
      refine ⟨sorted, ?_⟩
      have split : values compare key (kv :: range) =
          (if SoulFlatMap.keysEqual compare kv.1 key then [kv.2] else []) ++ values compare key range := by
        rw [values, List.filter_cons]
        split <;> rfl
      rw [split, ← List.append_assoc, ← values_insertBehind inOrder]
      exact queue

theorem values_remove [BEq V] (key : K) {this : SoulMultimap K V} (inOrder : InOrder (byKey compare) this.data) :
    InOrder (byKey compare) (this.remove compare kv).data ∧
      values compare key (this.remove compare kv).data =
        if SoulFlatMap.keysEqual compare kv.1 key then (values compare key this.data).eraseP (· == kv.2)
        else values compare key this.data := by
  have whole : lowerPart (byKey compare) kv this.data ++ equalRange (byKey compare) kv this.data ++
      upperPart (byKey compare) kv this.data = this.data := parts_append kv this.data
  have equal : ∀ entry ∈ equalRange (byKey compare) kv this.data,
      SoulFlatMap.keysEqual compare entry.1 kv.1 = true := fun entry member =>
    inOrder.equivalent_of_mem_equalRange member
  have lower : ∀ entry ∈ lowerPart (byKey compare) kv this.data,
      ¬SoulFlatMap.keysEqual compare entry.1 kv.1 = true := by
    intro entry member same
    have before : byKey compare entry kv = true := less_of_mem_lowerPart member
    cases (SoulFlatMap.keysEqual_iff.mp same).1.symm.trans before
  have upper : ∀ entry ∈ upperPart (byKey compare) kv this.data,
      ¬SoulFlatMap.keysEqual compare entry.1 kv.1 = true := by
    intro entry member same
    have after : byKey compare kv entry = true := inOrder.less_of_mem_upperPart member
    cases (SoulFlatMap.keysEqual_iff.mp same).2.symm.trans after
  have left : ((this.remove compare kv).data).Sublist this.data := by
    rw [← whole]
    exact ((List.Sublist.refl _).append List.eraseP_sublist).append (.refl _)
  refine ⟨inOrder.sublist left, ?_⟩
  by_cases same : SoulFlatMap.keysEqual compare kv.1 key = true
  · -- The range is all that the key has.
    have through (entry : K × V) : SoulFlatMap.keysEqual compare entry.1 key = true ↔
        SoulFlatMap.keysEqual compare entry.1 kv.1 = true :=
      ⟨fun here => SoulFlatMap.keysEqual_trans here (SoulFlatMap.keysEqual_symm same),
        fun here => SoulFlatMap.keysEqual_trans here same⟩
    have before : values compare key this.data = (equalRange (byKey compare) kv this.data).map Prod.snd := by
      rw [← whole, values_append, values_append, values_of_none fun entry member => (through entry).not.mpr (lower entry member),
        values_of_none fun entry member => (through entry).not.mpr (upper entry member), List.nil_append, List.append_nil,
        values_of_all fun entry member => (through entry).mpr (equal entry member), whole]
    rw [if_pos same, before, List.eraseP_map, remove, values_append, values_append,
      values_of_none fun entry member => (through entry).not.mpr (lower entry member),
      values_of_none fun entry member => (through entry).not.mpr (upper entry member), List.nil_append, List.append_nil,
      values_of_all fun entry member => (through entry).mpr (equal entry (List.eraseP_subset member))]
    rfl
  · have apart : ∀ entry ∈ equalRange (byKey compare) kv this.data,
        ¬SoulFlatMap.keysEqual compare entry.1 key = true := by
      intro entry member here
      exact same (SoulFlatMap.keysEqual_trans (SoulFlatMap.keysEqual_symm (equal entry member)) here)
    have nothing := values_of_none apart
    have erased : values compare key ((equalRange (byKey compare) kv this.data).eraseP fun entry => entry.2 == kv.2) = [] :=
      values_of_none fun entry member => apart entry (List.eraseP_subset member)
    rw [if_neg same]
    conv_rhs => rw [← whole]
    rw [remove, values_append, values_append, values_append, values_append, nothing, erased]

/-- After any calls the values of a key are the queue that the calls for that key make, and the keys are in order. -/
theorem values_run [BEq V] (calls : List (Call K V)) (key : K) :
    values compare key (run compare calls).getAll = calls.foldl (queued compare key) [] ∧
      InOrder (byKey compare) (run compare calls).getAll := by
  have invariant : ∀ (calls : List (Call K V)) (this : SoulMultimap K V) (queue : List V),
      InOrder (byKey compare) this.data → values compare key this.data = queue →
      values compare key (calls.foldl (apply compare) this).data = calls.foldl (queued compare key) queue ∧
        InOrder (byKey compare) (calls.foldl (apply compare) this).data := by
    intro calls
    induction calls with
    | nil => exact fun this queue inOrder same => ⟨same, inOrder⟩
    | cons call calls ih =>
        rintro this queue inOrder rfl
        refine ih _ _ ?_ ?_
        · cases call with
          | insert kv => exact inOrder.insertBehind
          | remove kv => exact (values_remove key inOrder).1
          | insertRange range => exact (inOrder_insertRange range key inOrder).1
          | sort comp => exact inOrder
        · cases call with
          | insert kv =>
              refine (values_insertBehind inOrder).trans ?_
              rw [queued]
              split
              · rfl
              · exact List.append_nil _
          | remove kv => exact (values_remove key inOrder).2
          | insertRange range => exact (inOrder_insertRange range key inOrder).2
          | sort comp => rfl
  exact invariant calls {} [] .nil rfl

/-- 12, 17, 11 and 19 are one key. -/
theorem values_run_tens :
    SoulMultimap.values SoulFlatMap.tensBefore 10 (SoulMultimap.run SoulFlatMap.tensBefore
      [.insert (12, 1), .insert (25, 2), .insert (17, 3), .insert (11, 1), .remove (19, 1)]).getAll = [3, 1] :=
  (SoulMultimap.values_run _ 10).1

end SoulMultimap

/-- Three maps, which go through the same calls. -/
structure Maps (K V : Type) where
  ordered : SoulMap K V := {}
  flat : SoulFlatMap K V := {}
  hashed : SoulUnorderedMap K V := {}

inductive MapCall (K V : Type) where
  | insert (kv : K × V) (rehash : Rehash (K × V))
  | remove (kv : K × V)
  | insertRange (range : List (K × V)) (sized : Bool) (rehash : Rehash (K × V))
  | sort (comp : K × V → K × V → Bool) (rehash : Rehash (K × V))

namespace Maps

variable (compare) [BEq K] (platform : Platform (K × V)) (maps : Maps K V)

def step : MapCall K V → Maps K V
  | .insert kv rehash =>
      ⟨maps.ordered.insert compare kv, maps.flat.insert compare kv, maps.hashed.insert rehash kv⟩
  | .remove kv => ⟨maps.ordered.remove compare kv, maps.flat.remove compare kv, maps.hashed.remove kv⟩
  | .insertRange range sized rehash =>
      ⟨maps.ordered.insertRange compare range, maps.flat.insertRange compare sized range,
        maps.hashed.insertRange rehash range⟩
  | .sort comp rehash => ⟨maps.ordered.sort comp, maps.flat.sort comp, maps.hashed.sort rehash platform comp⟩

def system : System (Maps K V) (MapCall K V) where
  step maps call := some (maps.step compare platform call)

/-- Sorts are by strict weak orders, and leave the flat map in the order of its keys. -/
def Admits : MapCall K V → Prop
  | .sort comp _ => (IsStrictWeakOrder (K × V) fun a b => comp a b = true) ∧
      maps.flat.data.Pairwise fun a b => comp b a = false
  | _ => True

structure Agree : Prop where
  strict : StrictlyInOrder (byKey compare) maps.ordered.data
  flat : maps.flat.data = maps.ordered.data
  hashed : maps.hashed.data.Perm maps.ordered.data

variable {compare} {platform maps} {data lower upper : List (K × V)} {here : Option (K × V)} {key : K} {kv : K × V}

section Lists

omit [BEq K]

theorem not_equal_lower (split : SoulFlatMap.Split compare data kv.1 lower here upper) :
    ∀ entry ∈ lower, SoulFlatMap.keysEqual compare entry.1 kv.1 = false := by
  intro entry member
  rw [SoulFlatMap.keysEqual, split.low entry member]
  rfl

theorem not_equal_upper (split : SoulFlatMap.Split compare data kv.1 lower here upper) :
    ∀ entry ∈ upper, SoulFlatMap.keysEqual compare entry.1 kv.1 = false := by
  intro entry member
  rw [SoulFlatMap.keysEqual, split.high entry member]
  simp

theorem eraseEquivalent_split (split : SoulFlatMap.Split compare data kv.1 lower here upper) :
    eraseEquivalent (byKey compare) kv data = lower ++ upper := by
  have kept (list : List (K × V)) (apart : ∀ entry ∈ list, SoulFlatMap.keysEqual compare entry.1 kv.1 = false) :
      eraseEquivalent (byKey compare) kv list = list := by
    refine List.filter_eq_self.mpr fun entry member => ?_
    rw [Bool.not_eq_true']
    exact apart entry member
  have gone : eraseEquivalent (byKey compare) kv here.toList = [] := by
    refine List.filter_eq_nil_iff.mpr fun entry member => ?_
    have same := split.equal entry (by simpa using member)
    rw [Bool.not_eq_true']
    exact fun differs => Bool.false_ne_true (differs.symm.trans same)
  have first := kept lower (not_equal_lower split)
  have last := kept upper (not_equal_upper split)
  rw [eraseEquivalent] at first last gone ⊢
  rw [split.whole, List.filter_append, List.filter_append, first, last, gone, List.append_nil]

theorem insertRange_eq (flat : SoulFlatMap K V) (sized : Bool) (range : List (K × V)) :
    flat.insertRange compare sized range = range.foldl (SoulFlatMap.insert compare) flat := by
  unfold SoulFlatMap.insertRange SoulFlatMap.reserve
  split <;> rfl

variable [order : IsStrictWeakOrder K fun a b => compare a b = true]

theorem insertOr_append (low : ∀ entry ∈ lower, compare entry.1 kv.1 = true)
    (equal : ∀ entry ∈ here, SoulFlatMap.keysEqual compare entry.1 kv.1 = true)
    (high : ∀ entry ∈ upper, compare kv.1 entry.1 = true) :
    insertOr (byKey compare) (fun entry => (entry.1, kv.2)) kv (lower ++ here.toList ++ upper) =
      lower ++ ((here.map Prod.fst).getD kv.1, kv.2) :: upper := by
  induction lower with
  | cons first lower ih =>
      have before : byKey compare first kv = true := low first List.mem_cons_self
      have after : byKey compare kv first = false := less_asymmetric before
      show insertOr _ _ _ (first :: (lower ++ here.toList ++ upper)) = _
      rw [insertOr, if_neg (by simp [after]), if_pos before,
        ih fun entry member => low entry (List.mem_cons_of_mem _ member)]
      rfl
  | nil =>
      cases here with
      | some entry =>
          have same := SoulFlatMap.keysEqual_iff.mp (equal entry rfl)
          have notBefore : byKey compare kv entry = false := same.2
          have notAfter : byKey compare entry kv = false := same.1
          show insertOr _ _ _ (entry :: upper) = _
          rw [insertOr, if_neg (by simp [notBefore]), if_neg (by simp [notAfter])]
          rfl
      | none =>
          cases upper with
          | nil => rfl
          | cons entry upper =>
              have before : byKey compare kv entry = true := high entry List.mem_cons_self
              show insertOr _ _ _ (entry :: upper) = _
              rw [insertOr, if_pos before]
              rfl

theorem insertOr_split (split : SoulFlatMap.Split compare data kv.1 lower here upper) :
    insertOr (byKey compare) (fun entry => (entry.1, kv.2)) kv data =
      lower ++ ((here.map Prod.fst).getD kv.1, kv.2) :: upper := by
  rw [split.whole]
  exact insertOr_append split.low split.equal split.high

theorem insertOr_perm (split : SoulFlatMap.Split compare data kv.1 lower here upper) :
    (insertOr (byKey compare) (fun entry => (entry.1, kv.2)) kv data).Perm
      (if data.any (fun entry => SoulFlatMap.keysEqual compare entry.1 kv.1) then
        data.map fun entry => if SoulFlatMap.keysEqual compare entry.1 kv.1 then (entry.1, kv.2) else entry
      else kv :: data) := by
  have kept (list : List (K × V)) (apart : ∀ entry ∈ list, SoulFlatMap.keysEqual compare entry.1 kv.1 = false) :
      list.map (fun entry => if SoulFlatMap.keysEqual compare entry.1 kv.1 then (entry.1, kv.2) else entry) = list := by
    refine (List.map_congr_left fun entry member => ?_).trans (List.map_id _)
    rw [apart entry member]
    rfl
  have none (list : List (K × V)) (apart : ∀ entry ∈ list, SoulFlatMap.keysEqual compare entry.1 kv.1 = false) :
      list.any (fun entry => SoulFlatMap.keysEqual compare entry.1 kv.1) = false := by
    rw [List.any_eq_false]
    intro entry member
    rw [apart entry member]
    exact Bool.false_ne_true
  rw [insertOr_split split, split.whole, List.any_append, List.any_append, none lower (not_equal_lower split),
    none upper (not_equal_upper split), List.map_append, List.map_append, kept lower (not_equal_lower split),
    kept upper (not_equal_upper split)]
  cases found : here with
  | none =>
      rw [if_neg (by simp)]
      simp only [Option.toList_none, List.append_nil]
      exact List.perm_middle
  | some entry =>
      have same := split.equal entry (by rw [found]; rfl)
      rw [if_pos (by simp [same])]
      simp [same]

theorem insert_eq {flat : SoulFlatMap K V} (strict : StrictlyInOrder (byKey compare) flat.data) (kv : K × V) :
    (flat.insert compare kv).data = insertOr (byKey compare) (fun entry => (entry.1, kv.2)) kv flat.data := by
  obtain ⟨lower, here, upper, split⟩ := SoulFlatMap.exists_split strict kv.1
  have inserted := congrArg SoulFlatMap.data (split.insert kv.2)
  exact inserted.trans (insertOr_split split).symm

end Lists

section Calls

variable [order : IsStrictWeakOrder K fun a b => compare a b = true]
  (same : ∀ a b : K, (a == b) = SoulFlatMap.keysEqual compare a b)

include same

theorem insert_perm {hashed : SoulUnorderedMap K V} (strict : StrictlyInOrder (byKey compare) data)
    (perm : hashed.data.Perm data) (kv : K × V) (rehash : Rehash (K × V)) :
    (hashed.insert rehash kv).data.Perm (insertOr (byKey compare) (fun entry => (entry.1, kv.2)) kv data) := by
  obtain ⟨lower, here, upper, split⟩ := SoulFlatMap.exists_split strict kv.1
  refine .trans ?_ (insertOr_perm split).symm
  have any : hashed.data.any (·.1 == kv.1) =
      data.any fun entry => SoulFlatMap.keysEqual compare entry.1 kv.1 := by
    simp only [same]
    exact perm.any_eq
  rw [SoulUnorderedMap.insert, any]
  split
  · simp only [same]
    exact perm.map _
  · exact (rehash.perm _).trans (perm.cons kv)

theorem Agree.insert (agree : maps.Agree compare) (platform : Platform (K × V)) (kv : K × V) (rehash : Rehash (K × V)) :
    (maps.step compare platform (.insert kv rehash)).Agree compare where
  strict := agree.strict.insertOr fun entry => SoulFlatMap.keysEqual_iff.mpr ⟨less_irreflexive _, less_irreflexive _⟩
  flat := by
    have strict : StrictlyInOrder (byKey compare) maps.flat.data := agree.flat ▸ agree.strict
    refine (insert_eq strict kv).trans ?_
    rw [agree.flat]
    rfl
  hashed := insert_perm same agree.strict agree.hashed kv rehash

theorem Agree.insertRange (agree : maps.Agree compare) (range : List (K × V)) (sized : Bool) (rehash : Rehash (K × V)) :
    (maps.step compare platform (.insertRange range sized rehash)).Agree compare := by
  rw [step, insertRange_eq]
  induction range generalizing maps with
  | nil => exact agree
  | cons kv range ih => exact ih (agree.insert same platform kv rehash)

theorem Agree.remove (agree : maps.Agree compare) (kv : K × V) :
    (maps.step compare platform (.remove kv)).Agree compare where
  strict := agree.strict.sublist List.filter_sublist
  flat := by
    have strict : StrictlyInOrder (byKey compare) maps.flat.data := agree.flat ▸ agree.strict
    obtain ⟨lower, here, upper, split⟩ := SoulFlatMap.exists_split strict kv.1
    refine (congrArg SoulFlatMap.data (split.remove kv.2)).trans ?_
    rw [← eraseEquivalent_split split, agree.flat]
    rfl
  hashed := by
    have filtered := agree.hashed.filter fun entry => !SoulFlatMap.keysEqual compare entry.1 kv.1
    have keys : (fun entry : K × V => !(entry.1 == kv.1)) = fun entry => !SoulFlatMap.keysEqual compare entry.1 kv.1 := by
      simp only [same]
    rw [step, SoulUnorderedMap.remove, keys]
    exact filtered

omit order in
theorem insertRange_perm (range : List (K × V)) (hashed : SoulUnorderedMap K V) (rehash : Rehash (K × V))
    (apart : (range ++ hashed.data).Pairwise fun a b => SoulFlatMap.keysEqual compare a.1 b.1 = false) :
    (hashed.insertRange rehash range).data.Perm (range ++ hashed.data) := by
  induction range generalizing hashed with
  | nil => exact .refl _
  | cons kv range ih =>
      rw [List.cons_append, List.pairwise_cons] at apart
      obtain ⟨differs, rest⟩ := apart
      have absent : hashed.data.any (·.1 == kv.1) = false := by
        rw [List.any_eq_false]
        intro entry member
        have apart := differs entry (List.mem_append_right _ member)
        rw [same, SoulFlatMap.keysEqual, Bool.and_comm]
        rw [SoulFlatMap.keysEqual] at apart
        rw [apart]
        exact Bool.false_ne_true
      have added : (hashed.insert rehash kv).data.Perm (kv :: hashed.data) := by
        rw [SoulUnorderedMap.insert, absent]
        exact rehash.perm _
      have grown : (range ++ (hashed.insert rehash kv).data).Perm (kv :: (range ++ hashed.data)) :=
        (added.append_left range).trans List.perm_middle
      have symmetric : ∀ {a b : K × V}, SoulFlatMap.keysEqual compare a.1 b.1 = false →
          SoulFlatMap.keysEqual compare b.1 a.1 = false := by
        intro a b apart
        rwa [SoulFlatMap.keysEqual, Bool.and_comm]
      refine (ih _ ?_).trans grown
      exact grown.symm.pairwise (List.pairwise_cons.mpr ⟨differs, rest⟩) symmetric

omit order in
theorem Agree.sort (agree : maps.Agree compare) {comp : K × V → K × V → Bool} (rehash : Rehash (K × V))
    (admits : maps.Admits (.sort comp rehash)) : (maps.step compare platform (.sort comp rehash)).Agree compare where
  strict := agree.strict
  flat := by
    have unchanged := (SoulFlatMap.sort_eq_self_iff admits.1).mpr admits.2
    exact (congrArg SoulFlatMap.data unchanged).trans agree.flat
  hashed := by
    have sorted := (platform.sort_perm comp maps.hashed.data).trans agree.hashed
    have apart : maps.ordered.data.Pairwise fun a b => SoulFlatMap.keysEqual compare a.1 b.1 = false := by
      refine agree.strict.imp fun {a b} before => ?_
      have less : compare a.1 b.1 = true := before
      rw [SoulFlatMap.keysEqual, less]
      rfl
    have symmetric : ∀ {a b : K × V}, SoulFlatMap.keysEqual compare a.1 b.1 = false →
        SoulFlatMap.keysEqual compare b.1 a.1 = false := by
      intro a b apart
      rwa [SoulFlatMap.keysEqual, Bool.and_comm]
    have inserted := insertRange_perm same (platform.sort comp maps.hashed.data) {} rehash
      (by simpa using sorted.symm.pairwise apart symmetric)
    refine inserted.trans ?_
    rw [List.append_nil]
    exact sorted

theorem Agree.reached (reach : (system compare platform).Reaches Admits {} maps) : maps.Agree compare := by
  have initially : Agree compare ({} : Maps K V) := ⟨List.Pairwise.nil, rfl, .refl _⟩
  refine reach.invariant initially ?_
  intro maps call after _ agree admits done
  cases done
  cases call with
  | insert kv rehash => exact agree.insert same platform kv rehash
  | remove kv => exact agree.remove same kv
  | insertRange range sized rehash => exact agree.insertRange same range sized rehash
  | sort comp rehash => exact agree.sort same rehash admits

/-- After any calls the ordered and the flat map answer alike, and the hashed one has the same entries. -/
theorem maps_interchangeable (reach : (system compare platform).Reaches Admits {} maps) :
    maps.flat.toContainer = maps.ordered.toContainer ∧
      maps.hashed.toContainer.size = maps.ordered.toContainer.size ∧
      maps.hashed.toContainer.getAll.Perm maps.ordered.toContainer.getAll ∧
      ∀ pred, (maps.hashed.toContainer.findAll pred).Perm (maps.ordered.toContainer.findAll pred) ∧
        (maps.hashed.toContainer.findFirst pred).isSome = (maps.ordered.toContainer.findFirst pred).isSome := by
  have agree := Agree.reached same reach
  have rearranged : maps.hashed.toContainer.Rearranged maps.ordered.toContainer :=
    IContainer.rearranged_ofList agree.hashed
  refine ⟨?_, rearranged.size, rearranged.getAll, fun pred => ⟨rearranged.findAll pred, rearranged.findFirst pred⟩⟩
  rw [SoulFlatMap.toContainer, SoulFlatMap.getAll, agree.flat]
  rfl

end Calls

/-- A table that puts the latest element last. -/
def backwards : Rehash (Nat × Nat) := ⟨List.reverse, List.reverse_perm⟩

theorem beq_eq_keysEqual (a b : Nat) : (a == b) = SoulFlatMap.keysEqual SoulFlatMap.ascending a b := by
  rw [Bool.eq_iff_iff, SoulFlatMap.keysEqual_iff]
  simp only [SoulFlatMap.ascending, beq_iff_eq, decide_eq_false_iff_not]
  omega

theorem three_calls_interchangeable : ∃ maps : Maps Nat Nat,
    (system SoulFlatMap.ascending (.stable (Nat × Nat))).Reaches Admits {} maps ∧ maps.hashed.getAll = [(3, 7), (1, 9)] ∧
      maps.ordered.getAll = [(1, 9), (3, 7)] ∧ maps.flat.toContainer = maps.ordered.toContainer := by
  have begun : (system SoulFlatMap.ascending (.stable (Nat × Nat))).Reaches Admits {} {} := .start
  have first := begun.andThen (.insert (3, 7) backwards) rfl trivial
  have second := first.andThen (.insert (1, 5) backwards) rfl trivial
  have reach := second.andThen (.insert (1, 9) backwards) rfl trivial
  exact ⟨_, reach, by decide, by decide, (maps_interchangeable beq_eq_keysEqual reach).1⟩

end Maps

end SoulLib.Containers
