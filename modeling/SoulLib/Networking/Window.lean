import Mathlib.Data.List.Induction
import Mathlib.Data.List.Nodup

/-! A sliding duplicate filter over natural sequence numbers.

The filter keeps the newest number it has seen and the numbers it accepted late,
that is after a newer one. A number that was accepted as the newest is not
remembered once it is overtaken. The filter is stated over the whole list of
arrivals, so that what it accepts can be compared with that list.
-/

set_option autoImplicit false

namespace SoulLib.Networking

structure Filter where
  newest : Option Nat := none
  late : List Nat := []
  accepted : List Nat := []

namespace Filter

variable (width : Nat)

/-- Whether an arrival is answered as a duplicate. -/
def duplicate (filter : Filter) (sequence : Nat) : Bool :=
  match filter.newest with
  | none => false
  | some newest =>
      decide (sequence ≤ newest) &&
        (decide (sequence = newest) || decide (width < newest - sequence) ||
          decide (sequence ∈ filter.late))

def receive (filter : Filter) (sequence : Nat) : Filter :=
  match filter.newest with
  | none => { filter with newest := some sequence, accepted := filter.accepted ++ [sequence] }
  | some newest =>
      if newest < sequence then
        { filter with newest := some sequence, accepted := filter.accepted ++ [sequence] }
      else if filter.duplicate width sequence then filter
      else { filter with late := sequence :: filter.late, accepted := filter.accepted ++ [sequence] }

def receiveAll (arrivals : List Nat) : Filter := arrivals.foldl (receive width) {}

theorem receiveAll_concat (arrivals : List Nat) (sequence : Nat) :
    receiveAll width (arrivals ++ [sequence]) = (receiveAll width arrivals).receive width sequence := by
  simp [receiveAll]

theorem accepted_receive (filter : Filter) (sequence : Nat) :
    (filter.receive width sequence).accepted =
      if filter.duplicate width sequence then filter.accepted else filter.accepted ++ [sequence] := by
  unfold receive duplicate
  cases filter.newest with
  | none => rfl
  | some newest =>
      by_cases newer : newest < sequence
      · have notLe : ¬ sequence ≤ newest := by omega
        simp [newer, notLe]
      · have le : sequence ≤ newest := by omega
        simp only [newer, if_false]
        split <;> simp_all

/-- An arrival that exceeded everything before it. -/
def IsHead (arrivals : List Nat) (sequence : Nat) : Prop :=
  ∃ earlier later, arrivals = earlier ++ sequence :: later ∧ ∀ other ∈ earlier, other < sequence

/-- A number that arrived as the newest, has been overtaken, and is still within
the width of the newest arrival. The filter accepts it a second time. -/
def Forgotten (arrivals : List Nat) (sequence : Nat) : Prop :=
  IsHead arrivals sequence ∧ ∃ newest ∈ arrivals, (∀ other ∈ arrivals, other ≤ newest) ∧
    sequence < newest ∧ newest - sequence ≤ width

/-- No arrival finds its own number forgotten. -/
def Unforgetting (arrivals : List Nat) : Prop :=
  ∀ earlier sequence later, arrivals = earlier ++ sequence :: later → ¬ Forgotten width earlier sequence

private theorem concat_split {arrivals earlier later : List Nat} {sequence other : Nat}
    (split : arrivals ++ [sequence] = earlier ++ other :: later) :
    (earlier = arrivals ∧ other = sequence) ∨ ∃ rest, arrivals = earlier ++ other :: rest := by
  rcases List.eq_nil_or_concat later with rfl | ⟨rest, last, rfl⟩
  · obtain ⟨same, final⟩ := List.append_inj' split rfl
    cases final
    exact .inl ⟨same.symm, rfl⟩
  · rw [List.concat_eq_append, ← List.cons_append, ← List.append_assoc] at split
    exact .inr ⟨rest, (List.append_inj' split rfl).1⟩

theorem isHead_concat {arrivals : List Nat} {sequence other : Nat} :
    IsHead (arrivals ++ [sequence]) other ↔
      IsHead arrivals other ∨ (other = sequence ∧ ∀ earlier ∈ arrivals, earlier < sequence) := by
  constructor
  · rintro ⟨earlier, later, split, below⟩
    rcases concat_split split with ⟨rfl, rfl⟩ | ⟨rest, same⟩
    · exact .inr ⟨rfl, below⟩
    · exact .inl ⟨earlier, rest, same, below⟩
  · rintro (⟨earlier, later, rfl, below⟩ | ⟨rfl, below⟩)
    · exact ⟨earlier, later ++ [sequence], by simp, below⟩
    · exact ⟨arrivals, [], rfl, below⟩

theorem unforgetting_concat {arrivals : List Nat} {sequence : Nat} :
    Unforgetting width (arrivals ++ [sequence]) ↔
      Unforgetting width arrivals ∧ ¬ Forgotten width arrivals sequence := by
  constructor
  · intro unforgetting
    refine ⟨fun earlier other later split => ?_, unforgetting arrivals sequence [] rfl⟩
    exact unforgetting earlier other (later ++ [sequence]) (by simp [split])
  · rintro ⟨unforgetting, last⟩ earlier other later split
    rcases concat_split split with ⟨rfl, rfl⟩ | ⟨rest, same⟩
    · exact last
    · exact unforgetting earlier other rest same

/-- What the filter's state says about the arrivals it has processed. -/
structure Tracks (arrivals : List Nat) (filter : Filter) : Prop where
  empty : filter.newest = none → arrivals = [] ∧ filter.late = [] ∧ filter.accepted = []
  newest_mem : ∀ newest, filter.newest = some newest → newest ∈ arrivals
  newest_ge : ∀ newest, filter.newest = some newest → ∀ other ∈ arrivals, other ≤ newest
  newest_accepted : ∀ newest, filter.newest = some newest → newest ∈ filter.accepted
  accepted_mem : ∀ other ∈ filter.accepted, other ∈ arrivals
  late_accepted : ∀ other ∈ filter.late, other ∈ filter.accepted
  late_lt : ∀ newest, filter.newest = some newest → ∀ other ∈ filter.late, other < newest
  head_accepted : ∀ other, IsHead arrivals other → other ∈ filter.accepted
  accepted_cases : ∀ other ∈ filter.accepted, other ∈ filter.late ∨ IsHead arrivals other

/-- A number that exceeds every arrival becomes the newest. -/
theorem Tracks.newer {arrivals : List Nat} {filter : Filter} (tracks : Tracks arrivals filter)
    {sequence : Nat} (newer : ∀ other ∈ arrivals, other < sequence) :
    Tracks (arrivals ++ [sequence])
      { filter with newest := some sequence, accepted := filter.accepted ++ [sequence] } where
  empty impossible := by cases impossible
  newest_mem newest same := by cases same; simp
  newest_ge newest same other member := by
    cases same
    rcases List.mem_append.mp member with old | last
    · exact Nat.le_of_lt (newer other old)
    · exact Nat.le_of_eq (List.mem_singleton.mp last)
  newest_accepted newest same := by cases same; simp
  accepted_mem other member := by
    rcases List.mem_append.mp member with old | last
    · exact List.mem_append_left _ (tracks.accepted_mem other old)
    · exact List.mem_append_right _ last
  late_accepted other member := List.mem_append_left _ (tracks.late_accepted other member)
  late_lt newest same other member := by
    cases same
    exact newer other (tracks.accepted_mem other (tracks.late_accepted other member))
  head_accepted other head := by
    rcases isHead_concat.mp head with old | ⟨rfl, -⟩
    · exact List.mem_append_left _ (tracks.head_accepted other old)
    · simp
  accepted_cases other member := by
    rcases List.mem_append.mp member with old | last
    · exact (tracks.accepted_cases other old).imp_right fun head => isHead_concat.mpr (.inl head)
    · exact .inr (isHead_concat.mpr (.inr ⟨List.mem_singleton.mp last, newer⟩))

theorem Tracks.duplicate {arrivals : List Nat} {filter : Filter} (tracks : Tracks arrivals filter)
    {newest sequence : Nat} (found : filter.newest = some newest) (le : sequence ≤ newest) :
    Tracks (arrivals ++ [sequence]) filter where
  empty impossible := by rw [found] at impossible; cases impossible
  newest_mem other same := List.mem_append_left _ (tracks.newest_mem other same)
  newest_ge other same earlier member := by
    rcases List.mem_append.mp member with old | last
    · exact tracks.newest_ge other same earlier old
    · rw [found] at same
      cases same
      rw [List.mem_singleton.mp last]
      exact le
  newest_accepted := tracks.newest_accepted
  accepted_mem other member := List.mem_append_left _ (tracks.accepted_mem other member)
  late_accepted := tracks.late_accepted
  late_lt := tracks.late_lt
  head_accepted other head := by
    rcases isHead_concat.mp head with old | ⟨rfl, above⟩
    · exact tracks.head_accepted other old
    · exact absurd (above newest (tracks.newest_mem newest found)) (by omega)
  accepted_cases other member :=
    (tracks.accepted_cases other member).imp_right fun head => isHead_concat.mpr (.inl head)

theorem Tracks.accept_late {arrivals : List Nat} {filter : Filter} (tracks : Tracks arrivals filter)
    {newest sequence : Nat} (found : filter.newest = some newest) (lt : sequence < newest) :
    Tracks (arrivals ++ [sequence])
      { filter with late := sequence :: filter.late, accepted := filter.accepted ++ [sequence] } where
  empty impossible := by rw [found] at impossible; cases impossible
  newest_mem other same := List.mem_append_left _ (tracks.newest_mem other same)
  newest_ge := (tracks.duplicate found (Nat.le_of_lt lt)).newest_ge
  newest_accepted other same := List.mem_append_left _ (tracks.newest_accepted other same)
  accepted_mem other member := by
    rcases List.mem_append.mp member with old | last
    · exact List.mem_append_left _ (tracks.accepted_mem other old)
    · exact List.mem_append_right _ last
  late_accepted other member := by
    rcases List.mem_cons.mp member with rfl | old
    · simp
    · exact List.mem_append_left _ (tracks.late_accepted other old)
  late_lt other same earlier member := by
    rcases List.mem_cons.mp member with rfl | old
    · rw [found] at same
      cases same
      exact lt
    · exact tracks.late_lt other same earlier old
  head_accepted other head :=
    List.mem_append_left _ ((tracks.duplicate found (Nat.le_of_lt lt)).head_accepted other head)
  accepted_cases other member := by
    rcases List.mem_append.mp member with old | last
    · exact ((tracks.accepted_cases other old).imp (List.mem_cons_of_mem _))
        fun head => isHead_concat.mpr (.inl head)
    · exact .inl (by simp [List.mem_singleton.mp last])

theorem tracks_receiveAll (arrivals : List Nat) : Tracks arrivals (receiveAll width arrivals) := by
  induction arrivals using List.reverseRecOn with
  | nil =>
      refine ⟨fun _ => ⟨rfl, rfl, rfl⟩, ?_, ?_, ?_, ?_, ?_, ?_, ?_, ?_⟩ <;>
        simp [receiveAll, IsHead]
  | append_singleton arrivals sequence ih =>
      rw [receiveAll_concat]
      unfold receive
      split
      · next none =>
          have nil := (ih.empty none).1
          exact ih.newer (by simp [nil])
      · next newest found =>
          split
          · next newer =>
              exact ih.newer fun other member => Nat.lt_of_le_of_lt (ih.newest_ge newest found other member) newer
          · next notNewer =>
              split
              · exact ih.duplicate found (Nat.le_of_not_lt notNewer)
              · next fresh =>
                  have ne : sequence ≠ newest := by
                    rintro rfl
                    simp [Filter.duplicate, found] at fresh
                  exact ih.accept_late found (by omega)

theorem Tracks.duplicate_cases {arrivals : List Nat} {filter : Filter} (tracks : Tracks arrivals filter)
    {sequence : Nat} (repeated : filter.duplicate width sequence = true) :
    sequence ∈ filter.accepted ∨ ∃ newest ∈ filter.accepted, sequence + width < newest := by
  cases found : filter.newest with
  | none => simp [Filter.duplicate, found] at repeated
  | some newest =>
      simp only [Filter.duplicate, found, Bool.and_eq_true, Bool.or_eq_true, decide_eq_true_eq] at repeated
      have accepted := tracks.newest_accepted newest found
      rcases repeated with ⟨_, (same | far) | late⟩
      · exact .inl (same ▸ accepted)
      · exact .inr ⟨newest, accepted, by omega⟩
      · exact .inl (tracks.late_accepted sequence late)

/-- While nothing forgotten comes back, a late number was never the newest. -/
theorem late_not_head {arrivals : List Nat} (unforgetting : Unforgetting width arrivals) :
    ∀ other ∈ (receiveAll width arrivals).late, ¬ IsHead arrivals other := by
  induction arrivals using List.reverseRecOn with
  | nil => simp [receiveAll]
  | append_singleton arrivals sequence ih =>
      obtain ⟨before, last⟩ := (unforgetting_concat width).mp unforgetting
      have tracks := tracks_receiveAll width arrivals
      have old : ∀ other ∈ (receiveAll width arrivals).late, ¬ IsHead (arrivals ++ [sequence]) other := by
        intro other member head
        rcases isHead_concat.mp head with head | ⟨rfl, above⟩
        · exact ih before other member head
        · have arrived := tracks.accepted_mem other (tracks.late_accepted other member)
          exact Nat.lt_irrefl _ (above other arrived)
      rw [receiveAll_concat]
      unfold receive
      split
      · exact old
      · next newest found =>
          split
          · exact old
          · next notNewer =>
              split
              · exact old
              · next fresh =>
                  simp only [Filter.duplicate, found, Bool.and_eq_true, Bool.or_eq_true,
                    decide_eq_true_eq, not_and, not_or] at fresh
                  obtain ⟨⟨ne, near⟩, -⟩ := fresh (Nat.le_of_not_lt notNewer)
                  intro other member head
                  rcases List.mem_cons.mp member with rfl | member
                  · rcases isHead_concat.mp head with head | ⟨-, above⟩
                    · exact last ⟨head, newest, tracks.newest_mem newest found,
                        tracks.newest_ge newest found, by omega, by omega⟩
                    · exact absurd (above newest (tracks.newest_mem newest found)) notNewer
                  · exact old other member head

theorem accepted_nodup_iff (arrivals : List Nat) :
    (receiveAll width arrivals).accepted.Nodup ↔ Unforgetting width arrivals := by
  -- By induction on the last arrival; a repeat needs a former head that has left the memory.
  induction arrivals using List.reverseRecOn with
  | nil => simp [receiveAll, Unforgetting]
  | append_singleton arrivals sequence ih =>
      have tracks := tracks_receiveAll width arrivals
      rw [unforgetting_concat, receiveAll_concat, accepted_receive, ← ih]
      constructor
      · intro nodup
        have before : (receiveAll width arrivals).accepted.Nodup := by
          split at nodup
          · exact nodup
          · exact (List.nodup_append.mp nodup).1
        refine ⟨before, ?_⟩
        rintro ⟨head, newest, member, greatest, lt, near⟩
        have found : (receiveAll width arrivals).newest = some newest := by
          cases found : (receiveAll width arrivals).newest with
          | none => simp [(tracks.empty found).1] at member
          | some other =>
              have le := tracks.newest_ge other found newest member
              have ge := greatest other (tracks.newest_mem other found)
              rw [Nat.le_antisymm ge le]
        -- A former head is never recorded as late: the shifted mask forgets the old newest number.
        have notLate : sequence ∉ (receiveAll width arrivals).late := fun late =>
          late_not_head width (ih.mp before) sequence late head
        have fresh : (receiveAll width arrivals).duplicate width sequence = false := by
          simp only [Filter.duplicate, found, notLate]
          have : sequence ≠ newest := by omega
          simp [this, near]
        rw [fresh] at nodup
        have disjoint := (List.nodup_append.mp nodup).2.2
        exact disjoint sequence (tracks.head_accepted sequence head) sequence (by simp) rfl
      · rintro ⟨before, unforgotten⟩
        split
        · exact before
        · next fresh =>
            refine List.nodup_append.mpr ⟨before, by simp, ?_⟩
            rintro other member _ last rfl
            obtain rfl := List.mem_singleton.mp last
            apply unforgotten
            cases found : (receiveAll width arrivals).newest with
            | none => simp [(tracks.empty found).2.2] at member
            | some newest =>
                have le := tracks.newest_ge newest found other (tracks.accepted_mem other member)
                simp only [Filter.duplicate, found, Bool.and_eq_true, Bool.or_eq_true,
                  decide_eq_true_eq, not_and, not_or] at fresh
                obtain ⟨⟨ne, near⟩, notLate⟩ := fresh le
                have head := (tracks.accepted_cases other member).resolve_left notLate
                exact ⟨head, newest, tracks.newest_mem newest found,
                  tracks.newest_ge newest found, by omega, by omega⟩

/-- Every accepted number that is within the width of the newest can still be recognised. -/
def Remembers (filter : Filter) : Prop :=
  ∀ newest, filter.newest = some newest → ∀ sequence ∈ filter.accepted, newest - sequence ≤ width →
    sequence = newest ∨ sequence ∈ filter.late

/-- Every arrival that exceeds all earlier ones does so by more than the width. -/
def Spaced (arrivals : List Nat) : Prop :=
  ∀ earlier sequence later, arrivals = earlier ++ sequence :: later →
    ∀ newest ∈ earlier, (∀ other ∈ earlier, other ≤ newest) → newest < sequence → newest + width < sequence

theorem spaced_concat {arrivals : List Nat} {sequence : Nat} :
    Spaced width (arrivals ++ [sequence]) ↔ Spaced width arrivals ∧
      ∀ newest ∈ arrivals, (∀ other ∈ arrivals, other ≤ newest) → newest < sequence → newest + width < sequence := by
  constructor
  · intro spaced
    constructor
    · intro earlier other later split
      exact spaced earlier other (later ++ [sequence]) (by simp [split])
    · exact spaced arrivals sequence [] rfl
  · rintro ⟨spaced, last⟩ earlier other later split
    rcases concat_split split with ⟨rfl, rfl⟩ | ⟨rest, same⟩
    · exact last
    · exact spaced earlier other rest same

/-- A filter that remembers everything goes on doing so unless its newest number is
overtaken within the width. -/
theorem Tracks.remembers_receive {arrivals : List Nat} {filter : Filter} (tracks : Tracks arrivals filter)
    (remembers : filter.Remembers width) (sequence : Nat) :
    (filter.receive width sequence).Remembers width ↔
      ∀ newest, filter.newest = some newest → newest < sequence → newest + width < sequence := by
  unfold receive
  split
  · next none =>
      -- before the first arrival nothing was accepted that could be forgotten
      have fresh := (tracks.empty none).2.2
      simp [Remembers, none, fresh]
  · next newest found =>
      split
      · next newer =>
          constructor
          · intro after other same _
            obtain rfl : newest = other := Option.some.inj (found.symm.trans same)
            -- the overtaken newest was accepted, but is not among the late ones: it is forgotten
            by_contra near
            have accepted := List.mem_append_left [sequence] (tracks.newest_accepted newest found)
            rcases after sequence rfl newest accepted (by omega) with equal | late
            · omega
            · exact Nat.lt_irrefl _ (tracks.late_lt newest found newest late)
          · intro spaced other same accepted member near
            obtain rfl : sequence = other := Option.some.inj same
            -- a far jump leaves all that was accepted behind the width
            have far := spaced newest found newer
            rcases List.mem_append.mp member with old | last
            · have le := tracks.newest_ge newest found accepted (tracks.accepted_mem accepted old)
              omega
            · exact .inl (List.mem_singleton.mp last)
      · next notNewer =>
          -- a number that is not newer overtakes nothing
          have vacuous : ∀ other, filter.newest = some other → other < sequence → other + width < sequence := by
            intro other same newer
            obtain rfl : newest = other := Option.some.inj (found.symm.trans same)
            exact absurd newer notNewer
          split
          · exact ⟨fun _ => vacuous, fun _ => remembers⟩
          · refine ⟨fun _ => vacuous, ?_⟩
            intro _ other same accepted member near
            rcases List.mem_append.mp member with old | last
            · exact (remembers other same accepted old near).imp_right (List.mem_cons_of_mem _)
            · rw [List.mem_singleton.mp last]
              exact .inr List.mem_cons_self

theorem remembers_iff_spaced (arrivals : List Nat) :
    (∀ earlier, earlier <+: arrivals → (receiveAll width earlier).Remembers width) ↔ Spaced width arrivals := by
  induction arrivals using List.reverseRecOn with
  | nil =>
      constructor
      · intro _ earlier sequence later split
        simp at split
      · intro _ earlier part
        rw [List.prefix_nil.mp part]
        simp [receiveAll, Remembers]
  | append_singleton arrivals sequence ih =>
      have tracks := tracks_receiveAll width arrivals
      -- The newest number of the filter is the greatest arrival.
      have greatest : (∀ newest, (receiveAll width arrivals).newest = some newest →
            newest < sequence → newest + width < sequence) ↔
          ∀ newest ∈ arrivals, (∀ other ∈ arrivals, other ≤ newest) → newest < sequence →
            newest + width < sequence := by
        constructor
        · intro spaced newest member top
          cases found : (receiveAll width arrivals).newest with
          | none =>
              rw [(tracks.empty found).1] at member
              cases member
          | some other =>
              have le := tracks.newest_ge other found newest member
              have ge := top other (tracks.newest_mem other found)
              rw [Nat.le_antisymm le ge]
              exact spaced other found
        · intro spaced newest found
          exact spaced newest (tracks.newest_mem newest found) (tracks.newest_ge newest found)
      rw [spaced_concat, ← ih, ← greatest]
      constructor
      · intro all
        have before : ∀ earlier, earlier <+: arrivals → (receiveAll width earlier).Remembers width :=
          fun earlier part => all earlier (part.trans (List.prefix_append _ _))
        have last := all (arrivals ++ [sequence]) List.prefix_rfl
        rw [receiveAll_concat] at last
        exact ⟨before, (tracks.remembers_receive width (before arrivals List.prefix_rfl) sequence).mp last⟩
      · rintro ⟨before, last⟩ earlier part
        rcases List.prefix_concat_iff.mp part with rfl | within
        · rw [receiveAll_concat]
          exact (tracks.remembers_receive width (before arrivals List.prefix_rfl) sequence).mpr last
        · exact before earlier within

end Filter

end SoulLib.Networking
