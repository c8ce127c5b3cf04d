import Mathlib.Data.List.Basic

/-! Quoted strings with an escape character.

The escape character and the character behind it are one unit, and a string ends
at the first quotation mark that is a unit by itself. What consists of complete
units, none of them such a quotation mark, is contained between two quotation
marks whatever stands behind them.
-/

set_option autoImplicit false

namespace SoulLib.Semantics.Quoted

variable {α : Type}

inductive Lexeme (α : Type) where
  | plain (char : α)
  | escaped (char : α)
  deriving DecidableEq, Repr

section Lexer

variable (escape quote : α)

/-- How a unit is written. -/
def Lexeme.spell : Lexeme α → List α
  | .plain char => [char]
  | .escaped char => [escape, char]

variable [DecidableEq α]

/-- The units from left to right; there are none if the last one is not complete. -/
def units : List α → Option (List (Lexeme α))
  | [] => some []
  | char :: rest =>
      if char = escape then
        match rest with
        | [] => none
        | next :: rest => (units rest).map (.escaped next :: ·)
      else (units rest).map (.plain char :: ·)

/-- The contents of the quoted strings, given the beginning of the one that is being
read; there are none if the last one is not closed. -/
def strings (reading : Option (List α)) : List α → Option (List (List α))
  | [] => if reading.isNone then some [] else none
  | char :: rest =>
      match reading with
      | none => if char = quote then strings (some []) rest else strings none rest
      | some body =>
          if char = quote then (strings none rest).map (body :: ·)
          else if char = escape then
            match rest with
            | [] => none
            | next :: rest => strings (some (body ++ [char, next])) rest
          else strings (some (body ++ [char])) rest

end Lexer

/-- What can stand between two quotation marks. -/
def Contained [DecidableEq α] (escape quote : α) (body : List α) : Prop :=
  ∃ lexemes, units escape body = some lexemes ∧ .plain quote ∉ lexemes

variable [DecidableEq α] {escape quote char : α} {left right body before rest text : List α}
  {lexemes : List (Lexeme α)}

theorem units_plain (differs : char ≠ escape) :
    units escape (char :: rest) = (units escape rest).map (.plain char :: ·) := by
  rw [units.eq_def]
  exact if_neg differs

theorem units_escaped : units escape (escape :: char :: rest) = (units escape rest).map (.escaped char :: ·) := by
  rw [units, if_pos rfl]

theorem strings_plain (unquoted : char ≠ quote) (differs : char ≠ escape) :
    strings escape quote (some before) (char :: rest) = strings escape quote (some (before ++ [char])) rest := by
  rw [strings.eq_def]
  exact (if_neg unquoted).trans (if_neg differs)

theorem strings_escaped (differ : quote ≠ escape) :
    strings escape quote (some before) (escape :: char :: rest) =
      strings escape quote (some (before ++ [escape, char])) rest := by
  rw [strings.eq_def]
  exact (if_neg differ.symm).trans (if_pos rfl)

theorem strings_close :
    strings escape quote (some before) (quote :: rest) = (strings escape quote none rest).map (before :: ·) := by
  rw [strings.eq_def]
  exact if_pos rfl

theorem strings_open : strings escape quote none (quote :: rest) = strings escape quote (some []) rest := by
  rw [strings.eq_def]
  exact if_pos rfl

theorem units_append (whole : units escape left = some lexemes) :
    units escape (left ++ right) = (units escape right).map (lexemes ++ ·) := by
  induction left using units.induct escape generalizing lexemes with
  | case1 =>
      cases whole
      simp
  | case2 => simp [units] at whole
  | case3 next rest ih =>
      rw [units_escaped] at whole
      obtain ⟨behind, same, rfl⟩ := Option.map_eq_some_iff.mp whole
      rw [List.cons_append, List.cons_append, units_escaped, ih same, Option.map_map]
      rfl
  | case4 char rest differs ih =>
      rw [units_plain differs] at whole
      obtain ⟨behind, same, rfl⟩ := Option.map_eq_some_iff.mp whole
      rw [List.cons_append, units_plain differs, ih same, Option.map_map]
      rfl

theorem units_flatMap_spell (plain : .plain escape ∉ lexemes) :
    units escape (lexemes.flatMap (Lexeme.spell escape)) = some lexemes := by
  induction lexemes with
  | nil => rfl
  | cons lexeme lexemes ih =>
      have behind := ih fun member => plain (List.mem_cons_of_mem _ member)
      rw [List.flatMap_cons]
      cases lexeme with
      | plain char =>
          have differs : char ≠ escape := by
            rintro rfl
            exact plain List.mem_cons_self
          rw [Lexeme.spell, List.singleton_append, units_plain differs, behind]
          rfl
      | escaped char =>
          rw [Lexeme.spell, List.cons_append, List.singleton_append, units_escaped, behind]
          rfl

theorem Contained.append (first : Contained escape quote left) (second : Contained escape quote right) :
    Contained escape quote (left ++ right) := by
  obtain ⟨leftLexemes, leftUnits, leftPlain⟩ := first
  obtain ⟨rightLexemes, rightUnits, rightPlain⟩ := second
  refine ⟨leftLexemes ++ rightLexemes, ?_, ?_⟩
  · rw [units_append leftUnits, rightUnits]
    rfl
  · intro member
    exact (List.mem_append.mp member).elim leftPlain rightPlain

theorem contained_flatMap_spell (plain : .plain escape ∉ lexemes) (unquoted : .plain quote ∉ lexemes) :
    Contained escape quote (lexemes.flatMap (Lexeme.spell escape)) :=
  ⟨lexemes, units_flatMap_spell plain, unquoted⟩

theorem contained_of_not_mem (noEscape : escape ∉ text) (noQuote : quote ∉ text) : Contained escape quote text := by
  have spelled : (text.map Lexeme.plain).flatMap (Lexeme.spell escape) = text := by
    rw [List.flatMap_map]
    exact List.flatMap_singleton' text
  rw [← spelled]
  refine contained_flatMap_spell ?_ ?_
  · simpa using noEscape
  · simpa using noQuote

/-- The string that is being read ends at the quotation mark behind what is contained. -/
theorem Contained.strings (contained : Contained escape quote body) (differ : quote ≠ escape) :
    Quoted.strings escape quote (some before) (body ++ quote :: rest) =
      (Quoted.strings escape quote none rest).map ((before ++ body) :: ·) := by
  obtain ⟨lexemes, whole, plain⟩ := contained
  induction body using units.induct escape generalizing before lexemes with
  | case1 => rw [List.nil_append, List.append_nil, strings_close]
  | case2 => simp [units] at whole
  | case3 next body ih =>
      rw [units_escaped] at whole
      obtain ⟨behind, same, rfl⟩ := Option.map_eq_some_iff.mp whole
      rw [List.cons_append, List.cons_append, strings_escaped differ,
        ih behind same fun member => plain (List.mem_cons_of_mem _ member), List.append_assoc]
      rfl
  | case4 char body differs ih =>
      rw [units_plain differs] at whole
      obtain ⟨behind, same, rfl⟩ := Option.map_eq_some_iff.mp whole
      have unquoted : char ≠ quote := by
        rintro rfl
        exact plain List.mem_cons_self
      rw [List.cons_append, strings_plain unquoted differs,
        ih behind same fun member => plain (List.mem_cons_of_mem _ member), List.append_assoc]
      rfl

theorem strings_of_not_mem (none : quote ∉ left) :
    strings escape quote .none (left ++ right) = strings escape quote .none right := by
  induction left with
  | nil => rfl
  | cons char left ih =>
      have differs : char ≠ quote := by
        rintro rfl
        exact none List.mem_cons_self
      rw [List.cons_append, strings.eq_def]
      exact (if_neg differs).trans <| ih fun member => none (List.mem_cons_of_mem _ member)

end SoulLib.Semantics.Quoted
