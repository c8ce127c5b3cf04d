import SoulLib.Memory.MemoryVisualizer
import SoulLib.Semantics.Quoted

/-! The memory statistics as a Graphviz graph, in the debug build.

A node is labelled with the statistics of a tag and, if the tag has one, with the
label of the tag. That label is escaped, so it cannot end the string that it is in.
-/

set_option autoImplicit false

namespace SoulLib.Memory.Debug

open SoulLib.Semantics.Quoted

/-- One round of the loop. -/
def pushEscaped (escaped : String) (ch : Char) : String :=
  match ch with
  | '\\' | '"' => (escaped.push '\\').push ch
  | '\n' | '\r' => escaped ++ "\\n"
  | _ => escaped.push ch

def escapeGraphvizLabel (text : String) : String := text.toList.foldl pushEscaped ""

def writeTagGraphviz (tagStats : MemoryTagStats) (index : Nat) : String :=
  String.join
    ["  tag", toString index, " [label=\"hash: ", toString tagStats.tag.hash.toNat,
      "\\nbytes: ", toString tagStats.bytes,
      "\\nallocations: ", toString tagStats.allocations,
      if tagStats.tag.label.isEmpty then "" else "\\nlabel: " ++ escapeGraphvizLabel tagStats.tag.label,
      "\"];\n",
      "  total -> tag", toString index, ";\n"]

def writeGraphviz (stats : MemoryStatistics) : String :=
  String.join
    ["digraph MemoryTags \x7b\n",
      "  graph [rankdir=LR];\n",
      "  node [shape=box];\n",
      "  total [shape=oval,label=\"Total\nbytes: ", toString stats.totalBytes,
      "\\nallocations: ", toString stats.allocationCount, "\"];\n",
      String.join (stats.tags.mapIdx fun index tagStats => writeTagGraphviz tagStats index),
      "\x7d\n"]

/-- The unit that a character of a label becomes. -/
def unit (ch : Char) : Lexeme Char :=
  match ch with
  | '\\' | '"' => .escaped ch
  | '\n' | '\r' => .escaped 'n'
  | _ => .plain ch

/-- What a unit of a label stands for. -/
def decode : Lexeme Char → Option Char
  | .plain ch => some ch
  | .escaped '\\' => some '\\'
  | .escaped '"' => some '"'
  | .escaped 'n' => some '\n'
  | .escaped _ => none

/-- What stands between the quotation marks at the node of a tag. -/
def tagLabel (tagStats : MemoryTagStats) : List Char :=
  "hash: ".toList ++ Nat.toDigits 10 tagStats.tag.hash.toNat ++
    ("\\nbytes: ".toList ++ Nat.toDigits 10 tagStats.bytes) ++
    ("\\nallocations: ".toList ++ Nat.toDigits 10 tagStats.allocations) ++
    if tagStats.tag.label.isEmpty then [] else "\\nlabel: ".toList ++ (escapeGraphvizLabel tagStats.tag.label).toList

/-- And at the node that the others hang on. -/
def totalLabel (stats : MemoryStatistics) : List Char :=
  "Total\nbytes: ".toList ++ Nat.toDigits 10 stats.totalBytes ++
    ("\\nallocations: ".toList ++ Nat.toDigits 10 stats.allocationCount)

variable {tagStats : MemoryTagStats} {stats : MemoryStatistics} {ch : Char} {rest : List Char}

theorem pushEscaped_toList (escaped : String) (ch : Char) :
    (pushEscaped escaped ch).toList = escaped.toList ++ (unit ch).spell '\\' := by
  unfold pushEscaped unit
  split <;> simp [Lexeme.spell]

theorem escapeGraphvizLabel_toList (text : String) :
    (escapeGraphvizLabel text).toList = (text.toList.map unit).flatMap (Lexeme.spell '\\') := by
  have pushed (escaped : String) (chars : List Char) :
      (chars.foldl pushEscaped escaped).toList =
        escaped.toList ++ (chars.map unit).flatMap (Lexeme.spell '\\') := by
    induction chars generalizing escaped with
    | nil => simp
    | cons ch chars ih =>
        rw [List.foldl_cons, ih, pushEscaped_toList, List.map_cons, List.flatMap_cons, List.append_assoc]
  exact pushed "" text.toList

theorem unit_ne_plain (ch : Char) : unit ch ≠ .plain '\\' ∧ unit ch ≠ .plain '"' := by
  unfold unit
  split <;> simp_all

theorem decode_unit (ch : Char) : decode (unit ch) = some (if ch = '\r' then '\n' else ch) := by
  unfold unit
  split
  · rfl
  · rfl
  · rfl
  · rfl
  · next carriageReturn => rw [decode, if_neg carriageReturn]

theorem not_mem_map_unit (text : List Char) : .plain '\\' ∉ text.map unit ∧ .plain '"' ∉ text.map unit := by
  constructor
  · intro member
    obtain ⟨ch, -, same⟩ := List.mem_map.mp member
    exact (unit_ne_plain ch).1 same
  · intro member
    obtain ⟨ch, -, same⟩ := List.mem_map.mp member
    exact (unit_ne_plain ch).2 same

theorem mapM_decode_unit (text : List Char) :
    (text.map unit).mapM decode = some (text.map fun ch => if ch = '\r' then '\n' else ch) := by
  have each : decode ∘ unit = fun ch => some (if ch = '\r' then '\n' else ch) := funext decode_unit
  rw [List.mapM_map, each]
  exact List.mapM_pure

section Containment

theorem quote_not_mem_digits (n : Nat) : '"' ∉ Nat.toDigits 10 n := fun member =>
  absurd (Nat.isDigit_of_mem_toDigits (by decide) (by decide) member) (by decide)

theorem contained_digits (n : Nat) : Contained '\\' '"' (Nat.toDigits 10 n) :=
  contained_of_not_mem (not_mem_toDigits n) (quote_not_mem_digits n)

theorem contained_line (name : List Char) {value : List Char} (noEscape : '\\' ∉ name) (noQuote : '"' ∉ name)
    (contained : Contained '\\' '"' value) : Contained '\\' '"' ('\\' :: 'n' :: name ++ value) := by
  have lineFeed : Contained '\\' '"' ([Lexeme.escaped 'n'].flatMap (Lexeme.spell '\\')) :=
    contained_flatMap_spell (by simp) (by simp)
  exact (lineFeed.append (contained_of_not_mem noEscape noQuote)).append contained

theorem contained_escapeGraphvizLabel (text : String) : Contained '\\' '"' (escapeGraphvizLabel text).toList := by
  rw [escapeGraphvizLabel_toList]
  exact contained_flatMap_spell (not_mem_map_unit _).1 (not_mem_map_unit _).2

theorem contained_tagLabel (tagStats : MemoryTagStats) : Contained '\\' '"' (tagLabel tagStats) := by
  have hash : Contained '\\' '"' ("hash: ".toList ++ Nat.toDigits 10 tagStats.tag.hash.toNat) :=
    (contained_of_not_mem (by simp) (by simp)).append (contained_digits _)
  have bytes : Contained '\\' '"' ("\\nbytes: ".toList ++ Nat.toDigits 10 tagStats.bytes) :=
    contained_line "bytes: ".toList (by simp) (by simp) (contained_digits _)
  have allocations : Contained '\\' '"' ("\\nallocations: ".toList ++ Nat.toDigits 10 tagStats.allocations) :=
    contained_line "allocations: ".toList (by simp) (by simp) (contained_digits _)
  refine ((hash.append bytes).append allocations).append ?_
  split
  · exact contained_of_not_mem List.not_mem_nil List.not_mem_nil
  · exact contained_line "label: ".toList (by simp) (by simp) (contained_escapeGraphvizLabel _)

theorem contained_totalLabel (stats : MemoryStatistics) : Contained '\\' '"' (totalLabel stats) := by
  have bytes : Contained '\\' '"' ("Total\nbytes: ".toList ++ Nat.toDigits 10 stats.totalBytes) :=
    (contained_of_not_mem (by simp) (by simp)).append (contained_digits _)
  exact bytes.append (contained_line "allocations: ".toList (by simp) (by simp) (contained_digits _))

end Containment

theorem writeTagGraphviz_toList (tagStats : MemoryTagStats) (index : Nat) :
    (writeTagGraphviz tagStats index).toList =
      ("  tag".toList ++ Nat.toDigits 10 index ++ " [label=".toList) ++ '"' :: (tagLabel tagStats ++
        '"' :: ("];\n  total -> tag".toList ++ Nat.toDigits 10 index ++ ";\n".toList)) := by
  unfold writeTagGraphviz tagLabel
  cases tagStats.tag.label.isEmpty with
  | false => simp
  | true => simp

section Strings

variable (index : Nat)

theorem strings_writeTagGraphviz (tagStats : MemoryTagStats) (rest : List Char) :
    strings '\\' '"' none ((writeTagGraphviz tagStats index).toList ++ rest) =
      (strings '\\' '"' none rest).map (tagLabel tagStats :: ·) := by
  have digits := quote_not_mem_digits index
  have before : '"' ∉ "  tag".toList ++ Nat.toDigits 10 index ++ " [label=".toList := by simp [digits]
  have behind : '"' ∉ "];\n  total -> tag".toList ++ Nat.toDigits 10 index ++ ";\n".toList := by simp [digits]
  rw [writeTagGraphviz_toList, List.append_assoc, strings_of_not_mem before, List.cons_append, strings_open,
    List.append_assoc, List.cons_append, (contained_tagLabel tagStats).strings (by decide), strings_of_not_mem behind]
  rfl

/-- The nodes of the tags, by induction on the tags and from any index on. -/
theorem strings_tags (tags : List MemoryTagStats) (rest : List Char) :
    strings '\\' '"' none
        ((String.join (tags.mapIdx fun i tagStats => writeTagGraphviz tagStats (i + index))).toList ++ rest) =
      (strings '\\' '"' none rest).map (tags.map tagLabel ++ ·) := by
  induction tags generalizing index with
  | nil => simp
  | cons tagStats tags ih =>
      have shifted (i : Nat) : i + 1 + index = i + (index + 1) := by omega
      rw [List.mapIdx_cons, String.join_cons, String.toList_append, List.append_assoc, strings_writeTagGraphviz]
      simp only [shifted]
      rw [ih, Option.map_map]
      rfl

end Strings

theorem strings_writeGraphviz (stats : MemoryStatistics) :
    strings '\\' '"' none (writeGraphviz stats).toList = some (totalLabel stats :: stats.tags.map tagLabel) := by
  have written : (writeGraphviz stats).toList =
      "digraph MemoryTags \x7b\n".toList ++ ("  graph [rankdir=LR];\n".toList ++ ("  node [shape=box];\n".toList ++
        ("  total [shape=oval,label=".toList ++ '"' :: (totalLabel stats ++ '"' :: ("];\n".toList ++
          ((String.join (stats.tags.mapIdx fun i tagStats => writeTagGraphviz tagStats (i + 0))).toList ++
            "\x7d\n".toList)))))) := by
    unfold writeGraphviz totalLabel
    simp
  rw [written]
  rw [strings_of_not_mem (by simp), strings_of_not_mem (by simp), strings_of_not_mem (by simp),
    strings_of_not_mem (by simp), strings_open, (contained_totalLabel stats).strings (by decide),
    strings_of_not_mem (by simp), strings_tags]
  simp [strings]

/-- The label is read back with its carriage returns as line feeds, and the string at the
node of a tag ends where the label has been written. -/
theorem escapeGraphvizLabel_contained (text : String) (tagStats : MemoryTagStats) (index : Nat) :
    (∃ lexemes, units '\\' (escapeGraphvizLabel text).toList = some lexemes ∧ .plain '"' ∉ lexemes ∧
      lexemes.mapM decode = some (text.toList.map fun ch => if ch = '\r' then '\n' else ch)) ∧
    strings '\\' '"' none (writeTagGraphviz tagStats index).toList = some [tagLabel tagStats] := by
  constructor
  · refine ⟨text.toList.map unit, ?_, (not_mem_map_unit _).2, mapM_decode_unit _⟩
    rw [escapeGraphvizLabel_toList]
    exact units_flatMap_spell (not_mem_map_unit _).1
  · have read := strings_writeTagGraphviz index tagStats []
    rw [List.append_nil] at read
    exact read

/-- A label with each of the characters that are escaped, but for a line feed. -/
example : escapeGraphvizLabel "say \"a\\b\"\r" = "say \\\"a\\\\b\\\"\\n" := by decide

section Shown

/-- A label as a reader of the graph has it. -/
def shownLabel (text : String) : String := String.ofList (text.toList.map fun ch => if ch = '\r' then '\n' else ch)

def shownTag (tagStats : MemoryTagStats) : MemoryTagStats :=
  { tagStats with tag := ⟨tagStats.tag.toMemoryTag, shownLabel tagStats.tag.label⟩ }

/-- What the graph shows of the statistics. -/
def MemoryStatistics.shown (stats : MemoryStatistics) : MemoryStatistics :=
  { stats with tags := stats.tags.map shownTag }

theorem takeWhile_digits (n : Nat) (behind : ∀ ch ∈ rest.head?, ch.isDigit = false) :
    (Nat.toDigits 10 n ++ rest).takeWhile Char.isDigit = Nat.toDigits 10 n := by
  have digits : ∀ ch ∈ Nat.toDigits 10 n, ch.isDigit = true := fun ch member =>
    Nat.isDigit_of_mem_toDigits (by decide) (by decide) member
  rw [List.takeWhile_append_of_pos digits]
  cases rest with
  | nil => simp
  | cons ch rest =>
      rw [List.takeWhile_cons_of_neg (by simp [behind ch rfl]), List.append_nil]

/-- A number ends where its digits end. -/
theorem digits_append_inj {n m : Nat} {rest rest' : List Char} (behind : ∀ ch ∈ rest.head?, ch.isDigit = false)
    (behind' : ∀ ch ∈ rest'.head?, ch.isDigit = false)
    (same : Nat.toDigits 10 n ++ rest = Nat.toDigits 10 m ++ rest') : n = m ∧ rest = rest' := by
  have digits : Nat.toDigits 10 n = Nat.toDigits 10 m := by
    rw [← takeWhile_digits n behind, same, takeWhile_digits m behind']
  have equal : n = m := by
    have value := congrArg (fun text => Nat.ofDigitChars 10 text 0) digits
    simpa only [Nat.ofDigitChars_ten_toDigits] using value
  subst equal
  exact ⟨rfl, List.append_cancel_left same⟩

theorem shownLabel_of_escape {text other : String} (same : escapeGraphvizLabel text = escapeGraphvizLabel other) :
    shownLabel text = shownLabel other := by
  have lexemes : text.toList.map unit = other.toList.map unit := by
    have spelled := congrArg String.toList same
    rw [escapeGraphvizLabel_toList, escapeGraphvizLabel_toList] at spelled
    have read := congrArg (units '\\') spelled
    rw [units_flatMap_spell (not_mem_map_unit _).1, units_flatMap_spell (not_mem_map_unit _).1] at read
    exact Option.some.inj read
  have decoded := congrArg (List.mapM decode) lexemes
  rw [mapM_decode_unit, mapM_decode_unit] at decoded
  exact congrArg String.ofList (Option.some.inj decoded)

/-- What stands behind the numbers of a tag. -/
def labelLine (text : String) : List Char :=
  if text.isEmpty then [] else "\\nlabel: ".toList ++ (escapeGraphvizLabel text).toList

theorem labelLine_head (text : String) : ∀ ch ∈ (labelLine text).head?, ch.isDigit = false := by
  unfold labelLine
  cases text.isEmpty with
  | true => simp
  | false => simp

theorem shownLabel_of_labelLine {text other : String} (same : labelLine text = labelLine other) :
    shownLabel text = shownLabel other := by
  unfold labelLine at same
  split at same
  · next empty =>
      split at same
      · next empty' =>
          rw [String.isEmpty_iff.mp empty, String.isEmpty_iff.mp empty']
      · simp at same
  · split at same
    · simp at same
    · exact shownLabel_of_escape (String.toList_inj.mp (List.append_cancel_left same))

theorem shownTag_of_tagLabel {other : MemoryTagStats} (same : tagLabel tagStats = tagLabel other) :
    shownTag tagStats = shownTag other := by
  have lines (tagStats : MemoryTagStats) : tagLabel tagStats =
      "hash: ".toList ++ (Nat.toDigits 10 tagStats.tag.hash.toNat ++ ("\\nbytes: ".toList ++
        (Nat.toDigits 10 tagStats.bytes ++ ("\\nallocations: ".toList ++
          (Nat.toDigits 10 tagStats.allocations ++ labelLine tagStats.tag.label))))) := by
    unfold tagLabel labelLine
    simp only [List.append_assoc]
  rw [lines, lines] at same
  obtain ⟨hash, same⟩ := digits_append_inj (by simp) (by simp) (List.append_cancel_left same)
  obtain ⟨bytes, same⟩ := digits_append_inj (by simp) (by simp) (List.append_cancel_left same)
  obtain ⟨allocations, same⟩ := digits_append_inj (labelLine_head _) (labelLine_head _) (List.append_cancel_left same)
  have label := shownLabel_of_labelLine same
  have tag : tagStats.tag.toMemoryTag = other.tag.toMemoryTag :=
    congrArg SoulLib.Memory.MemoryTag.mk (BitVec.eq_of_toNat_eq hash)
  unfold shownTag
  rw [bytes, allocations, label, tag]

theorem totals_of_totalLabel {other : MemoryStatistics} (same : totalLabel stats = totalLabel other) :
    stats.totalBytes = other.totalBytes ∧ stats.allocationCount = other.allocationCount := by
  have lines (stats : MemoryStatistics) : totalLabel stats =
      "Total\nbytes: ".toList ++ (Nat.toDigits 10 stats.totalBytes ++ ("\\nallocations: ".toList ++
        (Nat.toDigits 10 stats.allocationCount ++ []))) := by
    unfold totalLabel
    simp only [List.append_assoc, List.append_nil]
  rw [lines, lines] at same
  obtain ⟨bytes, same⟩ := digits_append_inj (by simp) (by simp) (List.append_cancel_left same)
  obtain ⟨allocations, -⟩ := digits_append_inj (by simp) (by simp) (List.append_cancel_left same)
  exact ⟨bytes, allocations⟩

theorem escapeGraphvizLabel_shownLabel (text : String) :
    escapeGraphvizLabel (shownLabel text) = escapeGraphvizLabel text := by
  have each (ch : Char) : unit (if ch = '\r' then '\n' else ch) = unit ch := by
    by_cases carriageReturn : ch = '\r'
    · rw [if_pos carriageReturn, carriageReturn]
      rfl
    · rw [if_neg carriageReturn]
  apply String.toList_inj.mp
  rw [escapeGraphvizLabel_toList, escapeGraphvizLabel_toList, shownLabel, String.toList_ofList, List.map_map]
  congr 2
  exact funext each

theorem writeTagGraphviz_shownTag (tagStats : MemoryTagStats) (index : Nat) :
    writeTagGraphviz (shownTag tagStats) index = writeTagGraphviz tagStats index := by
  have empty : (shownLabel tagStats.tag.label).isEmpty = tagStats.tag.label.isEmpty := by
    rw [Bool.eq_iff_iff, String.isEmpty_iff, String.isEmpty_iff, ← String.toList_eq_nil_iff, ← String.toList_eq_nil_iff,
      shownLabel, String.toList_ofList, List.map_eq_nil_iff]
  unfold writeTagGraphviz shownTag
  rw [empty, escapeGraphvizLabel_shownLabel]

theorem writeGraphviz_shown (stats : MemoryStatistics) : writeGraphviz stats.shown = writeGraphviz stats := by
  have tags : stats.shown.tags.mapIdx (fun index tagStats => writeTagGraphviz tagStats index) =
      stats.tags.mapIdx fun index tagStats => writeTagGraphviz tagStats index := by
    apply List.ext_getElem?
    intro index
    simp [MemoryStatistics.shown, Option.map_map, Function.comp_def, writeTagGraphviz_shownTag]
  unfold writeGraphviz
  rw [tags]
  rfl

/-- Two graphs are the same exactly if the statistics are, labels with their carriage returns as line feeds. -/
theorem writeGraphviz_eq_iff (stats other : MemoryStatistics) :
    writeGraphviz stats = writeGraphviz other ↔ stats.shown = other.shown := by
  constructor
  · intro same
    have labels := congrArg (fun text => strings '\\' '"' none text.toList) same
    simp only [strings_writeGraphviz, Option.some.injEq, List.cons.injEq] at labels
    obtain ⟨total, nodes⟩ := labels
    obtain ⟨bytes, allocations⟩ := totals_of_totalLabel total
    have tags : stats.tags.map shownTag = other.tags.map shownTag := by
      rw [← List.forall₂_eq_eq_eq, List.forall₂_map_left_iff, List.forall₂_map_right_iff] at nodes ⊢
      exact nodes.imp fun _ _ => shownTag_of_tagLabel
    unfold MemoryStatistics.shown
    rw [bytes, allocations, tags]
  · intro same
    rw [← writeGraphviz_shown stats, same, writeGraphviz_shown]

end Shown

end SoulLib.Memory.Debug
