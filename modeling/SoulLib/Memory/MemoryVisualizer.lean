import Mathlib.Data.Finset.Max
import SoulLib.Memory.MemoryManager
import SoulLib.Semantics.Json

/-! The memory statistics as a JSON text, in the debug build.

There a tag has a label besides its hash, and the writer puts the label between
quotation marks as it is. A label with a character that would have to be escaped
is read back as something shorter, or the text cannot be read.
-/

set_option autoImplicit false

namespace SoulLib.Memory.Debug

open SoulLib.Semantics (Json.Value Json.Document Json.Unescaped)
open SoulLib.Semantics.Json

structure MemoryTag extends SoulLib.Memory.MemoryTag where
  label : String := ""
  deriving DecidableEq, Repr

def makeRuntimeTag (view : String) : MemoryTag where
  hash := hashBytes (view.toList.map fun char => BitVec.ofNat 8 char.toNat)
  label := view

structure MemoryTagStats where
  tag : MemoryTag := {}
  bytes : Nat := 0
  allocations : Nat := 0
  deriving DecidableEq, Repr

structure MemoryStatistics where
  totalBytes : Nat := 0
  allocationCount : Nat := 0
  tags : List MemoryTagStats := []
  deriving DecidableEq, Repr

def writeTagJson (tagStats : MemoryTagStats) (isLast : Bool) : String :=
  String.join
    ["    \x7b\n",
      "      \"hash\": ", toString tagStats.tag.hash.toNat, ",\n",
      "      \"label\": \"", tagStats.tag.label, "\",\n",
      "      \"bytes\": ", toString tagStats.bytes, ",\n",
      "      \"allocations\": ", toString tagStats.allocations, "\n",
      "    \x7d", if isLast then "\n" else ",\n"]

def writeJson (stats : MemoryStatistics) : String :=
  String.join
    ["\x7b\n",
      "  \"totalBytes\": ", toString stats.totalBytes, ",\n",
      "  \"allocationCount\": ", toString stats.allocationCount, ",\n",
      "  \"tags\": [\n",
      String.join (stats.tags.mapIdx fun i tagStats => writeTagJson tagStats (i + 1 == stats.tags.length)),
      "  ]\n",
      "\x7d\n"]

/-- An object with what is known of a tag. -/
structure DescribesTag (tagStats : MemoryTagStats) (value : Json.Value) : Prop where
  hash : value.member "hash" = some (.number tagStats.tag.hash.toNat)
  label : value.member "label" = some (.string tagStats.tag.label.toList)
  bytes : value.member "bytes" = some (.number tagStats.bytes)
  allocations : value.member "allocations" = some (.number tagStats.allocations)

/-- An object with the totals, and the tags in order. -/
structure Describes (stats : MemoryStatistics) (value : Json.Value) : Prop where
  totalBytes : value.member "totalBytes" = some (.number stats.totalBytes)
  allocationCount : value.member "allocationCount" = some (.number stats.allocationCount)
  tags : ∃ elements, value.member "tags" = some (.array elements) ∧ List.Forall₂ DescribesTag stats.tags elements

/-- The text is JSON and describes the statistics. -/
def WritesJson (stats : MemoryStatistics) : Prop :=
  ∃ value, Json.Document (writeJson stats).toList value ∧ Describes stats value

variable {tagStats : MemoryTagStats} {tags : List MemoryTagStats} {stats : MemoryStatistics}

/-- The objects of the array, as the loop writes them. -/
def writeTags (tags : List MemoryTagStats) : List Char :=
  (String.join (tags.mapIdx fun i tagStats => writeTagJson tagStats (i + 1 == tags.length))).toList

theorem writeTags_cons :
    writeTags (tagStats :: tags) = (writeTagJson tagStats tags.isEmpty).toList ++ writeTags tags := by
  have first : (0 + 1 == (tagStats :: tags).length) = tags.isEmpty := by cases tags <;> simp
  have shifted (i : Nat) : (i + 1 + 1 == (tagStats :: tags).length) = (i + 1 == tags.length) := by simp
  rw [writeTags, List.mapIdx_cons, String.join_cons, String.toList_append, first]
  simp only [shifted, writeTags]

/-- The lines of one object. -/
def tagLines (tagStats : MemoryTagStats) (isLast : Bool) : List (List Char) :=
  ["    \x7b".toList, "      \"hash\": ".toList ++ Nat.toDigits 10 tagStats.tag.hash.toNat ++ [','],
    "      \"label\": \"".toList ++ tagStats.tag.label.toList ++ ['"', ','],
    "      \"bytes\": ".toList ++ Nat.toDigits 10 tagStats.bytes ++ [','],
    "      \"allocations\": ".toList ++ Nat.toDigits 10 tagStats.allocations,
    if isLast then "    \x7d".toList else "    \x7d,".toList]

theorem writeTagJson_toList (isLast : Bool) :
    (writeTagJson tagStats isLast).toList = (tagLines tagStats isLast).flatMap fun line => line ++ ['\n'] := by
  cases isLast <;> simp [writeTagJson, tagLines]

theorem writeTags_lines (tags : List MemoryTagStats) :
    ∃ lines : List (List Char), writeTags tags = lines.flatMap (fun line => line ++ ['\n']) ∧
      ∀ line ∈ lines, ∃ tagStats ∈ tags, ∃ isLast, line ∈ tagLines tagStats isLast := by
  induction tags with
  | nil => exact ⟨[], rfl, by simp⟩
  | cons tagStats tags ih =>
      obtain ⟨lines, same, known⟩ := ih
      refine ⟨tagLines tagStats tags.isEmpty ++ lines, ?_, ?_⟩
      · rw [writeTags_cons, writeTagJson_toList, same, List.flatMap_append]
      · intro line member
        rcases List.mem_append.mp member with first | behind
        · exact ⟨tagStats, List.mem_cons_self, _, first⟩
        · obtain ⟨other, within, isLast, isLine⟩ := known line behind
          exact ⟨other, List.mem_cons_of_mem _ within, isLast, isLine⟩

theorem writeJson_toList :
    (writeJson stats).toList =
      ["\x7b".toList, "  \"totalBytes\": ".toList ++ Nat.toDigits 10 stats.totalBytes ++ [','],
          "  \"allocationCount\": ".toList ++ Nat.toDigits 10 stats.allocationCount ++ [','],
          "  \"tags\": [".toList].flatMap (fun line => line ++ ['\n']) ++
        (writeTags stats.tags ++ ["  ]".toList, "\x7d".toList].flatMap fun line => line ++ ['\n']) := by
  simp [writeJson, writeTags]

section Labels

variable {body chars label before : List Char}

/-- A string with an escape does not begin before a quotation mark that no backslash precedes. -/
theorem not_append_of_plain {right rest : List Char} (denotes : Body body chars) (escape : '\\' ∈ body)
    (plain : '\\' ∉ before) : body ++ '"' :: right ≠ before ++ '"' :: rest := by
  intro same
  rcases List.append_eq_append_iff.mp same with ⟨between, rfl, -⟩ | ⟨between, split, tail⟩
  · exact plain (List.mem_append_left _ escape)
  · cases between with
    | nil =>
        rw [split, List.append_nil] at escape
        exact plain escape
    | cons head between =>
        rw [← (List.cons.inj tail).1] at split
        exact plain (denotes.backslash_before split)

theorem exists_split_of_label (denotes : Body body chars) (escape : '\\' ∈ body) (plain : '\\' ∉ before)
    (inside : '"' :: body ++ ['"'] <:+: before ++ '"' :: label) :
    ∃ left right, left ++ (body ++ '"' :: right) = label := by
  obtain ⟨left, right, same⟩ := inside
  rw [List.append_assoc, List.append_assoc, List.cons_append, List.singleton_append] at same
  rcases List.append_eq_append_iff.mp same with ⟨between, split, tail⟩ | ⟨between, -, tail⟩
  · cases between with
    | nil => exact ⟨[], right, (List.cons.inj tail).2⟩
    | cons head between =>
        refine absurd (List.cons.inj tail).2 (not_append_of_plain denotes escape fun member => plain ?_)
        rw [split]
        exact List.mem_append_right _ (List.mem_cons_of_mem _ member)
  · cases between with
    | nil => exact ⟨[], right, (List.cons.inj tail).2.symm⟩
    | cons head between => exact ⟨between ++ ['"'], right, by simp [(List.cons.inj tail).2]⟩

theorem infix_label (denotes : Body body chars) (escape : '\\' ∈ body) (plain : '\\' ∉ before)
    (inside : '"' :: body ++ ['"'] <:+: before ++ '"' :: (label ++ ['"', ','])) : body <:+: label := by
  obtain ⟨left, right, same⟩ := exists_split_of_label denotes escape plain inside
  rcases List.eq_nil_or_concat right with rfl | ⟨right, last, rfl⟩
  · have ends := congrArg List.getLast? same
    simp at ends
  · have comma : (left ++ (body ++ '"' :: right)) ++ [last] = (label ++ ['"']) ++ [','] := by simpa using same
    have marked := (List.append_inj' comma rfl).1
    rcases List.eq_nil_or_concat right with rfl | ⟨right, last, rfl⟩
    · have whole : (left ++ body) ++ ['"'] = label ++ ['"'] := by simpa using marked
      exact ⟨left, [], by simpa using (List.append_inj' whole rfl).1⟩
    · have whole : (left ++ (body ++ '"' :: right)) ++ [last] = label ++ ['"'] := by simpa using marked
      exact ⟨left, '"' :: right, by simpa using (List.append_inj' whole rfl).1⟩

end Labels

theorem not_mem_toDigits (n : Nat) : '\\' ∉ Nat.toDigits 10 n := fun member =>
  absurd (Nat.isDigit_of_mem_toDigits (by decide) (by decide) member) (by decide)

theorem eq_of_backslash_mem {line : List Char} {isLast : Bool} (isLine : line ∈ tagLines tagStats isLast)
    (escape : '\\' ∈ line) :
    line = "      \"label\": ".toList ++ '"' :: (tagStats.tag.label.toList ++ ['"', ',']) := by
  have digits := not_mem_toDigits
  cases isLast <;> simp [tagLines] at isLine
  all_goals
    rcases isLine with rfl | rfl | rfl | rfl | rfl | rfl <;> simp [digits] at escape ⊢

/-- A string with an escape in the text is within a label. -/
theorem infix_label_of_writeJson {body chars : List Char} (denotes : Body body chars) (escape : '\\' ∈ body)
    (inside : '"' :: body ++ ['"'] <:+: (writeJson stats).toList) :
    ∃ tagStats ∈ stats.tags, body <:+: tagStats.tag.label.toList := by
  obtain ⟨lines, same, known⟩ := writeTags_lines stats.tags
  rw [writeJson_toList, same, ← List.flatMap_append, ← List.flatMap_append] at inside
  have whole : '\n' ∉ '"' :: body ++ ['"'] := by simpa using denotes.newline_not_mem
  obtain ⟨line, member, within⟩ := exists_line whole (by simp) inside
  have onLine : '\\' ∈ line := within.subset (List.mem_append_left _ (List.mem_cons_of_mem _ escape))
  have digits := not_mem_toDigits
  rcases List.mem_append.mp member with first | behind
  · simp at first
    rcases first with rfl | rfl | rfl | rfl <;> simp [digits] at onLine
  · rcases List.mem_append.mp behind with middle | last
    · obtain ⟨tagStats, hasTag, isLast, isLine⟩ := known line middle
      rw [eq_of_backslash_mem isLine onLine] at within
      exact ⟨tagStats, hasTag, infix_label denotes escape (by decide) within⟩
    · simp at last
      rcases last with rfl | rfl <;> simp at onLine

/-- What the text of one object denotes. -/
def tagValue (tagStats : MemoryTagStats) : Json.Value :=
  .object
    [("hash".toList, .number tagStats.tag.hash.toNat), ("label".toList, .string tagStats.tag.label.toList),
      ("bytes".toList, .number tagStats.bytes), ("allocations".toList, .number tagStats.allocations)]

/-- What the text denotes. -/
def statsValue (stats : MemoryStatistics) : Json.Value :=
  .object
    [("totalBytes".toList, .number stats.totalBytes), ("allocationCount".toList, .number stats.allocationCount),
      ("tags".toList, .array (stats.tags.map tagValue))]

theorem describesTag_tagValue (tagStats : MemoryTagStats) : DescribesTag tagStats (tagValue tagStats) :=
  ⟨rfl, rfl, rfl, rfl⟩

theorem describes_statsValue (stats : MemoryStatistics) : Describes stats (statsValue stats) := by
  refine ⟨rfl, rfl, _, rfl, ?_⟩
  rw [List.forall₂_map_right_iff, List.forall₂_same]
  exact fun tagStats _ => describesTag_tagValue tagStats

section Texts

variable {before after text : List Char} {value : Json.Value}

theorem denotes_member (left : Whitespace before) (name : List Char) (plain : ∀ char ∈ name, Unescaped char)
    (denotes : Denotes text (.element value)) :
    Denotes (before ++ '"' :: name ++ ['"'] ++ ':' :: text) (.member (name, value)) :=
  .member left (.of_unescaped plain) (by simp [Whitespace]) denotes

theorem denotes_number (left : Whitespace before) (name : List Char) (plain : ∀ char ∈ name, Unescaped char) (n : Nat)
    (right : Whitespace after) :
    Denotes (before ++ '"' :: name ++ ['"'] ++ ':' :: ([' '] ++ Nat.toDigits 10 n ++ after))
      (.member (name, .number n)) :=
  denotes_member left name plain (.element (by simp [Whitespace]) (.number (number_toDigits n)) right)

end Texts

theorem exists_tagText (tagStats : MemoryTagStats) (plain : ∀ char ∈ tagStats.tag.label.toList, Unescaped char) :
    ∃ text, Denotes text (.value (tagValue tagStats)) ∧
      ∀ isLast, (writeTagJson tagStats isLast).toList =
        "    ".toList ++ text ++ if isLast then ['\n'] else [',', '\n'] := by
  have indent : Whitespace "\n      ".toList := by simp [Whitespace]
  have closing : Whitespace "\n    ".toList := by simp [Whitespace]
  have space : Whitespace [' '] := by simp [Whitespace]
  have nothing : Whitespace [] := by simp [Whitespace]
  have hash := denotes_number indent "hash".toList (by simp [Unescaped]) tagStats.tag.hash.toNat nothing
  have label := denotes_member indent "label".toList (by simp [Unescaped])
    (.element space (.string (.of_unescaped plain)) nothing)
  have bytes := denotes_number indent "bytes".toList (by simp [Unescaped]) tagStats.bytes nothing
  have allocations := denotes_number indent "allocations".toList (by simp [Unescaped]) tagStats.allocations closing
  refine ⟨_, .object (.members hash (.members label (.members bytes (.lastMember allocations)))), ?_⟩
  intro isLast
  cases isLast <;> simp [writeTagJson]

/-- The objects of an array that is not empty, by induction on the tags behind the first. -/
theorem denotes_tags (tagStats : MemoryTagStats) (tags : List MemoryTagStats)
    (plain : ∀ other ∈ tagStats :: tags, ∀ char ∈ other.tag.label.toList, Unescaped char) :
    Denotes ('\n' :: writeTags (tagStats :: tags) ++ "  ".toList) (.elements ((tagStats :: tags).map tagValue)) := by
  have opening : Whitespace "\n    ".toList := by simp [Whitespace]
  have closing : Whitespace "\n  ".toList := by simp [Whitespace]
  have nothing : Whitespace [] := by simp [Whitespace]
  induction tags generalizing tagStats with
  | nil =>
      obtain ⟨text, denotes, written⟩ := exists_tagText tagStats (plain tagStats List.mem_cons_self)
      have only := Denotes.lastElement (.element opening denotes closing)
      rw [writeTags_cons, written]
      simpa [writeTags] using only
  | cons next tags ih =>
      obtain ⟨text, denotes, written⟩ := exists_tagText tagStats (plain tagStats List.mem_cons_self)
      have further := ih next fun other member => plain other (List.mem_cons_of_mem _ member)
      have all := Denotes.elements (.element opening denotes nothing) further
      rw [writeTags_cons, written]
      simpa using all

theorem denotes_array (tags : List MemoryTagStats)
    (plain : ∀ tagStats ∈ tags, ∀ char ∈ tagStats.tag.label.toList, Unescaped char) :
    Denotes ('[' :: ('\n' :: writeTags tags ++ "  ".toList) ++ [']']) (.value (.array (tags.map tagValue))) := by
  cases tags with
  | nil => exact .emptyArray (by simp [Whitespace, writeTags])
  | cons tagStats tags => exact .array (denotes_tags tagStats tags plain)

theorem document_writeJson (plain : ∀ tagStats ∈ stats.tags, ∀ char ∈ tagStats.tag.label.toList, Unescaped char) :
    Document (writeJson stats).toList (statsValue stats) := by
  have indent : Whitespace "\n  ".toList := by simp [Whitespace]
  have space : Whitespace [' '] := by simp [Whitespace]
  have newline : Whitespace ['\n'] := by simp [Whitespace]
  have nothing : Whitespace [] := by simp [Whitespace]
  have totalBytes := denotes_number indent "totalBytes".toList (by simp [Unescaped]) stats.totalBytes nothing
  have allocationCount :=
    denotes_number indent "allocationCount".toList (by simp [Unescaped]) stats.allocationCount nothing
  have tags := denotes_member indent "tags".toList (by simp [Unescaped])
    (.element space (denotes_array stats.tags plain) newline)
  have whole := Denotes.element nothing
    (.object (.members totalBytes (.members allocationCount (.lastMember tags)))) newline
  rw [writeJson_toList]
  simpa [Document, statsValue] using whole

theorem exists_describesTag {values : List Json.Value} (all : List.Forall₂ DescribesTag tags values)
    (member : tagStats ∈ tags) : ∃ value ∈ values, DescribesTag tagStats value := by
  induction all with
  | nil => cases member
  | cons describes _ ih =>
      rcases List.mem_cons.mp member with rfl | behind
      · exact ⟨_, List.mem_cons_self, describes⟩
      · obtain ⟨value, within, found⟩ := ih behind
        exact ⟨value, List.mem_cons_of_mem _ within, found⟩

theorem Describes.occurs {value : Json.Value} (describes : Describes stats value) (member : tagStats ∈ stats.tags) :
    Occurs tagStats.tag.label.toList (.value value) := by
  obtain ⟨elements, array, all⟩ := describes.tags
  obtain ⟨element, within, describesTag⟩ := exists_describesTag all member
  exact .of_member array (.array (.elements within (.of_member describesTag.label .string)))

theorem exists_longer (writes : WritesJson stats) (member : tagStats ∈ stats.tags)
    (special : ¬∀ char ∈ tagStats.tag.label.toList, Unescaped char) :
    ∃ other ∈ stats.tags, (¬∀ char ∈ other.tag.label.toList, Unescaped char) ∧
      tagStats.tag.label.toList.length < other.tag.label.toList.length := by
  obtain ⟨value, document, describes⟩ := writes
  obtain ⟨body, denotes, inside⟩ := Denotes.quoted document (.element (describes.occurs member))
  have escape : '\\' ∈ body := by
    by_contra noEscape
    exact special (denotes.unescaped_of_not_mem noEscape)
  obtain ⟨other, hasOther, within⟩ := infix_label_of_writeJson denotes escape inside
  refine ⟨other, hasOther, ?_, Nat.lt_of_lt_of_le (denotes.length_lt escape) within.length_le⟩
  intro plain
  exact absurd (plain '\\' (within.subset escape)) (by decide)

theorem plain_of_writesJson (writes : WritesJson stats) :
    ∀ tagStats ∈ stats.tags, ∀ char ∈ tagStats.tag.label.toList, Unescaped char := by
  intro tagStats member
  by_contra special
  -- Among the labels that have to be escaped there is a longest one.
  let escaped := stats.tags.toFinset.filter fun other => ¬∀ char ∈ other.tag.label.toList, Unescaped char
  have nonempty : escaped.Nonempty := ⟨tagStats, Finset.mem_filter.mpr ⟨List.mem_toFinset.mpr member, special⟩⟩
  obtain ⟨longest, within, bound⟩ := escaped.exists_max_image (fun other => other.tag.label.toList.length) nonempty
  obtain ⟨hasLongest, isEscaped⟩ := Finset.mem_filter.mp within
  obtain ⟨other, hasOther, alsoEscaped, longer⟩ := exists_longer writes (List.mem_toFinset.mp hasLongest) isEscaped
  have shorter := bound other (Finset.mem_filter.mpr ⟨List.mem_toFinset.mpr hasOther, alsoEscaped⟩)
  exact absurd longer (Nat.not_lt.mpr shorter)

/-- The text is JSON and describes the statistics if and only if no label has to be escaped. -/
theorem writesJson_iff (stats : MemoryStatistics) :
    WritesJson stats ↔ ∀ tagStats ∈ stats.tags, ∀ char ∈ tagStats.tag.label.toList, Unescaped char :=
  ⟨plain_of_writesJson, fun plain => ⟨_, document_writeJson plain, describes_statsValue stats⟩⟩

/-- One allocation whose tag has a quotation mark in its label. -/
def quotedLabel : MemoryStatistics where
  totalBytes := 16
  allocationCount := 1
  tags := [{ tag := makeRuntimeTag "a\"b", bytes := 16, allocations := 1 }]

theorem not_writesJson_quotedLabel : ¬WritesJson quotedLabel := by
  intro writes
  have plain := plain_of_writesJson writes _ List.mem_cons_self '"' (by simp [makeRuntimeTag])
  exact absurd rfl plain.2.1

end SoulLib.Memory.Debug
