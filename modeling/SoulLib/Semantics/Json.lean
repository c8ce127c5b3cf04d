import Mathlib.Algebra.Order.Field.Rat
import Mathlib.Data.List.Infix

/-! The grammar of JSON.

A text is a list of characters and a derivation says what it denotes. A number is
a rational, an object is the list of its members, and an escaped surrogate alone
denotes no character.
-/

set_option autoImplicit false

namespace SoulLib.Semantics.Json

inductive Value where
  | null
  | boolean (value : Bool)
  | number (value : ℚ)
  | string (chars : List Char)
  | array (elements : List Value)
  | object (members : List (List Char × Value))

/-- The first member of that name. -/
def Value.member (name : String) : Value → Option Value
  | .object members => members.lookup name.toList
  | .null | .boolean _ | .number _ | .string _ | .array _ => none

def Whitespace (text : List Char) : Prop := ∀ char ∈ text, char = ' ' ∨ char = '\t' ∨ char = '\n' ∨ char = '\r'

/-- The characters that stand for themselves in a string. -/
def Unescaped (char : Char) : Prop := 0x20 ≤ char.toNat ∧ char ≠ '"' ∧ char ≠ '\\'

instance (char : Char) : Decidable (Unescaped char) := inferInstanceAs (Decidable (_ ∧ _))

/-- What a letter stands for after a backslash. -/
def escapes : List (Char × Char) :=
  [('"', '"'), ('\\', '\\'), ('/', '/'), ('b', '\x08'), ('f', '\x0c'), ('n', '\n'), ('r', '\r'), ('t', '\t')]

def hexDigit (char : Char) : Option Nat :=
  if '0' ≤ char ∧ char ≤ '9' then some (char.toNat - 48)
  else if 'a' ≤ char ∧ char ≤ 'f' then some (char.toNat - 87)
  else if 'A' ≤ char ∧ char ≤ 'F' then some (char.toNat - 55)
  else none

/-- The code unit that four hexadecimal digits stand for. -/
def codeUnit (first second third fourth : Char) : Option Nat := do
  let first ← hexDigit first
  let second ← hexDigit second
  let third ← hexDigit third
  let fourth ← hexDigit fourth
  return ((first * 16 + second) * 16 + third) * 16 + fourth

/-- `\u` and four digits. -/
inductive EscapedUnit : List Char → Nat → Prop where
  | digits {a b c d : Char} {unit : Nat} (same : codeUnit a b c d = some unit) :
      EscapedUnit ['\\', 'u', a, b, c, d] unit

/-- What stands between the quotation marks of a string. -/
inductive Body : List Char → List Char → Prop where
  | nil : Body [] []
  | unescaped {char : Char} {text chars : List Char} (plain : Unescaped char) (rest : Body text chars) :
      Body (char :: text) (char :: chars)
  | escaped {letter char : Char} {text chars : List Char} (known : (letter, char) ∈ escapes) (rest : Body text chars) :
      Body ('\\' :: letter :: text) (char :: chars)
  | unit {unit text chars : List Char} {char : Char} (same : EscapedUnit unit char.toNat) (rest : Body text chars) :
      Body (unit ++ text) (char :: chars)
  | surrogates {first second text chars : List Char} {high low : Nat} {char : Char} (isFirst : EscapedUnit first high)
      (isSecond : EscapedUnit second low) (isHigh : 0xD800 ≤ high ∧ high < 0xDC00) (isLow : 0xDC00 ≤ low ∧ low < 0xE000)
      (same : char.toNat = 0x10000 + (high - 0xD800) * 0x400 + (low - 0xDC00)) (rest : Body text chars) :
      Body (first ++ second ++ text) (char :: chars)

/-- One digit or more, and the number they stand for. -/
inductive Digits : List Char → Nat → Prop where
  | digits {text : List Char} (nonempty : text ≠ []) (digits : ∀ char ∈ text, char.isDigit = true) :
      Digits text (Nat.ofDigitChars 10 text 0)

inductive Fraction : List Char → ℚ → Prop where
  | none : Fraction [] 0
  | point {text : List Char} {value : Nat} (digits : Digits text value) :
      Fraction ('.' :: text) (value / 10 ^ text.length)

inductive Exponent : List Char → ℤ → Prop where
  | none : Exponent [] 0
  | unsigned {letter : Char} {text : List Char} {value : Nat} (isLetter : letter = 'e' ∨ letter = 'E')
      (digits : Digits text value) : Exponent (letter :: text) value
  | positive {letter : Char} {text : List Char} {value : Nat} (isLetter : letter = 'e' ∨ letter = 'E')
      (digits : Digits text value) : Exponent (letter :: '+' :: text) value
  | negative {letter : Char} {text : List Char} {value : Nat} (isLetter : letter = 'e' ∨ letter = 'E')
      (digits : Digits text value) : Exponent (letter :: '-' :: text) (-value)

/-- A number without its sign does not start with a zero that another digit follows. -/
inductive Unsigned : List Char → ℚ → Prop where
  | parts {whole fraction exponent : List Char} {value : Nat} {part : ℚ} {power : ℤ} (digits : Digits whole value)
      (leading : whole.head? = some '0' → whole = ['0']) (hasFraction : Fraction fraction part)
      (hasExponent : Exponent exponent power) : Unsigned (whole ++ fraction ++ exponent) ((value + part) * 10 ^ power)

inductive Number : List Char → ℚ → Prop where
  | positive {text : List Char} {value : ℚ} (digits : Unsigned text value) : Number text value
  | negative {text : List Char} {value : ℚ} (digits : Unsigned text value) : Number ('-' :: text) (-value)

/-- What a part of a text may denote; an element is a value with whitespace around it. -/
inductive Phrase where
  | value (value : Value)
  | element (value : Value)
  | elements (values : List Value)
  | member (member : List Char × Value)
  | members (members : List (List Char × Value))

inductive Denotes : List Char → Phrase → Prop where
  | null : Denotes ['n', 'u', 'l', 'l'] (.value .null)
  | true : Denotes ['t', 'r', 'u', 'e'] (.value (.boolean true))
  | false : Denotes ['f', 'a', 'l', 's', 'e'] (.value (.boolean false))
  | number {text : List Char} {value : ℚ} (number : Number text value) : Denotes text (.value (.number value))
  | string {text chars : List Char} (body : Body text chars) : Denotes ('"' :: text ++ ['"']) (.value (.string chars))
  | emptyArray {blank : List Char} (whitespace : Whitespace blank) :
      Denotes ('[' :: blank ++ [']']) (.value (.array []))
  | array {text : List Char} {values : List Value} (elements : Denotes text (.elements values)) :
      Denotes ('[' :: text ++ [']']) (.value (.array values))
  | emptyObject {blank : List Char} (whitespace : Whitespace blank) :
      Denotes ('\x7b' :: blank ++ ['\x7d']) (.value (.object []))
  | object {text : List Char} {members : List (List Char × Value)} (denotes : Denotes text (.members members)) :
      Denotes ('\x7b' :: text ++ ['\x7d']) (.value (.object members))
  | element {before text after : List Char} {value : Value} (left : Whitespace before)
      (denotes : Denotes text (.value value)) (right : Whitespace after) :
      Denotes (before ++ text ++ after) (.element value)
  | lastElement {text : List Char} {value : Value} (denotes : Denotes text (.element value)) :
      Denotes text (.elements [value])
  | elements {text rest : List Char} {value : Value} {values : List Value} (denotes : Denotes text (.element value))
      (further : Denotes rest (.elements values)) : Denotes (text ++ ',' :: rest) (.elements (value :: values))
  | member {before name chars after text : List Char} {value : Value} (left : Whitespace before)
      (body : Body name chars) (right : Whitespace after) (denotes : Denotes text (.element value)) :
      Denotes (before ++ '"' :: name ++ '"' :: after ++ ':' :: text) (.member (chars, value))
  | lastMember {text : List Char} {member : List Char × Value} (denotes : Denotes text (.member member)) :
      Denotes text (.members [member])
  | members {text rest : List Char} {member : List Char × Value} {members : List (List Char × Value)}
      (denotes : Denotes text (.member member)) (further : Denotes rest (.members members)) :
      Denotes (text ++ ',' :: rest) (.members (member :: members))

/-- A whole text. -/
def Document (text : List Char) (value : Value) : Prop := Denotes text (.element value)

section Strings

variable {text chars before rest : List Char}

theorem printable_of_hexDigit {char : Char} {value : Nat} (digit : hexDigit char = some value) : 0x20 ≤ char.toNat := by
  unfold hexDigit at digit
  split at digit
  · next range => exact Nat.le_trans (by decide) (Char.le_def.mp range.1)
  · split at digit
    · next range => exact Nat.le_trans (by decide) (Char.le_def.mp range.1)
    · split at digit
      · next range => exact Nat.le_trans (by decide) (Char.le_def.mp range.1)
      · cases digit

theorem EscapedUnit.printable {value : Nat} (unit : EscapedUnit text value) : ∀ char ∈ text, 0x20 ≤ char.toNat := by
  cases unit with
  | @digits a b c d value same =>
      simp only [codeUnit, Option.bind_eq_bind, Option.bind_eq_some_iff] at same
      obtain ⟨_, first, _, second, _, third, _, fourth, -⟩ := same
      simp only [List.forall_mem_cons]
      refine ⟨by decide, by decide, printable_of_hexDigit first, printable_of_hexDigit second,
        printable_of_hexDigit third, printable_of_hexDigit fourth, by simp⟩

theorem EscapedUnit.backslash_mem {value : Nat} (unit : EscapedUnit text value) : '\\' ∈ text := by
  cases unit with
  | digits => exact List.mem_cons_self

theorem EscapedUnit.length_eq {value : Nat} (unit : EscapedUnit text value) : text.length = 6 := by
  cases unit with
  | digits => rfl

theorem Body.printable (body : Body text chars) : ∀ char ∈ text, 0x20 ≤ char.toNat := by
  induction body with
  | nil => simp
  | unescaped plain rest ih => simpa using ⟨plain.1, ih⟩
  | @escaped letter char text chars known rest ih =>
      have letters : ∀ pair ∈ escapes, 0x20 ≤ pair.1.toNat := by decide
      have printable := letters _ known
      simp only [List.forall_mem_cons]
      exact ⟨by decide, printable, ih⟩
  | unit same rest ih =>
      simp only [List.forall_mem_append]
      exact ⟨same.printable, ih⟩
  | surrogates isFirst isSecond isHigh isLow same rest ih =>
      simp only [List.forall_mem_append]
      exact ⟨⟨isFirst.printable, isSecond.printable⟩, ih⟩

theorem Body.newline_not_mem (body : Body text chars) : '\n' ∉ text := fun member =>
  absurd (body.printable '\n' member) (by decide)

theorem Body.length_le (body : Body text chars) : chars.length ≤ text.length := by
  induction body with
  | nil => exact Nat.le_refl _
  | unescaped plain rest ih => exact Nat.succ_le_succ ih
  | escaped known rest ih =>
      simp only [List.length_cons]
      omega
  | unit same rest ih =>
      simp only [List.length_append, List.length_cons, same.length_eq]
      omega
  | surrogates isFirst isSecond isHigh isLow same rest ih =>
      simp only [List.length_append, List.length_cons, isFirst.length_eq]
      omega

/-- An escape is longer than what it stands for. -/
theorem Body.length_lt (body : Body text chars) (escape : '\\' ∈ text) : chars.length < text.length := by
  induction body with
  | nil => cases escape
  | unescaped plain rest ih =>
      rcases List.mem_cons.mp escape with rfl | behind
      · exact absurd rfl plain.2.2
      · exact Nat.succ_lt_succ (ih behind)
  | escaped known rest ih =>
      have length := rest.length_le
      simp only [List.length_cons]
      omega
  | unit same rest ih =>
      have length := rest.length_le
      simp only [List.length_append, List.length_cons, same.length_eq]
      omega
  | surrogates isFirst isSecond isHigh isLow same rest ih =>
      have length := rest.length_le
      simp only [List.length_append, List.length_cons, isFirst.length_eq]
      omega

/-- Only an escape can stand for a character that does not stand for itself. -/
theorem Body.unescaped_of_not_mem (body : Body text chars) (noEscape : '\\' ∉ text) :
    ∀ char ∈ chars, Unescaped char := by
  induction body with
  | nil => simp
  | unescaped plain rest ih =>
      have behind := fun member => noEscape (List.mem_cons_of_mem _ member)
      simp only [List.forall_mem_cons]
      exact ⟨plain, ih behind⟩
  | escaped known rest => exact absurd List.mem_cons_self noEscape
  | unit same rest => exact absurd (List.mem_append_left _ same.backslash_mem) noEscape
  | surrogates isFirst isSecond isHigh isLow same rest =>
      exact absurd (List.mem_append_left _ (List.mem_append_left _ isFirst.backslash_mem)) noEscape

theorem backslash_mem_of_split (split : '\\' :: text = before ++ '"' :: rest) : '\\' ∈ before := by
  cases before with
  | nil => exact absurd (List.cons.inj split).1 (by decide)
  | cons head before =>
      rw [(List.cons.inj split).1]
      exact List.mem_cons_self

theorem Body.backslash_before (body : Body text chars) (split : text = before ++ '"' :: rest) : '\\' ∈ before := by
  induction body generalizing before with
  | nil => simp at split
  | unescaped plain _ ih =>
      cases before with
      | nil => exact absurd (List.cons.inj split).1 plain.2.1
      | cons head before => exact List.mem_cons_of_mem _ (ih (List.cons.inj split).2)
  | escaped => exact backslash_mem_of_split split
  | unit same =>
      cases same with
      | digits => exact backslash_mem_of_split split
  | surrogates isFirst =>
      cases isFirst with
      | digits => exact backslash_mem_of_split split

theorem Body.of_unescaped (plain : ∀ char ∈ text, Unescaped char) : Body text text := by
  induction text with
  | nil => exact .nil
  | cons char text ih =>
      rw [List.forall_mem_cons] at plain
      exact .unescaped plain.1 (ih plain.2)

end Strings

section Numbers

theorem digits_toDigits (n : Nat) : Digits (Nat.toDigits 10 n) n := by
  have allDigits : ∀ char ∈ Nat.toDigits 10 n, char.isDigit = true := fun char member =>
    Nat.isDigit_of_mem_toDigits (by decide) (by decide) member
  have digits := Digits.digits Nat.toDigits_ne_nil allDigits
  rwa [Nat.ofDigitChars_ten_toDigits] at digits

theorem toDigits_leading (n : Nat) (zero : (Nat.toDigits 10 n).head? = some '0') : Nat.toDigits 10 n = ['0'] := by
  induction n using Nat.strongRecOn with
  | ind n ih =>
      by_cases small : n < 10
      · rw [Nat.toDigits_of_lt_base small] at zero ⊢
        exact congrArg (fun digit => [digit]) (Option.some.inj zero)
      · rw [Nat.toDigits_of_base_le (by decide) (Nat.le_of_not_lt small),
          List.head?_append_of_ne_nil _ Nat.toDigits_ne_nil] at zero
        have digits := ih (n / 10) (by omega) zero
        have value := @Nat.ofDigitChars_ten_toDigits (n / 10)
        rw [digits] at value
        have positive : n / 10 = 0 := value.symm
        omega

theorem number_toDigits (n : Nat) : Number (Nat.toDigits 10 n) n := by
  have parts := Unsigned.parts (digits_toDigits n) (toDigits_leading n) .none .none
  simp only [List.append_nil, add_zero, zpow_zero, mul_one] at parts
  exact .positive parts

end Numbers

section Occurrences

/-- A string is among what a phrase denotes, names of members apart. -/
inductive Occurs (chars : List Char) : Phrase → Prop where
  | string : Occurs chars (.value (.string chars))
  | array {values : List Value} (inside : Occurs chars (.elements values)) : Occurs chars (.value (.array values))
  | object {members : List (List Char × Value)} (inside : Occurs chars (.members members)) :
      Occurs chars (.value (.object members))
  | element {value : Value} (inside : Occurs chars (.value value)) : Occurs chars (.element value)
  | elements {value : Value} {values : List Value} (member : value ∈ values) (inside : Occurs chars (.value value)) :
      Occurs chars (.elements values)
  | member {member : List Char × Value} (inside : Occurs chars (.value member.2)) : Occurs chars (.member member)
  | members {member : List Char × Value} {members : List (List Char × Value)} (mem : member ∈ members)
      (inside : Occurs chars (.value member.2)) : Occurs chars (.members members)

variable {text chars : List Char} {phrase : Phrase} {value : Value}

/-- What stands in the text for a string. -/
def Quoted (chars text : List Char) : Prop := ∃ body, Body body chars ∧ '"' :: body ++ ['"'] <:+: text

theorem Quoted.within {whole : List Char} (quoted : Quoted chars text) (part : text <:+: whole) :
    Quoted chars whole := by
  obtain ⟨body, denotes, inside⟩ := quoted
  exact ⟨body, denotes, inside.trans part⟩

theorem infix_behind (separator : Char) (first rest : List Char) : rest <:+: first ++ separator :: rest :=
  ((List.suffix_cons separator rest).trans (List.suffix_append first _)).isInfix

theorem Denotes.quoted (denotes : Denotes text phrase) (occurs : Occurs chars phrase) : Quoted chars text := by
  induction denotes with
  -- null, booleans and numbers hold no string
  | null => cases occurs
  | true => cases occurs
  | false => cases occurs
  | number => cases occurs
  | string body =>
      cases occurs with
      | string => exact ⟨_, body, List.infix_rfl⟩
  | emptyArray =>
      cases occurs with
      | array inside =>
          cases inside with
          | elements member => cases member
  | array elements ih =>
      cases occurs with
      | array inside => exact (ih inside).within ⟨['['], [']'], rfl⟩
  | emptyObject =>
      cases occurs with
      | object inside =>
          cases inside with
          | members member => cases member
  | object denotes ih =>
      cases occurs with
      | object inside => exact (ih inside).within ⟨['\x7b'], ['\x7d'], rfl⟩
  | element left denotes right ih =>
      cases occurs with
      | element inside => exact (ih inside).within (List.infix_append _ _ _)
  | lastElement denotes ih =>
      cases occurs with
      | elements member inside =>
          rw [List.mem_singleton.mp member] at inside
          exact ih (.element inside)
  | elements denotes further ih ihFurther =>
      cases occurs with
      -- the string is in the first element or in the list that follows it
      | elements member inside =>
          rcases List.mem_cons.mp member with rfl | behind
          · exact (ih (.element inside)).within (List.prefix_append _ _).isInfix
          · exact (ihFurther (.elements behind inside)).within (infix_behind _ _ _)
  | member left body right denotes ih =>
      cases occurs with
      | member inside =>
          -- the name stands before the colon, so the value is what lies behind it
          exact (ih (.element inside)).within (infix_behind _ _ _)
  | lastMember denotes ih =>
      cases occurs with
      | members member inside =>
          rw [List.mem_singleton.mp member] at inside
          exact ih (.member inside)
  | members denotes further ih ihFurther =>
      cases occurs with
      | members member inside =>
          rcases List.mem_cons.mp member with rfl | behind
          · exact (ih (.member inside)).within (List.prefix_append _ _).isInfix
          · exact (ihFurther (.members behind inside)).within (infix_behind _ _ _)

theorem Value.exists_of_member {name : String} {found : Value} (same : value.member name = some found) :
    ∃ members, value = .object members ∧ (name.toList, found) ∈ members := by
  cases value with
  | object members =>
      obtain ⟨before, after, rfl, -⟩ := List.lookup_eq_some_iff.mp same
      exact ⟨_, rfl, List.mem_append_right _ List.mem_cons_self⟩
  | null => cases same
  | boolean => cases same
  | number => cases same
  | string => cases same
  | array => cases same

theorem Occurs.of_member {name : String} {found : Value} (same : value.member name = some found)
    (inside : Occurs chars (.value found)) : Occurs chars (.value value) := by
  obtain ⟨members, rfl, member⟩ := Value.exists_of_member same
  exact .object (.members member inside)

end Occurrences

section Lines

variable {α : Type} {separator : α} {word line rest : List α}

theorem infix_line (whole : separator ∉ word) (inside : word <:+: line ++ separator :: rest) :
    word <:+: line ∨ word <:+: rest := by
  rcases List.infix_append_iff.mp inside with left | right | ⟨first, second, rfl, suffix, isPrefix⟩
  · exact .inl left
  · rcases List.infix_cons_iff.mp right with starts | right
    · cases word with
      | nil => exact .inl List.nil_infix
      | cons head word =>
          rw [(List.cons_prefix_cons.mp starts).1] at whole
          exact absurd List.mem_cons_self whole
    · exact .inr right
  · cases second with
    | nil =>
        rw [List.append_nil]
        exact .inl suffix.isInfix
    | cons head second =>
        rw [(List.cons_prefix_cons.mp isPrefix).1] at whole
        exact absurd (List.mem_append_right _ List.mem_cons_self) whole

/-- A word without separators is inside one line. -/
theorem exists_line {lines : List (List α)} (whole : separator ∉ word) (nonempty : word ≠ [])
    (inside : word <:+: lines.flatMap fun line => line ++ [separator]) : ∃ line ∈ lines, word <:+: line := by
  induction lines with
  | nil => exact absurd (List.infix_nil.mp inside) nonempty
  | cons line lines ih =>
      rw [List.flatMap_cons, List.append_assoc, List.singleton_append] at inside
      rcases infix_line whole inside with here | further
      · exact ⟨line, List.mem_cons_self, here⟩
      · obtain ⟨other, member, there⟩ := ih further
        exact ⟨other, List.mem_cons_of_mem _ member, there⟩

end Lines

end SoulLib.Semantics.Json
