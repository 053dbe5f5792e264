import Mathlib.Tactic.SplitIfs
import PythonToCSharp.CSharp.Literal
import PythonToCSharp.Text.Digits

/-!
What integer literals stand for.

A Python integer is a mark of its base, digits with single underscores among them, and maybe an old
suffix. `CSharp.integerValue?` reads the integer literals of C#, which know three of the four bases
and no such suffix. All tokens keep their value but the octal ones that are left octal: those with a
suffix and those beyond the bound.
-/

namespace PythonToCSharp.Literal

open Text (hexValue?)

/-! ## Digits -/

/-- The value of a digit to a base. -/
def digitValue? (radix : Nat) (c : Char) : Option Nat :=
  (hexValue? c).filter (· < radix)

/-- A digit to a base. -/
abbrev Digit (radix : Nat) := { c : Char // (digitValue? radix c).isSome = true }

/-- The value of a digit. -/
def Digit.value {radix : Nat} (digit : Digit radix) : Nat :=
  (digitValue? radix digit.val).get digit.property

theorem Digit.digitValue?_val {radix : Nat} (digit : Digit radix) :
    digitValue? radix digit.val = some digit.value :=
  (Option.some_get digit.property).symm

/-- A digit, and whether an underscore stands before it. -/
abbrev Decorated (radix : Nat) := Bool × Digit radix

/-- A digit as it is written. -/
def Decorated.source {radix : Nat} (entry : Decorated radix) : List Char :=
  if entry.1 then ['_', entry.2.val] else [entry.2.val]

/-- The number that digits stand for behind a value. -/
def numberFrom {radix : Nat} (value : Nat) (digits : List (Decorated radix)) : Nat :=
  digits.foldl (fun value entry => radix * value + entry.2.value) value

/-- A character that has no value is no digit. -/
theorem Digit.val_ne {radix : Nat} (digit : Digit radix) {c : Char}
    (h : digitValue? radix c = none) : digit.val ≠ c := by
  rintro rfl
  rw [digit.digitValue?_val] at h
  cases h

theorem digitValue?_eq_none {c : Char} (h : hexValue? c = none) (radix : Nat) :
    digitValue? radix c = none := by
  rw [digitValue?, h, Option.filter_none]

/-- The digits to a base up to ten are numerals. -/
theorem digitValue?_of_le {radix : Nat} (h : radix ≤ 10) (c : Char) :
    digitValue? radix c =
      if c.isDigit = true ∧ c.toNat - '0'.toNat <
        radix then some (c.toNat - '0'.toNat) else none := by
  unfold digitValue? hexValue?
  split_ifs with hdigit hlt hlower hupper <;> simp_all [Option.filter] <;> omega

theorem isDigit_iff (c : Char) : c.isDigit = true ↔ '0' ≤ c ∧ c ≤ '9' := by
  rw [Char.isDigit, Bool.and_eq_true_iff, decide_eq_true_iff, decide_eq_true_iff]
  rfl

theorem Decorated.mem_source {radix : Nat} {entry : Decorated radix} {c : Char}
    (h : c ∈ entry.source) : c = '_' ∨ c = entry.2.val := by
  obtain ⟨underscore, digit⟩ := entry
  cases underscore with
  | false => exact .inr (List.mem_singleton.1 h)
  | true => simpa [Decorated.source] using h

/-- Removing the underscores leaves the digits. -/
theorem filter_sources {radix : Nat} (digits : List (Decorated radix)) :
    (digits.flatMap Decorated.source).filter (· != '_') = digits.map fun entry => entry.2.val := by
  induction digits with
  | nil => rfl
  | cons entry rest ih =>
    obtain ⟨underscore, digit⟩ := entry
    have hdigit : digit.val ≠ '_' := digit.val_ne (digitValue?_eq_none rfl radix)
    rw [List.flatMap_cons, List.filter_append, ih]
    cases underscore <;> simp [Decorated.source, hdigit]

end PythonToCSharp.Literal

namespace PythonToCSharp.Python

open Literal (Decorated Digit numberFrom)

/-! ## Tokens -/

/-- The bases of integers. -/
inductive Base where
  | binary
  | octal
  | decimal
  | hexadecimal
  deriving DecidableEq, Repr

/-- The number of the digits of a base. -/
def Base.radix : Base → Nat
  | .binary => 2
  | .octal => 8
  | .decimal => 10
  | .hexadecimal => 16

/-- The letters behind a zero that mark a base. Decimal digits have no mark. -/
def Base.letters : Base → List (Option Char)
  | .binary => [some 'b', some 'B']
  | .octal => [some 'o', some 'O']
  | .decimal => [none]
  | .hexadecimal => [some 'x', some 'X']

/-- An integer as it is written: the mark of its base, at least one digit, and maybe a suffix. An
underscore may stand before every digit, but not at the very front. -/
structure IntegerToken where
  base : Base
  letter : Option Char
  first : Decorated base.radix
  rest : List (Decorated base.radix)
  suffix : Option Char
  marked : letter ∈ base.letters
  bare : letter = none → first.1 = false
  suffixed : suffix ∈ [none, some 'l', some 'L']

namespace IntegerToken

/-- The digits, each with the answer whether an underscore stands before it. -/
def digits (token : IntegerToken) : List (Decorated token.base.radix) :=
  token.first :: token.rest

/-- The mark of the base. -/
def mark (token : IntegerToken) : List Char :=
  token.letter.toList.flatMap fun c => ['0', c]

/-- The characters of a token without its suffix. -/
def stem (token : IntegerToken) : List Char :=
  token.mark ++ token.digits.flatMap Decorated.source

/-- The text of a token. -/
def text (token : IntegerToken) : String :=
  String.ofList (token.stem ++ token.suffix.toList)

/-- The number that a token stands for. -/
def value (token : IntegerToken) : Nat :=
  numberFrom 0 token.digits

/-- The octal tokens that are not converted: those with a suffix and those beyond the bound. -/
def StaysOctal (token : IntegerToken) : Prop :=
  token.base = .octal ∧ (token.suffix ≠ none ∨ CSharp.octalBound ≤ token.value)

instance (token : IntegerToken) : Decidable token.StaysOctal :=
  inferInstanceAs (Decidable (_ ∧ _))

end IntegerToken

end PythonToCSharp.Python

namespace PythonToCSharp.CSharp

open Literal
open Python (Base IntegerToken)
open Text (hexValue?)

/-! ## The literals of C# -/

/-- The number that digits stand for behind a value, any number of underscores before each of them.
`complete` says whether the text may end here. -/
def digitsValue? (radix : Nat) : Bool → Nat → List Char → Option Nat
  | complete, value, [] => if complete then some value else none
  | _, value, c :: cs =>
    if c = '_' then digitsValue? radix false value cs
    else (digitValue? radix c).bind fun digit => digitsValue? radix true (radix * value + digit) cs

/-- The number that an integer literal without a suffix stands for: digits to base sixteen or two
behind their mark, or decimal digits that start with a digit. -/
def integerValue? : List Char → Option Nat
  | [] => none
  | [c] => digitValue? 10 c
  | c :: mark :: cs =>
    if c = '0' ∧ (mark = 'x' ∨ mark = 'X') then digitsValue? 16 false 0 cs
    else if c = '0' ∧ (mark = 'b' ∨ mark = 'B') then digitsValue? 2 false 0 cs
    else (digitValue? 10 c).bind fun digit => digitsValue? 10 true digit (mark :: cs)

/-- One written digit is read as its value. -/
theorem digitsValue?_source {radix : Nat} (entry : Decorated radix) (complete : Bool) (value : Nat)
    (cs : List Char) : digitsValue? radix complete value (entry.source ++ cs) =
      digitsValue? radix true (radix * value + entry.2.value) cs := by
  obtain ⟨underscore, digit⟩ := entry
  have hdigit : digit.val ≠ '_' := digit.val_ne (digitValue?_eq_none rfl radix)
  cases underscore <;> simp [Decorated.source, digitsValue?, hdigit, digit.digitValue?_val]

/-- Written digits are read as their number. -/
theorem digitsValue?_sources {radix : Nat} (digits : List (Decorated radix)) (value : Nat) :
    digitsValue? radix true value (digits.flatMap Decorated.source) =
      some (numberFrom value digits) := by
  induction digits generalizing value with
  | nil => rfl
  | cons entry rest ih => rw [List.flatMap_cons, digitsValue?_source, ih, numberFrom, numberFrom,
      List.foldl_cons]

variable (token : IntegerToken)

/-- Digits behind the mark of their base are read as their number. -/
theorem digitsValue?_digits :
    digitsValue? token.base.radix false 0 (token.digits.flatMap Decorated.source) =
      some token.value := by
  rw [IntegerToken.digits, List.flatMap_cons, digitsValue?_source, digitsValue?_sources]
  rfl

/-- Decimal digits and underscores behind a decimal digit are read as decimal. -/
theorem integerValue?_decimal {c : Char} {digit : Nat} {cs : List Char}
    (hc : digitValue? 10 c = some digit)
    (hcs : ∀ d ∈ cs, d = '_' ∨ (digitValue? 10 d).isSome = true) :
    integerValue? (c :: cs) = digitsValue? 10 true digit cs := by
  cases cs with
  | nil => rw [integerValue?, hc, digitsValue?, if_pos rfl]
  | cons mark rest =>
    -- the letters that mark a base are no decimal digits
    have hmark (letter : Char) (hnone : digitValue? 10 letter = none) (hletter : letter ≠ '_') :
        mark ≠ letter := by
      rintro rfl
      obtain rfl | hsome := hcs mark List.mem_cons_self
      · exact hletter rfl
      · rw [hnone] at hsome
        cases hsome
    have hx := hmark 'x' rfl (by decide)
    have hX := hmark 'X' rfl (by decide)
    have hb := hmark 'b' rfl (by decide)
    have hB := hmark 'B' rfl (by decide)
    simp [integerValue?, hx, hX, hb, hB, hc]

theorem digitValue?_of_isDigit {c : Char} (h : c.isDigit = true) :
    digitValue? 10 c = some (c.toNat - '0'.toNat) := by
  have hle : c.toNat ≤ '9'.toNat := UInt32.le_iff_toNat_le.1 ((isDigit_iff c).1 h).2
  have hlt : c.toNat - '0'.toNat < 10 := Nat.lt_of_le_of_lt (Nat.sub_le_sub_right hle _) (by decide)
  rw [digitValue?_of_le (Nat.le_refl 10), if_pos ⟨h, hlt⟩]

/-- Numerals are read as core reads them. -/
theorem digitsValue?_numerals {cs : List Char} (h : ∀ c ∈ cs, c.isDigit = true) (value : Nat) :
    digitsValue? 10 true value cs = some (Nat.ofDigitChars 10 cs value) := by
  induction cs generalizing value with
  | nil => rfl
  | cons c rest ih =>
    obtain ⟨hc, hrest⟩ := List.forall_mem_cons.1 h
    have hmark : c ≠ '_' := by
      rintro rfl
      cases hc
    rw [digitsValue?, if_neg hmark, digitValue?_of_isDigit hc, Option.bind_some, ih hrest,
      Nat.ofDigitChars_cons]

/-- A number printed in decimal is read as itself. -/
theorem integerValue?_toString (n : Nat) : integerValue? (toString n).toList = some n := by
  rw [Nat.toString_eq_repr, Nat.toList_repr]
  have hdigits : ∀ c ∈ Nat.toDigits 10 n, c.isDigit = true :=
    fun c => Nat.isDigit_of_mem_toDigits (by decide) (by decide)
  have hvalue : Nat.ofDigitChars 10 (Nat.toDigits 10 n) 0 = n := Nat.ofDigitChars_ten_toDigits
  cases hcs : Nat.toDigits 10 n with
  | nil => exact absurd hcs Nat.toDigits_ne_nil
  | cons c rest =>
    rw [hcs] at hdigits hvalue
    obtain ⟨hc, hrest⟩ := List.forall_mem_cons.1 hdigits
    have hnumerals : ∀ d ∈ rest, d = '_' ∨ (digitValue? 10 d).isSome = true := by
      intro d hd
      rw [digitValue?_of_isDigit (hrest d hd)]
      exact .inr rfl
    rw [integerValue?_decimal (digitValue?_of_isDigit hc) hnumerals, digitsValue?_numerals hrest]
    rw [Nat.ofDigitChars_cons] at hvalue
    simpa using hvalue

/-! ## Octal numbers -/

theorem octalDigit?_eq (c : Char) : octalDigit? c = digitValue? Base.octal.radix c := by
  have hle (last : Char) : c ≤ last ↔ c.toNat ≤ last.toNat := UInt32.le_iff_toNat_le
  have hge (first : Char) : first ≤ c ↔ first.toNat ≤ c.toNat := UInt32.le_iff_toNat_le
  have hrange : ('0' ≤ c ∧ c ≤ '7') ↔ (c.isDigit = true ∧ c.toNat - '0'.toNat < 8) := by
    rw [isDigit_iff, hle, hle, hge]
    have h0 : '0'.toNat = 48 := rfl
    have h7 : '7'.toNat = 55 := rfl
    have h9 : '9'.toNat = 57 := rfl
    omega
  simp only [octalDigit?, Base.radix, digitValue?_of_le (by decide : 8 ≤ 10), hrange]

/-- Octal digits are read as their number, and nothing is read when a suffix stands behind them. -/
theorem octalFrom_digits (digits : List (Decorated Base.octal.radix)) {suffix : Option Char}
    (h : suffix ∈ [none, some 'l', some 'L']) (value : Nat) :
    octalFrom value ((digits.map fun entry => entry.2.val) ++ suffix.toList) =
      if suffix = none then some (numberFrom value digits) else none := by
  induction digits generalizing value with
  | nil =>
    simp only [List.mem_cons, List.not_mem_nil, or_false] at h
    obtain rfl | rfl | rfl := h <;> rfl
  | cons entry rest ih =>
    rw [List.map_cons, List.cons_append, octalFrom, octalDigit?_eq, entry.2.digitValue?_val,
      Option.bind_some, ih]
    rfl

/-- The characters of a text are kept, and those behind them that are to be dropped are not. -/
theorem dropEnd_append {p : Char → Bool} {front back : List Char}
    (hfront : ∀ c ∈ front, p c = false)
    (hback : ∀ c ∈ back, p c = true) : dropEnd p (front ++ back) = front := by
  have hdrop : front.reverse.dropWhile p = front.reverse := by
    cases hr : front.reverse with
    | nil => rfl
    | cons c rest =>
      have hc : p c = false := hfront c (List.mem_reverse.1 (by rw [hr]; exact List.mem_cons_self))
      rw [List.dropWhile_cons, hc]
      rfl
  rw [dropEnd, List.reverse_append,
    List.dropWhile_append_of_pos (fun c hc => hback c (List.mem_reverse.1 hc)), hdrop,
    List.reverse_reverse]

/-! ## Tokens as literals -/

/-- No character before the suffix could be taken for one. -/
theorem stem_no_suffix : ∀ c ∈ token.stem, (c = 'l' || c = 'L') = false := by
  intro c hc
  rw [IntegerToken.stem, List.mem_append, IntegerToken.mark, List.mem_flatMap,
    List.mem_flatMap] at hc
  obtain ⟨letter, hletter, hc⟩ | ⟨entry, _, hc⟩ := hc
  · have hletters : ∀ base : Base, base.letters.all fun letter =>
        letter.toList.all fun c => !(c = 'l' || c = 'L') := by
      intro base
      cases base <;> decide
    have hmarked :=
      List.all_eq_true.1 (List.all_eq_true.1 (hletters _) _ token.marked) letter hletter
    simp only [List.mem_cons, List.not_mem_nil, or_false] at hc
    obtain rfl | rfl := hc
    · decide
    · simpa using hmarked
  · obtain rfl | rfl := Decorated.mem_source hc
    · decide
    · have hl := entry.2.val_ne (digitValue?_eq_none (c := 'l') rfl _)
      have hL := entry.2.val_ne (digitValue?_eq_none (c := 'L') rfl _)
      simp [hl, hL]

/-- Without its suffix, a token is a literal of the same number, or none when it is octal. -/
theorem integerValue?_stem :
    integerValue? token.stem = if token.base = .octal then none else some token.value := by
  have hdigits := digitsValue?_digits token
  obtain ⟨base, letter, first, rest, suffix, marked, bare, suffixed⟩ := token
  cases base with
  | binary | hexadecimal =>
    simp only [Base.letters, List.mem_cons, List.not_mem_nil, or_false] at marked
    obtain rfl | rfl := marked <;> exact hdigits
  | octal =>
    simp only [Base.letters, List.mem_cons, List.not_mem_nil, or_false] at marked
    obtain rfl | rfl := marked <;> rfl
  | decimal =>
    simp only [Base.letters, List.mem_cons, List.not_mem_nil, or_false] at marked
    subst marked
    obtain ⟨underscore, digit⟩ := first
    cases (bare rfl : underscore = false)
    have hrest : ∀ d ∈ rest.flatMap Decorated.source,
        d = '_' ∨ (digitValue? 10 d).isSome = true := by
      intro d hd
      obtain ⟨entry, _, hd⟩ := List.mem_flatMap.1 hd
      obtain rfl | rfl := Decorated.mem_source hd
      · exact .inl rfl
      · exact .inr entry.2.property
    have hvalue :=
      (digitsValue?_source (false, digit) false 0 (rest.flatMap Decorated.source)).symm.trans
        hdigits
    rw [Nat.mul_zero, Nat.zero_add] at hvalue
    exact (integerValue?_decimal digit.digitValue?_val hrest).trans hvalue

theorem octalDigits?_of_forall {cs : List Char} (h : ∀ c ∈ cs.tail, c ≠ 'o' ∧ c ≠ 'O') :
    octalDigits? cs = none := by
  unfold octalDigits?
  split
  next mark rest =>
    obtain ⟨ho, hO⟩ := h mark List.mem_cons_self
    rw [if_neg (not_or_intro ho hO)]
  next => rfl

/-- The digits of octal tokens, and of no others, are taken for octal digits. -/
theorem octalDigits?_text : octalDigits? token.text.toList =
      if token.base = .octal then some
        ((token.digits.map fun entry => entry.2.val) ++ token.suffix.toList) else none := by
  obtain ⟨base, letter, first, rest, suffix, marked, bare, suffixed⟩ := token
  rw [IntegerToken.text, String.toList_ofList]
  simp only [List.mem_cons, List.not_mem_nil, or_false] at suffixed
  cases base with
  | binary | hexadecimal =>
    simp only [Base.letters, List.mem_cons, List.not_mem_nil, or_false] at marked
    obtain rfl | rfl := marked <;> rfl
  | octal =>
    have hsuffix : suffix.toList.filter (· != '_') = suffix.toList := by
      obtain rfl | rfl | rfl := suffixed <;> rfl
    have htext : ((first :: rest).flatMap Decorated.source ++ suffix.toList).filter (· != '_') =
        ((first :: rest).map fun entry => entry.2.val) ++ suffix.toList := by
      rw [List.filter_append, hsuffix, filter_sources]
    simp only [Base.letters, List.mem_cons, List.not_mem_nil, or_false] at marked
    obtain rfl | rfl := marked <;> exact congrArg some htext
  | decimal =>
    simp only [Base.letters, List.mem_cons, List.not_mem_nil, or_false] at marked
    subst marked
    obtain ⟨underscore, digit⟩ := first
    cases (bare rfl : underscore = false)
    refine octalDigits?_of_forall fun c hc => ?_
    obtain hc | hc :=
      List.mem_append.1 (show c ∈ rest.flatMap Decorated.source ++ suffix.toList from hc)
    · obtain ⟨entry, _, hc⟩ := List.mem_flatMap.1 hc
      obtain rfl | rfl := Decorated.mem_source hc
      · decide
      · exact ⟨entry.2.val_ne (digitValue?_eq_none rfl _),
          entry.2.val_ne (digitValue?_eq_none rfl _)⟩
    · obtain rfl | rfl | rfl := suffixed
      · cases hc
      · cases List.mem_singleton.1 hc
        decide
      · cases List.mem_singleton.1 hc
        decide

theorem octalValue?_cons {c : Char} (h : c ≠ '+') (cs : List Char) :
    octalValue? (c :: cs) = (octalFrom 0 (c :: cs)).filter (· < octalBound) := by
  unfold octalValue?
  split
  next rest heq =>
    cases heq
    exact absurd rfl h
  next => rfl

/-- The number of an octal token is found if it has no suffix and is within the bound. -/
theorem octalValue?_digits (h : token.base = .octal) :
    octalValue? ((token.digits.map fun entry => entry.2.val) ++ token.suffix.toList) =
      if token.StaysOctal then none else some token.value := by
  obtain ⟨base, letter, first, rest, suffix, marked, bare, suffixed⟩ := token
  cases h
  have hplus : first.2.val ≠ '+' := first.2.val_ne (digitValue?_eq_none rfl _)
  refine (octalValue?_cons hplus _).trans ?_
  refine (congrArg (Option.filter _) (octalFrom_digits (first :: rest) suffixed 0)).trans ?_
  by_cases hnone : suffix = none
  · by_cases hbound : octalBound ≤ numberFrom 0 (first :: rest)
    · rw [if_pos hnone, if_pos ⟨rfl, .inr hbound⟩, Option.filter_some, if_neg]
      simpa using hbound
    · rw [if_pos hnone, if_neg, Option.filter_some, if_pos]
      · rfl
      · simpa using hbound
      · rintro ⟨_, hsome | hle⟩
        · exact hsome hnone
        · exact hbound hle
  · rw [if_neg hnone, if_pos ⟨rfl, .inl hnone⟩, Option.filter_none]

/-- The literal of a token is its text without the suffix, unless it is octal and can be converted.
-/
theorem intLiteral_text : intLiteral token.text =
      if token.base = .octal ∧ ¬ token.StaysOctal then toString token.value else
        String.ofList token.stem := by
  have hstem : String.ofList (dropEnd (fun c => c = 'l' || c = 'L') token.text.toList) =
      String.ofList token.stem := by
    have hsuffix : ∀ c ∈ token.suffix.toList, (c = 'l' || c = 'L') = true := by
      have hsuffixed := token.suffixed
      simp only [List.mem_cons, List.not_mem_nil, or_false] at hsuffixed
      intro c hc
      obtain hnone | hl | hL := hsuffixed
      · rw [hnone] at hc
        cases hc
      · rw [hl] at hc
        cases List.mem_singleton.1 hc
        rfl
      · rw [hL] at hc
        cases List.mem_singleton.1 hc
        rfl
    rw [IntegerToken.text, String.toList_ofList, dropEnd_append (stem_no_suffix token) hsuffix]
  rw [intLiteral, octalDigits?_text]
  by_cases hbase : token.base = .octal
  · rw [if_pos hbase, Option.bind_some, octalValue?_digits token hbase]
    by_cases hstays : token.StaysOctal
    · rw [if_pos hstays, if_neg (fun h => h.2 hstays)]
      exact hstem
    · rw [if_neg hstays, if_pos ⟨hbase, hstays⟩]
  · rw [if_neg hbase, if_neg (fun h => hbase h.1)]
    exact hstem

/-- The written literal stands for the number of the token, unless that is left octal: then it is no
literal. -/
theorem integerValue?_intLiteral :
    integerValue? (intLiteral token.text).toList =
      if token.StaysOctal then none else some token.value := by
  rw [intLiteral_text]
  by_cases hbase : token.base = .octal
  · by_cases hstays : token.StaysOctal
    · rw [if_neg (fun h => h.2 hstays), String.toList_ofList, integerValue?_stem, if_pos hbase,
        if_pos hstays]
    · rw [if_pos ⟨hbase, hstays⟩, integerValue?_toString, if_neg hstays]
  · rw [if_neg (fun h => hbase h.1), String.toList_ofList, integerValue?_stem, if_neg hbase,
      if_neg (fun h => hbase h.1)]

/-- An integer becomes a literal of C# for the same number if and only if it is not left octal. If
it is, what is written is no literal of C# at all. -/
theorem integer_keeps_value_iff (token : IntegerToken) :
    (integerValue? (intLiteral token.text).toList = some token.value ↔ ¬ token.StaysOctal) ∧
      (integerValue? (intLiteral token.text).toList = none ↔ token.StaysOctal) := by
  rw [integerValue?_intLiteral]
  by_cases hstays : token.StaysOctal <;> simp [hstays]

/-- The octal digits one and seven with a suffix. -/
def suffixedOctal : IntegerToken where
  base := .octal
  letter := some 'o'
  first := (false, ⟨'1', rfl⟩)
  rest := [(false, ⟨'7', rfl⟩)]
  suffix := some 'L'
  marked := List.mem_cons_self
  bare := nofun
  suffixed := List.mem_cons_of_mem _ (List.mem_cons_of_mem _ List.mem_cons_self)

/-- Fifteen in octal with a suffix is left octal, which no literal of C# is. -/
theorem suffixedOctal_lost :
    suffixedOctal.text = "0o17L" ∧ suffixedOctal.value = 15 ∧ intLiteral "0o17L" = "0o17" ∧
      integerValue? "0o17".toList = none := by
  decide +kernel

end PythonToCSharp.CSharp
