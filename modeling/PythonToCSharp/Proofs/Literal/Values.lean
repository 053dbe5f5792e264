import Mathlib.Algebra.Group.Nat.Defs
import PythonToCSharp.Proofs.Literal.Quotes
import PythonToCSharp.Text.Digits

/-!
What string literals stand for.

Python and C# read escapes by the same scheme, with different tables: `\x` takes two digits in one
and up to four in the other. `Python.bodyPoints?` reads the body of a Python string,
`CSharp.regularUnits?` a regular C# string. A body is given by its pieces, and `Garbled` says which
sequences of pieces do not keep their value in the literal that is written.
-/

namespace PythonToCSharp.Literal

open Text (hexValue? valueOf)

/-! ## Digits -/

/-- Whether a character is a hexadecimal digit. -/
def isHex (c : Char) : Bool :=
  (hexValue? c).isSome

/-- A hexadecimal digit. -/
abbrev HexDigit := { c : Char // isHex c = true }

/-- Digits as they are written. -/
def spelled (digits : List HexDigit) : List Char :=
  digits.map Subtype.val

/-- The number that digits stand for. -/
def codeOf (digits : List HexDigit) : Nat :=
  valueOf 16 (spelled digits)

/-- The hexadecimal digits that stand first, at most so many of them, and what stands behind. -/
def hexPrefix : Nat → List Char → List Char × List Char
  | 0, cs => ([], cs)
  | _ + 1, [] => ([], [])
  | n + 1, c :: cs => if isHex c then (c :: (hexPrefix n cs).1,
      (hexPrefix n cs).2) else ([], c :: cs)

theorem hexValue?_lt {c : Char} {n : Nat} (h : hexValue? c = some n) : n < 16 := by
  -- the distance to the first of ten or six characters in a row
  have hrange {first last : Char} (hc : c ≤ last) :
      c.toNat - first.toNat ≤ last.toNat - first.toNat :=
    Nat.sub_le_sub_right (UInt32.le_iff_toNat_le.1 hc) _
  unfold hexValue? at h
  split_ifs at h with hdigit hlower hupper
  · cases h
    have hc : c ≤ '9' := of_decide_eq_true (Bool.and_eq_true_iff.1 hdigit).2
    exact Nat.lt_of_le_of_lt (hrange hc) (by decide)
  · cases h
    have hc : c ≤ 'f' := of_decide_eq_true (Bool.and_eq_true_iff.1 hlower).2
    exact Nat.lt_of_le_of_lt (Nat.add_le_add_right (hrange hc) 10) (by decide)
  · cases h
    have hc : c ≤ 'F' := of_decide_eq_true (Bool.and_eq_true_iff.1 hupper).2
    exact Nat.lt_of_le_of_lt (Nat.add_le_add_right (hrange hc) 10) (by decide)

/-- Digits are in ASCII. -/
theorem toNat_lt_of_isHex {c : Char} (h : isHex c = true) : c.toNat < 128 := by
  have hbelow {last : Char} (hc : c ≤ last) (hlast : last.toNat < 128) : c.toNat < 128 :=
    Nat.lt_of_le_of_lt (UInt32.le_iff_toNat_le.1 hc) hlast
  unfold isHex hexValue? at h
  split_ifs at h with hdigit hlower hupper
  · exact hbelow (of_decide_eq_true (Bool.and_eq_true_iff.1 hdigit).2 : c ≤ '9') (by decide)
  · exact hbelow (of_decide_eq_true (Bool.and_eq_true_iff.1 hlower).2 : c ≤ 'f') (by decide)
  · exact hbelow (of_decide_eq_true (Bool.and_eq_true_iff.1 hupper).2 : c ≤ 'F') (by decide)
  · cases h

theorem valueOf_lt (digits : List Char) : valueOf 16 digits < 16 ^ digits.length := by
  -- digits behind a value below `16 ^ n` give one below `16 ^ (n + digits.length)`
  have hfold (n value : Nat) (hv : value < 16 ^ n) :
      digits.foldl (fun value c => 16 * value + (hexValue? c).getD 0) value <
        16 ^ (n + digits.length) := by
    induction digits generalizing n value with
    | nil => exact hv
    | cons c digits ih =>
      have hc : (hexValue? c).getD 0 < 16 := by
        cases h : hexValue? c with
        | none => decide
        | some d => exact hexValue?_lt h
      have hnext : 16 * value + (hexValue? c).getD 0 < 16 ^ (n + 1) := by
        rw [Nat.pow_succ]
        omega
      rw [List.length_cons, ← Nat.add_assoc, Nat.add_right_comm]
      exact ih (n + 1) _ hnext
  have hall := hfold 0 0 (by decide)
  rwa [Nat.zero_add] at hall

theorem hexPrefix_spelled (digits : List HexDigit) (rest : List Char) (n : Nat) :
    hexPrefix (digits.length + n) (spelled digits ++ rest) =
      (spelled digits ++ (hexPrefix n rest).1, (hexPrefix n rest).2) := by
  induction digits with
  | nil =>
    rw [List.length_nil, Nat.zero_add]
    rfl
  | cons digit digits ih =>
    rw [List.length_cons, Nat.add_right_comm]
    show hexPrefix (digits.length + n + 1) (digit.val :: (spelled digits ++ rest)) = _
    rw [hexPrefix, if_pos digit.property, ih]
    rfl

theorem hexPrefix_plain {c : Char} (hc : isHex c = false) (n : Nat) (cs : List Char) :
    hexPrefix n (c :: cs) = ([], c :: cs) := by
  cases n with
  | zero => rfl
  | succ n =>
    rw [hexPrefix, hc]
    rfl

theorem length_hexPrefix_le (n : Nat) (cs : List Char) : (hexPrefix n cs).2.length ≤ cs.length := by
  induction n generalizing cs with
  | zero => exact Nat.le_refl _
  | succ n ih =>
    cases cs with
    | nil => exact Nat.le_refl _
    | cons c cs =>
      rw [hexPrefix]
      split
      · exact Nat.le_succ_of_le (ih cs)
      · exact Nat.le_refl _

/-! ## Escapes -/

/-- The last code point. -/
def lastPoint : Nat := 0x10FFFF

/-- The escapes of a language: what a letter behind the backslash stands for, and how many digits a
letter takes, at least and at most. -/
structure Escapes where
  short : Char → Option Nat
  digits : Char → Option (Nat × Nat)

namespace Escapes

variable {escapes : Escapes} {c : Char}

/-- The code point of the escape behind a backslash, and what stands behind the escape. -/
def read (escapes : Escapes) : List Char → Option (Nat × List Char)
  | [] => none
  | c :: rest =>
    match escapes.short c with
    | some point => some (point, rest)
    | none => (escapes.digits c).bind fun (least, most) =>
      let (digits, rest) := hexPrefix most rest
      if least ≤ digits.length ∧ valueOf 16 digits ≤
        lastPoint then some (valueOf 16 digits, rest) else none

theorem read_short {point : Nat} (h : escapes.short c = some point) (rest : List Char) :
    escapes.read (c :: rest) = some (point, rest) := by
  rw [read, h]

/-- Digits are read if there are enough of them and they give a code point. -/
theorem read_digits {least most : Nat} (hs : escapes.short c = none)
    (hd : escapes.digits c = some (least, most)) {digits rest behind : List Char}
    (hp : hexPrefix most rest = (digits, behind)) (hl : least ≤ digits.length)
    (hv : valueOf 16 digits ≤ lastPoint) :
    escapes.read (c :: rest) = some (valueOf 16 digits, behind) := by
  simp only [read, hs, hd, Option.bind_some, hp]
  exact if_pos ⟨hl, hv⟩

theorem length_read_lt {cs rest : List Char} {point : Nat}
    (h : escapes.read cs = some (point, rest)) : rest.length < cs.length := by
  cases cs with
  | nil => cases h
  | cons c cs =>
    rw [read] at h
    split at h
    · cases h
      exact Nat.lt_succ_self _
    · obtain ⟨⟨least, most⟩, -, hread⟩ := Option.bind_eq_some_iff.1 h
      split at hread
      cases (Option.ite_none_right_eq_some.1 hread).2
      exact Nat.lt_succ_of_le (length_hexPrefix_le _ cs)

/-- A letter that takes a fixed number of digits leaves the digits behind them alone. -/
theorem read_exactly {digits : List HexDigit} (hs : escapes.short c = none)
    (hd : escapes.digits c = some (digits.length, digits.length)) (hv : codeOf digits ≤ lastPoint)
    (rest : List Char) :
    escapes.read (c :: (spelled digits ++ rest)) = some (codeOf digits, rest) := by
  refine read_digits hs hd ?_ (Nat.le_of_eq (List.length_map _).symm) hv
  rw [← Nat.add_zero digits.length, hexPrefix_spelled, hexPrefix, List.append_nil]

end Escapes

/-! ## Reading step by step -/

/-- What a text stands for, from step to step until `stop` is left. A step takes at least one
character. -/
def readAll (step : List Char → Option (List Nat × List Char)) (stop cs : List Char) :
    Option (List Nat) :=
  if cs = stop then some []
  else
    match step cs with
    | none => none
    | some (units, rest) =>
      if rest.length < cs.length then (readAll step stop rest).map (units ++ ·) else none
termination_by cs.length

section ReadAll

variable {step : List Char → Option (List Nat × List Char)} {stop cs rest : List Char}
  {units : List Nat}

theorem readAll_stop (step : List Char → Option (List Nat × List Char)) (stop : List Char) :
    readAll step stop stop = some [] := by
  rw [readAll, if_pos rfl]

theorem readAll_step (hne : cs ≠ stop) (hs : step cs = some (units, rest))
    (hlt : rest.length < cs.length) :
    readAll step stop cs = (readAll step stop rest).map (units ++ ·) := by
  rw [readAll, if_neg hne, hs]
  exact if_pos hlt

theorem readAll_fault (hne : cs ≠ stop) (hs : step cs = none) : readAll step stop cs = none := by
  rw [readAll, if_neg hne, hs]

end ReadAll

end PythonToCSharp.Literal

namespace PythonToCSharp.Python

open Literal (Escapes HexDigit codeOf lastPoint readAll spelled)

/-! ## Bodies -/

/-- What a letter behind a backslash stands for. -/
def shortEscape? : Char → Option Nat
  | '\\' => some 92
  | '\'' => some 39
  | '"' => some 34
  | 'a' => some 7
  | 'b' => some 8
  | 'f' => some 12
  | 'n' => some 10
  | 'r' => some 13
  | 't' => some 9
  | 'v' => some 11
  | _ => none

/-- The escapes of strings that are not raw. -/
def escapes : Escapes where
  short := shortEscape?
  digits
    | 'x' => some (2, 2)
    | 'u' => some (4, 4)
    | 'U' => some (8, 8)
    | _ => none

/-- The code points of what stands first in a body, and the rest. A backslash before a line end
joins two lines. -/
def bodyStep : List Char → Option (List Nat × List Char)
  | [] => none
  | '\\' :: '\n' :: rest => some ([], rest)
  | '\\' :: '\r' :: '\n' :: rest => some ([], rest)
  | '\\' :: rest => (escapes.read rest).map fun (point, rest) => ([point], rest)
  | c :: rest => some ([c.toNat], rest)

/-- The code points that the body of a string stands for. -/
def bodyPoints? (body : List Char) : Option (List Nat) :=
  readAll bodyStep [] body

/-- The letter of an escape with four or with eight digits. -/
def wideLetter (long : Bool) : Char :=
  if long then 'U' else 'u'

/-- A piece of the body of a string that is not raw. -/
inductive Piece where
  /-- A character by itself, a line feed among them. -/
  | plain (c : Char) (unescaped : c ≠ '\\')
  /-- A letter behind a backslash. -/
  | short (c : Char) (point : Nat) (known : shortEscape? c = some point)
  /-- `\xhh` -/
  | byte (high low : HexDigit)
  /-- `\uXXXX` or `\UXXXXXXXX` -/
  | wide (long : Bool) (digits : List HexDigit) (count : digits.length = if long then 8 else 4)
      (inRange : codeOf digits ≤ lastPoint)
  /-- A backslash before a line end. -/
  | joined (withReturn : Bool)

namespace Piece

/-- A piece as it is written. -/
def source : Piece → List Char
  | .plain c _ => [c]
  | .short c _ _ => ['\\', c]
  | .byte high low => '\\' :: 'x' :: spelled [high, low]
  | .wide long digits _ _ => '\\' :: wideLetter long :: spelled digits
  | .joined withReturn => if withReturn then ['\\', '\r', '\n'] else ['\\', '\n']

/-- The code points that a piece stands for. -/
def points : Piece → List Nat
  | .plain c _ => [c.toNat]
  | .short _ point _ => [point]
  | .byte high low => [codeOf [high, low]]
  | .wide _ digits _ _ => [codeOf digits]
  | .joined _ => []

end Piece

/-- The body that consists of the pieces. -/
def bodyOf (pieces : List Piece) : List Char :=
  pieces.flatMap Piece.source

/-- Up to four digits give a code point. -/
theorem valueOf_le_lastPoint {digits : List Char} (h : digits.length ≤ 4) :
    Text.valueOf 16 digits ≤ lastPoint := by
  have hlt := Literal.valueOf_lt digits
  have hpow : 16 ^ digits.length ≤ 16 ^ 4 := Nat.pow_le_pow_right (by decide) h
  have hlast : 16 ^ 4 ≤ lastPoint := by decide
  omega

theorem bodyStep_backslash {c : Char} (hf : c ≠ '\n') (hr : c ≠ '\r') (rest : List Char) :
    bodyStep ('\\' :: c :: rest) = (escapes.read (c :: rest)).map fun (point, rest) =>
      ([point], rest) := by
  rw [bodyStep.eq_4 (c :: rest)]
  · intro cs h
    exact hf (List.cons.inj h).1
  · intro cs h
    exact hr (List.cons.inj h).1

/-- A piece stands for its code points, whatever stands behind it. -/
theorem bodyStep_source (piece : Piece) (rest : List Char) :
    bodyStep (piece.source ++ rest) = some (piece.points, rest) := by
  cases piece with
  | plain c unescaped =>
    show bodyStep (c :: rest) = _
    rw [bodyStep.eq_5 c rest (fun _ h _ => unescaped h) (fun _ h _ => unescaped h) unescaped]
    rfl
  | short c point known =>
    have hf : c ≠ '\n' := by
      rintro rfl
      cases known
    have hr : c ≠ '\r' := by
      rintro rfl
      cases known
    show bodyStep ('\\' :: c :: rest) = _
    rw [bodyStep_backslash hf hr, Escapes.read_short known]
    rfl
  | byte high low =>
    have hpoint : codeOf [high, low] ≤ lastPoint := valueOf_le_lastPoint (Nat.le_add_right 2 2)
    have hread :
        escapes.read ('x' :: (spelled [high, low] ++ rest)) = some (codeOf [high, low], rest) :=
      Escapes.read_exactly rfl rfl hpoint rest
    show bodyStep ('\\' :: 'x' :: (spelled [high, low] ++ rest)) = _
    rw [bodyStep_backslash (by decide) (by decide), hread]
    rfl
  | wide long digits count inRange =>
    have hread : escapes.read (wideLetter long :: (spelled digits ++ rest)) =
        some (codeOf digits, rest) := by
      refine Escapes.read_exactly ?_ ?_ inRange rest
      · cases long <;> rfl
      · rw [count]
        cases long <;> rfl
    show bodyStep ('\\' :: wideLetter long :: (spelled digits ++ rest)) = _
    rw [bodyStep_backslash (by cases long <;> decide) (by cases long <;> decide), hread]
    rfl
  | joined withReturn => cases withReturn <;> rfl

theorem source_ne_nil (piece : Piece) : piece.source ≠ [] := by
  cases piece with
  | joined withReturn => cases withReturn <;> exact List.cons_ne_nil _ _
  | _ => exact List.cons_ne_nil _ _

/-- A body stands for the code points of its pieces. -/
theorem bodyPoints?_bodyOf (pieces : List Piece) :
    bodyPoints? (bodyOf pieces) = some (pieces.flatMap Piece.points) := by
  induction pieces with
  | nil => exact Literal.readAll_stop _ _
  | cons piece rest ih =>
    have hne := source_ne_nil piece
    have hstep : readAll bodyStep [] (piece.source ++ bodyOf rest) =
        (readAll bodyStep [] (bodyOf rest)).map (piece.points ++ ·) := by
      refine Literal.readAll_step ?_ (bodyStep_source piece _) ?_
      · exact fun h => hne (List.append_eq_nil_iff.1 h).1
      · rw [List.length_append]
        exact Nat.lt_add_of_pos_left (List.length_pos_iff.2 hne)
    have hrest : readAll bodyStep [] (bodyOf rest) = some (rest.flatMap Piece.points) := ih
    show readAll bodyStep [] (piece.source ++ bodyOf rest) = _
    rw [hstep, hrest]
    rfl

end PythonToCSharp.Python

namespace PythonToCSharp.CSharp

open Literal (Escapes HexDigit codeOf hexPrefix isHex lastPoint readAll spelled)
open Python (Piece bodyOf wideLetter)

/-! ## Regular strings -/

/-- The code units of a code point in UTF-16. -/
def utf16 (point : Nat) : List Nat :=
  if point < 0x10000 then [point]
  else [0xD800 + (point - 0x10000) / 0x400, 0xDC00 + (point - 0x10000) % 0x400]

theorem utf16_of_lt {point : Nat} (h : point < 0x10000) : utf16 point = [point] :=
  if_pos h

/-- Up to four digits give one code unit. -/
theorem utf16_valueOf {digits : List Char} (h : digits.length ≤ 4) :
    utf16 (Text.valueOf 16 digits) = [Text.valueOf 16 digits] :=
  utf16_of_lt (Nat.lt_of_lt_of_le (Literal.valueOf_lt digits) (Nat.pow_le_pow_right (by decide) h))

/-- What a letter behind a backslash stands for. -/
def simpleEscape? : Char → Option Nat
  | '\\' => some 92
  | '\'' => some 39
  | '"' => some 34
  | '0' => some 0
  | 'a' => some 7
  | 'b' => some 8
  | 'f' => some 12
  | 'n' => some 10
  | 'r' => some 13
  | 't' => some 9
  | 'v' => some 11
  | _ => none

/-- The escapes of regular strings. -/
def escapes : Escapes where
  short := simpleEscape?
  digits
    | 'x' => some (1, 4)
    | 'u' => some (4, 4)
    | 'U' => some (8, 8)
    | _ => none

/-- The line ends beyond ASCII. -/
def isSeparator (c : Char) : Bool :=
  c = '\u0085' || c = '\u2028' || c = '\u2029'

/-- The code units of what stands first in a regular string, and the rest. A line end must not stand
there. -/
def regularStep : List Char → Option (List Nat × List Char)
  | [] => none
  | '\\' :: rest => (escapes.read rest).map fun (point, rest) => (utf16 point, rest)
  | c :: rest =>
    if c = '"' ∨ c = '\n' ∨ c = '\r' ∨ isSeparator c then none else some (utf16 c.toNat, rest)

/-- The code units that the text of a regular string stands for, if it is one. -/
def regularUnits? : List Char → Option (List Nat)
  | '"' :: rest => readAll regularStep ['"'] rest
  | _ => none

theorem regularStep_read {rest behind : List Char} {point : Nat}
    (h : escapes.read rest = some (point, behind)) :
    regularStep ('\\' :: rest) = some (utf16 point, behind) := by
  rw [regularStep, h]
  rfl

theorem regularStep_plain {c : Char} (hb : c ≠ '\\') (rest : List Char) :
    regularStep (c :: rest) =
      if c = '"' ∨ c = '\n' ∨ c = '\r' ∨ isSeparator c then none else
        some (utf16 c.toNat, rest) := by
  rw [regularStep.eq_3 c rest hb]

/-! ## Pieces in a literal -/

/-- A piece as the literal has it. -/
def writtenPiece : Piece → List Char
  | .plain c _ => writtenChar c
  | .short c _ _ => writtenEscape c
  | .byte high low => '\\' :: 'x' :: spelled [high, low]
  | .wide long digits _ _ => '\\' :: wideLetter long :: spelled digits
  | .joined withReturn => if withReturn then ['\\', '\r', '\\', 'n'] else []

/-- The pieces in a literal, with the closing quote. -/
def textOf (pieces : List Piece) : List Char :=
  pieces.flatMap writtenPiece ++ ['"']

/-- The code units of the pieces. -/
def unitsOf (pieces : List Piece) : List Nat :=
  (pieces.flatMap Piece.points).flatMap utf16

theorem textOf_cons (piece : Piece) (rest : List Piece) :
    textOf (piece :: rest) = writtenPiece piece ++ textOf rest := by
  rw [textOf, List.flatMap_cons, List.append_assoc, textOf]

theorem unitsOf_cons (piece : Piece) (rest : List Piece) :
    unitsOf (piece :: rest) = piece.points.flatMap utf16 ++ unitsOf rest := by
  rw [unitsOf, List.flatMap_cons, List.flatMap_append, unitsOf]

theorem writtenChar_hexDigit {c : Char} (h : isHex c = true) : writtenChar c = [c] := by
  have hne {d : Char} (hd : isHex d = false) : c ≠ d := by
    rintro rfl
    rw [hd] at h
    cases h
  rw [writtenChar, if_neg (hne (by decide)), if_neg (hne (by decide)), if_neg (hne (by decide)),
    if_neg (hne (by decide))]

theorem escapeBody_spelled (digits : List HexDigit) (rest : List Char) :
    escapeBody (spelled digits ++ rest) = spelled digits ++ escapeBody rest := by
  induction digits with
  | nil => rfl
  | cons digit digits ih =>
    have hb : digit.val ≠ '\\' := by
      intro h
      have hdigit := digit.property
      rw [h] at hdigit
      revert hdigit
      decide
    show escapeBody (digit.val :: (spelled digits ++ rest)) = _
    rw [escapeBody_cons hb, ih, writtenChar_hexDigit digit.property]
    rfl

theorem escapeBody_source (piece : Piece) (rest : List Char) :
    escapeBody (piece.source ++ rest) = writtenPiece piece ++ escapeBody rest := by
  cases piece with
  | plain c unescaped => exact escapeBody_cons unescaped rest
  | short c point known => exact escapeBody_backslash c rest
  | byte high low =>
    show escapeBody ('\\' :: 'x' :: (spelled [high, low] ++ rest)) = _
    rw [escapeBody_backslash, escapeBody_spelled]
    rfl
  | wide long digits count inRange =>
    show escapeBody ('\\' :: wideLetter long :: (spelled digits ++ rest)) = _
    rw [escapeBody_backslash, escapeBody_spelled]
    cases long <;> rfl
  | joined withReturn =>
    cases withReturn with
    | true =>
      show escapeBody ('\\' :: '\r' :: '\n' :: rest) = _
      rw [escapeBody_backslash, escapeBody_cons (by decide)]
      rfl
    | false => exact escapeBody_backslash '\n' rest

theorem escapeBody_bodyOf (pieces : List Piece) :
    escapeBody (bodyOf pieces) ++ ['"'] = textOf pieces := by
  induction pieces with
  | nil => rfl
  | cons piece rest ih =>
    rw [textOf_cons, ← ih, ← List.append_assoc, ← escapeBody_source]
    rfl

/-! ## What goes wrong -/

/-- The next character that is written is a hexadecimal digit. -/
inductive MeetsDigit : List Piece → Prop where
  | plain {c : Char} {unescaped : c ≠ '\\'} {rest : List Piece} :
    isHex c = true → MeetsDigit (.plain c unescaped :: rest)
  | joined {rest : List Piece} : MeetsDigit rest → MeetsDigit (.joined false :: rest)

/-- The piece does not keep its value before the others: a digit behind `\xhh` is read as part of
it, two lines are joined at a line end with a carriage return, or a line end beyond ASCII stands by
itself. -/
inductive Spoiled : Piece → List Piece → Prop where
  | digit {high low : HexDigit} {rest : List Piece} :
      MeetsDigit rest → Spoiled (.byte high low) rest
  | joined {rest : List Piece} : Spoiled (.joined true) rest
  | separator {c : Char} {unescaped : c ≠ '\\'} {rest : List Piece} :
    isSeparator c = true → Spoiled (.plain c unescaped) rest

/-- Some piece does not keep its value before those behind it. -/
def Garbled : List Piece → Prop
  | [] => False
  | piece :: rest => Spoiled piece rest ∨ Garbled rest

/-! ### Digits behind an escape -/

/-- A piece that is written without a digit in front starts with a character that is none. -/
theorem exists_head_of_not_meetsDigit {piece : Piece} {rest : List Piece}
    (h : ¬MeetsDigit (piece :: rest))
    (hj : piece ≠ .joined false) : ∃ c cs, writtenPiece piece = c :: cs ∧ isHex c = false := by
  cases piece with
  | plain c unescaped =>
    have hc : isHex c = false := Bool.eq_false_iff.2 fun hc => h (.plain hc)
    simp only [writtenPiece, writtenChar]
    split_ifs
    · exact ⟨_, _, rfl, by decide⟩
    · exact ⟨_, _, rfl, by decide⟩
    · exact ⟨_, _, rfl, by decide⟩
    · exact ⟨_, _, rfl, by decide⟩
    · exact ⟨_, _, rfl, hc⟩
  | short c point known =>
    simp only [writtenPiece, writtenEscape]
    split_ifs with hquote hfeed
    · exact ⟨_, _, rfl, by decide⟩
    · subst hfeed
      cases known
    · exact ⟨_, _, rfl, by decide⟩
  | byte high low => exact ⟨_, _, rfl, by decide⟩
  | wide long digits count inRange => exact ⟨_, _, rfl, by decide⟩
  | joined withReturn =>
    cases withReturn with
    | true => exact ⟨_, _, rfl, by decide⟩
    | false => exact absurd rfl hj

theorem hexPrefix_textOf_of_not_meetsDigit (n : Nat) {pieces : List Piece}
    (h : ¬MeetsDigit pieces) : hexPrefix n (textOf pieces) = ([], textOf pieces) := by
  induction pieces with
  | nil => exact Literal.hexPrefix_plain (by decide) n []
  | cons piece rest ih =>
    by_cases hj : piece = .joined false
    · subst hj
      exact ih fun hrest => h (.joined hrest)
    · obtain ⟨c, cs, hwritten, hc⟩ := exists_head_of_not_meetsDigit h hj
      rw [textOf_cons, hwritten]
      exact Literal.hexPrefix_plain hc n _

/-- Digits are taken off a literal together with the pieces that they are, each of which stands for
one code unit. -/
theorem exists_hexPrefix_textOf (n : Nat) (pieces : List Piece) : ∃ digits behind,
    hexPrefix n (textOf pieces) = (digits, textOf behind) ∧ digits.length ≤ n ∧
      (unitsOf pieces).length = digits.length + (unitsOf behind).length ∧
        behind.length ≤ pieces.length ∧
      (MeetsDigit pieces → 0 < n → 0 < digits.length) := by
  induction pieces generalizing n with
  | nil =>
    have hnone : ¬MeetsDigit [] := nofun
    exact ⟨[], [], hexPrefix_textOf_of_not_meetsDigit n hnone,
      Nat.zero_le n, by simp, Nat.le_refl 0, fun h => absurd h hnone⟩
  | cons piece rest ih =>
    by_cases hm : MeetsDigit (piece :: rest)
    · cases hm with
      | @plain c unescaped _ hc =>
        cases n with
        | zero => exact ⟨[], _, rfl,
            Nat.le_refl 0, by simp, Nat.le_refl _, fun _ h => absurd h (Nat.lt_irrefl 0)⟩
        | succ n =>
          obtain ⟨digits, behind, hprefix, hle, hunits, hsize, -⟩ := ih n
          refine ⟨c :: digits, behind, ?_, Nat.succ_le_succ hle, ?_, Nat.le_succ_of_le hsize,
            fun _ _ => Nat.succ_pos _⟩
          · rw [textOf_cons, writtenPiece, writtenChar_hexDigit hc]
            show hexPrefix (n + 1) (c :: textOf rest) = _
            rw [hexPrefix, if_pos hc, hprefix]
          · have hone : utf16 c.toNat = [c.toNat] :=
              utf16_of_lt (Nat.lt_trans (Literal.toNat_lt_of_isHex hc) (by decide))
            rw [unitsOf_cons, Piece.points, List.flatMap_singleton, hone, List.singleton_append,
              List.length_cons, hunits, List.length_cons, Nat.add_right_comm]
      | joined hrest =>
        obtain ⟨digits, behind, hprefix, hle, hunits, hsize, hsome⟩ := ih n
        exact ⟨digits, behind, hprefix, hle, hunits, Nat.le_succ_of_le hsize, fun _ => hsome hrest⟩
    · exact ⟨[], piece :: rest, hexPrefix_textOf_of_not_meetsDigit n hm,
        Nat.zero_le n, by simp, Nat.le_refl _, fun h => absurd h hm⟩

/-! ### Reading the pieces -/

/-- What the pieces stand for in a literal. -/
def readPieces (pieces : List Piece) : Option (List Nat) :=
  readAll regularStep ['"'] (textOf pieces)

theorem length_regularStep_lt {cs rest : List Char} {units : List Nat}
    (h : regularStep cs = some (units, rest)) : rest.length < cs.length := by
  unfold regularStep at h
  split at h
  · cases h
  · obtain ⟨⟨point, behind⟩, hread, heq⟩ := Option.map_eq_some_iff.1 h
    cases heq
    exact Nat.lt_succ_of_lt (Escapes.length_read_lt hread)
  · cases (Option.ite_none_left_eq_some.1 h).2
    exact Nat.lt_succ_self _

theorem readPieces_step {pieces behind : List Piece} {units : List Nat}
    (h : regularStep (textOf pieces) = some (units, textOf behind)) :
    readPieces pieces = (readPieces behind).map (units ++ ·) := by
  refine Literal.readAll_step ?_ h (length_regularStep_lt h)
  intro hstop
  rw [hstop] at h
  cases h

theorem readPieces_fault {pieces : List Piece} {c : Char} {cs : List Char}
    (ht : textOf pieces = c :: cs)
    (hc : c ≠ '"') (h : regularStep (c :: cs) = none) : readPieces pieces = none := by
  rw [readPieces, ht]
  exact Literal.readAll_fault (fun heq => hc (List.cons.inj heq).1) h

theorem regularStep_writtenChar {c : Char} (hb : c ≠ '\\') (hs : isSeparator c = false)
    (rest : List Char) : regularStep (writtenChar c ++ rest) = some (utf16 c.toNat, rest) := by
  unfold writtenChar
  split_ifs with hquote hfeed hreturn htab
  · subst hquote
    rfl
  · subst hfeed
    rfl
  · subst hreturn
    rfl
  · subst htab
    rfl
  · show regularStep (c :: rest) = _
    rw [regularStep_plain hb, if_neg (by simp [hquote, hfeed, hreturn, hs])]

theorem simpleEscape?_of_short {c : Char} {point : Nat} (h : Python.shortEscape? c = some point) :
    simpleEscape? c = some point := by
  unfold Python.shortEscape? at h
  split at h <;> first | exact h | cases h

theorem regularStep_writtenEscape {c : Char} {point : Nat} (h : Python.shortEscape? c = some point)
    (rest : List Char) : regularStep (writtenEscape c ++ rest) = some (utf16 point, rest) := by
  unfold writtenEscape
  split_ifs with hquote hfeed
  · subst hquote
    cases h
    rfl
  · subst hfeed
    cases h
  · exact regularStep_read (Escapes.read_short (simpleEscape?_of_short h) rest)

theorem regularStep_wide {long : Bool} {digits : List HexDigit}
    (count : digits.length = if long then 8 else 4)
    (inRange : codeOf digits ≤ lastPoint) (rest : List Char) :
    regularStep ('\\' :: wideLetter long :: (spelled digits ++ rest)) =
      some (utf16 (codeOf digits), rest) := by
  refine regularStep_read (Escapes.read_exactly ?_ ?_ inRange rest)
  · cases long <;> rfl
  · rw [count]
    cases long <;> rfl

/-- `\x` takes up to two more digits than the piece has. -/
theorem regularStep_byte (high low : HexDigit) {rest digits behind : List Char}
    (hp : hexPrefix 2 rest = (digits, behind)) (hl : digits.length ≤ 2) :
    regularStep ('\\' :: 'x' :: (spelled [high, low] ++ rest)) =
      some ([Text.valueOf 16 (spelled [high, low] ++ digits)], behind) := by
  have hall : hexPrefix 4 (spelled [high, low] ++ rest) =
      (spelled [high, low] ++ digits, behind) := by
    have happend := Literal.hexPrefix_spelled [high, low] rest 2
    rwa [hp] at happend
  have hleast : 1 ≤ (spelled [high, low] ++ digits).length := Nat.succ_pos _
  have hmost : (spelled [high, low] ++ digits).length ≤ 4 := by
    rw [List.length_append]
    exact Nat.add_le_add_left hl 2
  rw [← utf16_valueOf hmost]
  exact regularStep_read
    (Escapes.read_digits rfl rfl hall hleast (Python.valueOf_le_lastPoint hmost))

/-- A piece that is not spoiled is read as it was meant. -/
theorem readPieces_sound {piece : Piece} {rest : List Piece} (h : ¬Spoiled piece rest) :
    readPieces (piece :: rest) = (readPieces rest).map (piece.points.flatMap utf16 ++ ·) := by
  cases piece with
  | plain c unescaped =>
    have hs : isSeparator c = false := Bool.eq_false_iff.2 fun hs => h (.separator hs)
    refine readPieces_step ?_
    rw [textOf_cons, writtenPiece, regularStep_writtenChar unescaped hs, Piece.points,
      List.flatMap_singleton]
  | short c point known =>
    refine readPieces_step ?_
    rw [textOf_cons, writtenPiece, regularStep_writtenEscape known, Piece.points,
      List.flatMap_singleton]
  | byte high low =>
    have hp := hexPrefix_textOf_of_not_meetsDigit 2 fun hm => h (.digit hm)
    have hunit : utf16 (codeOf [high, low]) = [codeOf [high, low]] :=
      utf16_valueOf (Nat.le_add_right 2 2)
    refine readPieces_step ?_
    rw [textOf_cons, Piece.points, List.flatMap_singleton, hunit]
    exact regularStep_byte high low hp (Nat.zero_le 2)
  | wide long digits count inRange =>
    refine readPieces_step ?_
    rw [textOf_cons, Piece.points, List.flatMap_singleton]
    exact regularStep_wide count inRange _
  | joined withReturn =>
    cases withReturn with
    | true => exact absurd .joined h
    | false =>
      -- nothing is written, and nothing is meant
      exact Option.map_id'.symm

/-- A spoiled piece is no part of a string, or is read together with pieces behind it, as one code
unit for several. -/
theorem readPieces_spoiled {piece : Piece} {rest : List Piece} (h : Spoiled piece rest) :
    readPieces (piece :: rest) = none ∨ ∃ unit behind,
      readPieces (piece :: rest) = (readPieces behind).map ([unit] ++ ·) ∧ behind.length ≤
        rest.length ∧ (unitsOf behind).length + 1 < (unitsOf (piece :: rest)).length := by
  cases h with
  | @digit high low _ hm =>
    obtain ⟨digits, behind, hprefix, hle, hunits, hsize, hsome⟩ := exists_hexPrefix_textOf 2 rest
    have hpos := hsome hm (by decide)
    have hstep : regularStep (textOf (.byte high low :: rest)) =
        some ([Text.valueOf 16 (spelled [high, low] ++ digits)], textOf behind) := by
      rw [textOf_cons]
      exact regularStep_byte high low hprefix hle
    refine .inr ⟨_, behind, readPieces_step hstep, hsize, ?_⟩
    have hunit : utf16 (codeOf [high, low]) = [codeOf [high, low]] :=
      utf16_valueOf (Nat.le_add_right 2 2)
    rw [unitsOf_cons, Piece.points, List.flatMap_singleton, hunit, List.singleton_append,
      List.length_cons]
    omega
  | joined => exact .inl (readPieces_fault (textOf_cons _ _) (by decide) rfl)
  | @separator c unescaped _ hs =>
    have hc : c = '\u0085' ∨ c = '\u2028' ∨ c = '\u2029' := by
      simpa [isSeparator, or_assoc] using hs
    refine .inl ?_
    rcases hc with rfl | rfl | rfl <;> exact readPieces_fault (textOf_cons _ _) (by decide) rfl

theorem readPieces_of_not_garbled {pieces : List Piece} (h : ¬Garbled pieces) :
    readPieces pieces = some (unitsOf pieces) := by
  induction pieces with
  | nil => exact Literal.readAll_stop _ _
  | cons piece rest ih =>
    rw [readPieces_sound fun hs => h (.inl hs), ih fun hg => h (.inr hg), unitsOf_cons,
      Option.map_some]

/-- Code units only get lost, and some do if a piece does not keep its value. -/
theorem length_readPieces {pieces : List Piece} {units : List Nat}
    (h : readPieces pieces = some units) :
    units.length ≤ (unitsOf pieces).length ∧
      (Garbled pieces → units.length < (unitsOf pieces).length) := by
  -- a spoiled piece may take several pieces with it
  induction hn : pieces.length using Nat.strongRecOn generalizing pieces units with
  | ind n ih =>
    cases pieces with
    | nil =>
      obtain rfl :
        [] = units := Option.some.inj ((Literal.readAll_stop regularStep ['"']).symm.trans h)
      exact ⟨Nat.le_refl 0, False.elim⟩
    | cons piece rest =>
      have hrest : rest.length < n := by
        rw [← hn]
        exact Nat.lt_succ_self _
      by_cases hs : Spoiled piece rest
      · rcases readPieces_spoiled hs with hnone | ⟨unit, behind, hread, hsize, hless⟩
        · rw [hnone] at h
          cases h
        · rw [hread] at h
          obtain ⟨later, hlater, rfl⟩ := Option.map_eq_some_iff.1 h
          have hle := (ih _ (Nat.lt_of_le_of_lt hsize hrest) hlater rfl).1
          rw [List.singleton_append, List.length_cons]
          omega
      · rw [readPieces_sound hs] at h
        obtain ⟨later, hlater, rfl⟩ := Option.map_eq_some_iff.1 h
        obtain ⟨hle, hlt⟩ := ih _ hrest hlater rfl
        rw [unitsOf_cons, List.length_append, List.length_append]
        exact ⟨Nat.add_le_add_left hle _,
          fun hg => Nat.add_lt_add_left (hlt (hg.resolve_left hs)) _⟩

/-- A body of characters and escapes has a value, and the literal that is written for it has the
same one if and only if no piece is garbled: no hexadecimal digit is written next behind a `\xhh`,
no backslash joins lines at a carriage return, and no line end beyond ASCII stands in the body. -/
theorem literal_keeps_value_iff (pieces : List Piece) (bytes : Bool) :
    ∃ points, Python.bodyPoints? (bodyOf pieces) = some points ∧
      (regularUnits? (stringLiteral ⟨String.ofList (bodyOf pieces), false, bytes⟩).toList =
        some (points.flatMap utf16) ↔ ¬Garbled pieces) := by
  have htext : (stringLiteral ⟨String.ofList (bodyOf pieces), false, bytes⟩).toList = '"' ::
      textOf pieces := by
    rw [← escapeBody_bodyOf]
    simp [stringLiteral, interpolatedSegment]
  refine ⟨_, Python.bodyPoints?_bodyOf pieces, ?_⟩
  rw [htext]
  show readPieces pieces = some (unitsOf pieces) ↔ _
  refine ⟨?_, readPieces_of_not_garbled⟩
  intro h hg
  exact Nat.lt_irrefl _ ((length_readPieces h).2 hg)

/-- Lines that are joined at a carriage return leave no C# string, and a digit behind `\x41` gets
into it. -/
theorem joinedLines_lost :
    (Python.bodyPoints? "a\\\r\nb".toList = some [97, 98] ∧
      stringLiteral ⟨"a\\\r\nb", false, false⟩ = "\"a\\\r\\nb\"" ∧
      regularUnits? "\"a\\\r\\nb\"".toList = none) ∧
    Python.bodyPoints? "\\x41B".toList = some [0x41, 0x42] ∧
      stringLiteral ⟨"\\x41B", false, false⟩ = "\"\\x41B\"" ∧
      regularUnits? "\"\\x41B\"".toList = some [0x41B] := by
  decide +kernel

end PythonToCSharp.CSharp
