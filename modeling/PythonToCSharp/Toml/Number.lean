import PythonToCSharp.Config.Setting
import PythonToCSharp.Toml.Text

/-!
The numbers of TOML. Single underscores may stand between digits. An integer fits into 64 bits with
a sign, and a positive number with a fraction or an exponent must not exceed the range of double
precision.
-/

namespace PythonToCSharp.Toml

open Config (Setting)
open Number (Double)
open Text (hexValue? valueOf)

/-! ## Digits -/

/-- The digits behind a digit, without the underscores between them. -/
def moreDigits (isDigit : Char → Bool) : List Char → Except Fault (List Char × List Char)
  | [] => .ok ([], [])
  | ['_'] => .error { rest := [], expected := [.digit] }
  | '_' :: c :: rest =>
    if isDigit c then do
      let (digits, rest) ← moreDigits isDigit rest
      return (c :: digits, rest)
    else .error { rest := c :: rest, expected := [.digit] }
  | c :: rest =>
    if isDigit c then do
      let (digits, rest) ← moreDigits isDigit rest
      return (c :: digits, rest)
    else .ok ([], c :: rest)

def someDigits (isDigit : Char → Bool) : List Char → Except Fault (List Char × List Char)
  | [] => .error { rest := [] }
  | c :: rest =>
    if isDigit c then do
      let (digits, rest) ← moreDigits isDigit rest
      return (c :: digits, rest)
    else .error { rest := c :: rest }

/-- A sign, if there is one; true stands for minus. -/
def sign : List Char → Bool × List Char
  | '-' :: rest => (true, rest)
  | '+' :: rest => (false, rest)
  | cs => (false, cs)

/-- A whole number with its sign. It starts with a zero only if it is one. -/
def whole (cs : List Char) : Except Fault ((Bool × List Char) × List Char) :=
  match sign cs with
  | (negative, '0' :: rest) => .ok ((negative, ['0']), rest)
  | (negative, c :: rest) =>
    if c.isDigit then Except.mapError (Fault.within .integer) do
      let (digits, rest) ← moreDigits Char.isDigit rest
      return ((negative, c :: digits), rest)
    else .error { rest := c :: rest, subject := some .integer, final := false }
  | (_, []) => .error { rest := [], subject := some .integer, final := false }

/-! ## Numbers with a fraction or an exponent -/

/-- The digits of an exponent with their sign, behind the letter. -/
def exponent (cs : List Char) : Except Fault (Int × List Char) := do
  let (negative, cs) := sign cs
  let (digits, rest) ← someDigits Char.isDigit cs
  let value : Int := valueOf 10 digits
  return (if negative then -value else value, rest)

def optionalExponent : List Char → Except Fault (Int × List Char)
  | 'e' :: rest => exponent rest
  | 'E' :: rest => exponent rest
  | cs => .ok (0, cs)

/-- The fraction and the exponent behind a whole number. -/
def decimals : List Char → Except Fault ((List Char × Int) × List Char)
  | '.' :: rest => do
    let (fraction, rest) ← (someDigits Char.isDigit rest).mapError (Fault.expecting [.digit])
    let (exponent, rest) ← optionalExponent rest
    return ((fraction, exponent), rest)
  | 'e' :: rest => do
    let (exponent, rest) ← exponent rest
    return (([], exponent), rest)
  | 'E' :: rest => do
    let (exponent, rest) ← exponent rest
    return (([], exponent), rest)
  | cs => .error { rest := cs, final := false }

/-- Infinity, or what is not a number. -/
def special (cs : List Char) : Except Fault (Setting × List Char) :=
  match sign cs with
  | (negative, 'i' :: 'n' :: 'f' :: rest) => .ok (.float (.infinite negative), rest)
  | (_, 'n' :: 'a' :: 'n' :: rest) => .ok (.float .nan, rest)
  | (_, rest) => .error { rest, final := false }

def float (cs : List Char) : Except Fault (Setting × List Char) :=
  Except.mapError (Fault.within .float) do
    let ((negative, whole), rest) ← whole cs
    let ((fraction, exponent), rest) ← decimals rest
    let value := Double.ofDecimal negative (valueOf 10 (whole ++ fraction))
      (exponent - fraction.length)
    if value = .infinite false then throw { rest := cs }
    return (.float value, rest)

/-! ## Integers -/

/-- The least number above the range of integers. -/
def integerLimit : Int := Int.ofNat (Nat.pow 2 63)

/-- An integer that was read from `cs`, if it is in range. -/
def inRange (cs : List Char) (value : Int) : Except Fault Setting :=
  if value < -integerLimit then .error { rest := cs, cause := some .tooSmall }
  else if value < integerLimit then .ok (.int value)
  else .error { rest := cs, cause := some .tooLarge }

/-- An integer to a base other than ten, of which `cs` is the text and `rest` the text behind its
first two letters. -/
def based (base : Nat) (subject : Subject) (cs rest : List Char) :
    Except Fault (Setting × List Char) := do
  let isDigit c := (hexValue? c).any (· < base)
  let (digits, rest) ← (someDigits isDigit rest).mapError (Fault.within subject)
  return (← inRange cs (valueOf base digits), rest)

def integer (cs : List Char) : Except Fault (Setting × List Char) :=
  match cs with
  | '0' :: 'x' :: rest => based 16 .hexadecimal cs rest
  | '0' :: 'o' :: rest => based 8 .octal cs rest
  | '0' :: 'b' :: rest => based 2 .binary cs rest
  | _ => do
    let ((negative, digits), rest) ← whole cs
    let magnitude : Int := valueOf 10 digits
    return (← inRange cs (if negative then -magnitude else magnitude), rest)

def number (cs : List Char) : Except Fault (Setting × List Char) :=
  orElse (float cs) fun _ => orElse (special cs) fun _ => integer cs

end PythonToCSharp.Toml
