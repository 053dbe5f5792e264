import PythonToCSharp.Python.Tree

/-!
Python's literals as C# literals.

Integers keep their spelling, apart from octal ones, which C# has no spelling for and which become
decimal. A float gets a digit behind its point. A string is written between double quotes: raw ones
as verbatim strings, in which a quote is written twice, the others with the escapes that the two
languages share left alone.
-/

namespace PythonToCSharp.CSharp

open Python (StringLiteral)

/-! ## Numbers -/

def octalDigit? (c : Char) : Option Nat :=
  if '0' ≤ c ∧ c ≤ '7' then some (c.toNat - '0'.toNat) else none

/-- The value of octal digits, read from the left on top of `value`. -/
def octalFrom : Nat → List Char → Option Nat
  | value, [] => some value
  | value, c :: cs => (octalDigit? c).bind fun digit => octalFrom (8 * value + digit) cs

/-- Octal numbers are converted when they are below this bound. -/
def octalBound : Nat := Nat.pow 2 128

/-- The value of at least one octal digit, a plus sign allowed before it, if it is below the bound.
-/
def octalValue? (cs : List Char) : Option Nat :=
  let digits := match cs with
    | '+' :: rest => rest
    | cs => cs
  if digits.isEmpty then none else (octalFrom 0 digits).filter (· < octalBound)

/-- The digits behind the mark of an octal number, without the underscores between them. -/
def octalDigits? : List Char → Option (List Char)
  | '0' :: mark :: rest => if mark = 'o' ∨ mark = 'O' then some (rest.filter (· != '_')) else none
  | _ => none

/-- A text without the characters at its end of which `p` holds. -/
def dropEnd (p : Char → Bool) (cs : List Char) : List Char :=
  (cs.reverse.dropWhile p).reverse

/-- An integer literal: octal ones in decimal, the others without the suffix `l` or `L`. -/
def intLiteral (text : String) : String :=
  match (octalDigits? text.toList).bind octalValue? with
  | some value => toString value
  | none => String.ofList (dropEnd (fun c => c = 'l' || c = 'L') text.toList)

/-- A zero behind the first point, unless a digit stands there. -/
def completePoint : List Char → List Char
  | [] => []
  | c :: cs =>
    if c = '.' then
      match cs with
      | [] => ['.', '0']
      | d :: rest => if d.isDigit then '.' :: d :: rest else '.' :: '0' :: d :: rest
    else c :: completePoint cs

def floatLiteral (text : String) : String :=
  String.ofList (completePoint text.toList)

def imaginaryLiteral (text : String) : String :=
  let magnitude := dropEnd (fun c => c = 'j' || c = 'J') text.toList
  if magnitude.any fun c => c = '.' || c = 'e' || c = 'E' then
    floatLiteral (String.ofList magnitude)
  else intLiteral (String.ofList magnitude)

/-! ## Strings -/

/-- A body with its escapes, made fit for a string between double quotes. An escaped single quote
needs no escape, a backslash before a line feed joins two lines, and other escapes stay. -/
def escapeBody : List Char → List Char
  | [] => []
  | ['\\'] => ['\\', '\\']
  | '\\' :: c :: cs =>
    if c = '\'' then '\'' :: escapeBody cs
    else if c = '\n' then escapeBody cs
    else '\\' :: c :: escapeBody cs
  | c :: cs =>
    if c = '"' then '\\' :: '"' :: escapeBody cs
    else if c = '\n' then '\\' :: 'n' :: escapeBody cs
    else if c = '\r' then '\\' :: 'r' :: escapeBody cs
    else if c = '\t' then '\\' :: 't' :: escapeBody cs
    else c :: escapeBody cs

/-- A body made fit for a verbatim string: each quote twice. -/
def doubleQuotes : List Char → List Char
  | [] => []
  | c :: cs => if c = '"' then '"' :: '"' :: doubleQuotes cs else c :: doubleQuotes cs

def interpolatedSegment (body : String) (raw : Bool) : String :=
  String.ofList (if raw then doubleQuotes body.toList else escapeBody body.toList)

def stringLiteral (literal : StringLiteral) : String :=
  (if literal.raw then "@\"" else "\"") ++ interpolatedSegment literal.body literal.raw ++ "\""

end PythonToCSharp.CSharp
