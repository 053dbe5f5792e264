import PythonToCSharp.Config.Setting
import PythonToCSharp.Toml.Text

/-!
The dates and times of TOML: a date, a time of day, or both with or without the distance from
universal time. One stands for its text in a normal form.
-/

namespace PythonToCSharp.Toml

open Config (Setting)
open Text (valueOf)

/-- A number of exactly `count` digits. -/
def fixedDigits (count : Nat) (cs : List Char) : Except Fault (Nat × List Char) :=
  let digits := (cs.take count).takeWhile Char.isDigit
  if digits.length = count then .ok (valueOf 10 digits, cs.drop count) else .error { rest := cs }

/-- A number of two digits within bounds. -/
def twoDigits (least greatest : Nat) (cs : List Char) : Except Fault (Nat × List Char) := do
  let (value, rest) ← fixedDigits 2 cs
  if least ≤ value && value ≤ greatest then return (value, rest)
  else throw { rest := cs, cause := some .outOfRange }

/-- The characters behind one that has to stand here. -/
def skipMark (mark : Char) : List Char → Except Fault (List Char)
  | [] => .error { rest := [] }
  | c :: rest => if c = mark then .ok rest else .error { rest := c :: rest }

def daysOf (year month : Nat) : Nat :=
  if month = 2 then
    if year % 4 = 0 && (year % 100 ≠ 0 || year % 400 = 0) then 29 else 28
  else if month = 4 || month = 6 || month = 9 || month = 11 then 30
  else 31

/-- A number with zeros before it, up to a number of digits. -/
def padded (width value : Nat) : String :=
  let digits := Nat.toDigits 10 value
  fill (width - digits.length) '0' ++ String.ofList digits

/-- A fault that leaves open whether something else can be read. -/
def openly {α : Type} (result : Except Fault α) : Except Fault α :=
  result.mapError fun fault => { fault with final := false }

/-- A date. Behind a year and a dash nothing else can be read. -/
def date (cs : List Char) : Except Fault (String × List Char) := do
  let (year, rest) ← openly (fixedDigits 4 cs)
  let rest ← openly (skipMark '-' rest)
  let (month, rest) ← twoDigits 1 12 rest
  let dayText ← skipMark '-' rest
  let (day, rest) ← twoDigits 1 31 dayText
  if daysOf year month < day then throw { rest := dayText, cause := some .outOfRange }
  return (padded 4 year ++ "-" ++ padded 2 month ++ "-" ++ padded 2 day, rest)

/-- The digits of a fraction of a second that count: nine at most, and no zeros at the end. -/
def fractionText (digits : List Char) : String :=
  match ((digits.take 9).reverse.dropWhile (· = '0')).reverse with
  | [] => ""
  | shown => "." ++ String.ofList shown

def fraction : List Char → String × List Char
  | '.' :: rest =>
    match rest.takeWhile Char.isDigit with
    | [] => ("", '.' :: rest)
    | digits => (fractionText digits, rest.dropWhile Char.isDigit)
  | cs => ("", cs)

/-- A time of day. Behind an hour and a colon nothing else can be read. -/
def time (cs : List Char) : Except Fault (String × List Char) := do
  let (hour, rest) ← openly (twoDigits 0 23 cs)
  let rest ← openly (skipMark ':' rest)
  let (minute, rest) ← twoDigits 0 59 rest
  let rest ← skipMark ':' rest
  let (second, rest) ← twoDigits 0 60 rest
  let (fraction, rest) := fraction rest
  return (padded 2 hour ++ ":" ++ padded 2 minute ++ ":" ++ padded 2 second ++ fraction, rest)

/-- The distance from universal time behind its sign. -/
def distance (negative : Bool) (cs : List Char) : Except Fault (String × List Char) :=
  Except.mapError (Fault.within .offset) do
    let (hour, rest) ← twoDigits 0 23 cs
    let rest ← skipMark ':' rest
    let (minute, rest) ← twoDigits 0 59 rest
    let sign := if negative && hour + minute ≠ 0 then "-" else "+"
    return (sign ++ padded 2 hour ++ ":" ++ padded 2 minute, rest)

def offset : List Char → Except Fault (String × List Char)
  | 'Z' :: rest => .ok ("Z", rest)
  | 'z' :: rest => .ok ("Z", rest)
  | '+' :: rest => distance false rest
  | '-' :: rest => distance true rest
  | cs => .ok ("", cs)

/-- The time of day behind a date, if there is one. -/
def timeOfDate (cs : List Char) : Except Fault (String × List Char) :=
  match cs with
  | c :: rest =>
    if c = 'T' || c = 't' || c = ' ' then
      match time rest with
      | .error fault => if fault.final then .error fault else .ok ("", cs)
      | .ok (time, rest) => do
        let (offset, rest) ← offset rest
        return ("T" ++ time ++ offset, rest)
    else .ok ("", cs)
  | [] => .ok ("", [])

/-- A date with or without a time of day, or a time of day. -/
def moment (cs : List Char) : Except Fault (Setting × List Char) := do
  let (text, rest) ←
    orElse (Except.mapError (Fault.within .dateTime) do
      let (date, rest) ← date cs
      let (time, rest) ← timeOfDate rest
      return (date ++ time, rest)) fun _ => (time cs).mapError (Fault.within .time)
  return (.moment text, rest)

end PythonToCSharp.Toml
