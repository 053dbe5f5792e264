import PythonToCSharp.Number.Double

/-!
The text of a number of double precision: the fewest digits that stand for it, written without an
exponent and with at least one digit behind the point.

A number stands for all that is rounded to it, an interval around it. Its digits are a multiple of
the greatest power of ten that has a multiple in that interval.
-/

namespace PythonToCSharp.Number

namespace Double

/-- The multiple of `10 ^ place` next to `mantissa · 2 ^ exponent` that is rounded to it. Of two,
the nearer one is taken, and the greater one if both are equally near. -/
def multiple? (mantissa : Nat) (exponent : Int) (place : Int) : Option Nat :=
  let (step, unit) := scaled 2 (2 - exponent) (scaled 10 place (1, 1))
  let value := 4 * mantissa * unit
  let low := value - (if mantissa = fullMantissa then unit else 2 * unit)
  let high := value + 2 * unit
  let isHit (count : Nat) : Bool :=
    if mantissa % 2 = 0 then low ≤ count * step && count * step ≤ high
    else low < count * step && count * step < high
  let below := value / step
  if isHit below && (!isHit (below + 1) || 2 * (value % step) < step) then some below
  else if isHit (below + 1) then some (below + 1)
  else none

/-- The multiple of the greatest power of ten, from `10 ^ place` down over `steps` powers. -/
def shortest (mantissa : Nat) (exponent : Int) : Nat → Int → Nat × Int
  | 0, place => (0, place)
  | steps + 1, place =>
    match multiple? mantissa exponent place with
    | some count => (count, place)
    | none => shortest mantissa exponent steps (place - 1)

/-- The number `digits · 10 ^ place` without an exponent. -/
def positional (digits : List Char) (place : Int) : List Char :=
  if 0 ≤ place then digits ++ List.replicate place.toNat '0' ++ ['.', '0']
  else
    let behind := (-place).toNat
    let padded := List.replicate (behind + 1 - digits.length) '0' ++ digits
    padded.take (padded.length - behind) ++ '.' :: padded.drop (padded.length - behind)

def text : Double → String
  | .nan => "NaN"
  | .infinite negative => if negative then "-inf" else "inf"
  | .finite negative mantissa exponent =>
    let (count, place) := if mantissa = 0 then (0, 0) else shortest mantissa exponent 640 310
    (if negative then "-" else "") ++ String.ofList (positional (Nat.toDigits 10 count) place)

end Double

end PythonToCSharp.Number
