/-!
Numbers of double precision: whole multiples of a power of two with at most 53 bits, the two
infinities, and what is not a number. A decimal number stands for the nearest of them, and for the
one with an even mantissa if two are equally near.
-/

namespace PythonToCSharp.Number

inductive Double where
  | nan
  | infinite (negative : Bool)
  /-- The number `mantissa · 2 ^ exponent`. -/
  | finite (negative : Bool) (mantissa : Nat) (exponent : Int)
  deriving DecidableEq, Repr

/-- A fraction times a power of a base. -/
def scaled (base : Nat) (exponent : Int) (fraction : Nat × Nat) : Nat × Nat :=
  if 0 ≤ exponent then (fraction.1 * Nat.pow base exponent.toNat, fraction.2)
  else (fraction.1, fraction.2 * Nat.pow base (-exponent).toNat)

/-- The whole number nearest to a fraction, and the even one of two that are equally near. -/
def nearest (fraction : Nat × Nat) : Nat :=
  let floor := fraction.1 / fraction.2
  let twice := 2 * (fraction.1 % fraction.2)
  if twice < fraction.2 || (twice = fraction.2 && floor % 2 = 0) then floor else floor + 1

namespace Double

/-- The least mantissa of full precision. -/
def fullMantissa : Nat := Nat.pow 2 52

def leastExponent : Int := -1074

def greatestExponent : Int := 971

/-- The number with a mantissa that may have been rounded up beyond 53 bits. -/
def carried (negative : Bool) (mantissa : Nat) (exponent : Int) : Double :=
  let (mantissa, exponent) :=
    if mantissa = 2 * fullMantissa then (fullMantissa, exponent + 1) else (mantissa, exponent)
  if greatestExponent < exponent then .infinite negative else .finite negative mantissa exponent

/-- The number nearest to a fraction that is not zero. The exponent is the one that leaves 53 bits
before the point, or the least one. -/
def ofFraction (negative : Bool) (fraction : Nat × Nat) : Double :=
  let guess : Int := fraction.1.log2 - fraction.2.log2 - 52
  let (num, den) := scaled 2 (-guess) fraction
  let exponent := max leastExponent (if num / den < fullMantissa then guess - 1 else guess)
  carried negative (nearest (scaled 2 (-exponent) fraction)) exponent

/-- The number nearest to `digits · 10 ^ exponent`. One far beyond the range is not computed. -/
def ofDecimal (negative : Bool) (digits : Nat) (exponent : Int) : Double :=
  let places := (Nat.toDigits 10 digits).length + exponent
  if digits = 0 || places < -330 then .finite negative 0 leastExponent
  else if 310 < places then .infinite negative
  else ofFraction negative (scaled 10 exponent (digits, 1))

end Double

end PythonToCSharp.Number
