import ContractHost.Decimal.Shortest

/-!
# Rounding to decimal places

A finite number of double precision is rounded to the nearest decimal fraction with a given number of
places, a tie going to the even digit; the number is exact, so ties are rare but real. The places are
those behind the point, or those behind the first digit before a power of ten.

* `fixedPlaces`: the digits with so many of them behind the point.
* `leadingPlaces`: the digits with so many of them behind the first, and the power of ten of the first.
-/

namespace ContractHost.Binary64

/-- The number as a numerator and a denominator, times a power of ten. -/
def timesPower (mantissa : Nat) (exponent power : Int) : Nat × Nat :=
  let (num, den) := if 0 ≤ exponent then (mantissa * twoTo exponent.toNat, 1)
    else (mantissa, twoTo (-exponent).toNat)
  if 0 ≤ power then (num * tenTo power.toNat, den) else (num, den * tenTo (-power).toNat)

/-- The number in units of a power of ten, rounded. -/
def inUnits (mantissa : Nat) (exponent power : Int) : Nat :=
  let (num, den) := timesPower mantissa exponent (-power)
  roundDiv num den

/-- The number with so many digits behind the point, in units of the last one. -/
def fixedPlaces (mantissa : Nat) (exponent : Int) (places : Nat) : Nat :=
  inUnits mantissa exponent (-(places : Int))

/-- The number with so many digits behind the first, in units of the last one, and the power of ten of
the first. -/
def leadingPlaces (mantissa : Nat) (exponent : Int) (places : Nat) : Nat × Int :=
  if mantissa = 0 then (0, 0)
  else
    let power := decade mantissa exponent - 1
    let digits := inUnits mantissa exponent (power - places)
    if digits = tenTo (places + 1) then (tenTo places, power + 1) else (digits, power)

end ContractHost.Binary64
