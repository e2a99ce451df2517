import ContractHost.Decimal.Digits
import ContractHost.Power

/-!
# Binary fractions of double precision

A finite number is a whole mantissa below `2 ^ 53` times a power of two; the mantissa is at least
`2 ^ 52` unless the power is the smallest one, `2 ^ -1074`. A decimal fraction is rounded to the
nearest such number, and a tie goes to the even mantissa.
-/

namespace ContractHost

/-- A number of double precision. -/
inductive Binary64
  /-- No number. -/
  | nan
  /-- An infinite number. -/
  | infinite (negative : Bool)
  /-- A mantissa times a power of two. -/
  | finite (negative : Bool) (mantissa : Nat) (exponent : Int)
  deriving DecidableEq, Repr

namespace Binary64

/-- The least power of two. -/
def leastExponent : Int := -1074

/-- The greatest power of two. -/
def greatestExponent : Int := 971

/-- Zero with a sign. -/
def zero (negative : Bool) : Binary64 := .finite negative 0 leastExponent

/-- A quotient rounded to the nearest whole number, a tie to the even one. -/
def roundDiv (num den : Nat) : Nat :=
  let q := num / den
  let r := num % den
  if 2 * r < den then q
  else if den < 2 * r then q + 1
  else if q % 2 = 0 then q else q + 1

/-- The quotient `num / den / 2 ^ exponent` as a numerator and a denominator. -/
def scaled (num den : Nat) (exponent : Int) : Nat × Nat :=
  if 0 ≤ exponent then (num, den * twoTo exponent.toNat) else (num * twoTo (-exponent).toNat, den)

/-- The number nearest to a positive quotient. -/
def ofQuotient (negative : Bool) (num den : Nat) : Binary64 :=
  let guess : Int := (Nat.log2 num : Int) - Nat.log2 den - 52
  -- the true power is the guess or one less
  let (n, d) := scaled num den guess
  let exponent := max leastExponent (if n < twoTo 52 * d then guess - 1 else guess)
  let (n, d) := scaled num den exponent
  let mantissa := roundDiv n d
  let (mantissa, exponent) :=
    if mantissa = twoTo 53 then (twoTo 52, exponent + 1) else (mantissa, exponent)
  if greatestExponent < exponent then .infinite negative
  else .finite negative mantissa exponent

/-- The number nearest to `digits * 10 ^ exponent`. Far beyond the range the answer needs no
arithmetic. -/
def ofDecimal (negative : Bool) (digits : Nat) (exponent : Int) : Binary64 :=
  if digits = 0 then zero negative
  else
    let top := exponent + Decimal.length digits
    if 310 < top then .infinite negative
    else if top < -330 then zero negative
    else if 0 ≤ exponent then ofQuotient negative (digits * tenTo exponent.toNat) 1
    else ofQuotient negative digits (tenTo (-exponent).toNat)

/-- The whole part of the absolute value of a finite number. -/
def wholePart (mantissa : Nat) (exponent : Int) : Nat :=
  if 0 ≤ exponent then mantissa * twoTo exponent.toNat else mantissa / twoTo (-exponent).toNat

/-- The integer that a finite number is, rounded toward zero. -/
def truncate? : Binary64 → Option Int
  | .finite negative mantissa exponent =>
    let whole : Int := wholePart mantissa exponent
    some (if negative then -whole else whole)
  | _ => none

end Binary64

end ContractHost
