import ContractHost.Decimal.Binary64

/-!
# The fewest digits that read back

A finite number of double precision is written with the fewest decimal digits that still read back as
the number itself, and of those the ones nearest to it. The search runs over grids of powers of ten,
the coarsest first; on each only the two neighbours of the number can be near enough. The digits
stand in positional notation from `10 ^ -4` up to below `10 ^ 16`, and before an exponent of at least
two digits elsewhere.
-/

namespace ContractHost.Binary64

/-! ## Exact comparison

Quarters of the mantissa's unit and units of a power of ten are both brought to whole numbers. -/

/-- The power of two that scales quarters of a unit, as a numerator and a denominator. -/
def quarter (exponent : Int) : Nat × Nat :=
  if 2 ≤ exponent then (twoTo (exponent - 2).toNat, 1) else (1, twoTo (2 - exponent).toNat)

/-- What a quarter of a unit and a step of the grid count for on a common scale. -/
def scales (exponent power : Int) : Nat × Nat :=
  let (num, den) := quarter exponent
  if 0 ≤ power then (num, den * tenTo power.toNat) else (num * tenTo (-power).toNat, den)

/-- The bounds, in quarters of a unit, between which a number reads back as the mantissa. They lie
half a unit away, or a quarter below the least mantissa of its power. -/
def bounds (mantissa : Nat) (exponent : Int) : Nat × Nat :=
  (if mantissa = twoTo 52 ∧ leastExponent < exponent then 4 * mantissa - 1 else 4 * mantissa - 2,
    4 * mantissa + 2)

/-- Whether a point of the grid reads back as the number. The bounds do if the mantissa is even. -/
def readsBack (mantissa : Nat) (exponent power : Int) (point : Nat) : Bool :=
  let (low, high) := bounds mantissa exponent
  let (unit, step) := scales exponent power
  if mantissa % 2 = 0 then low * unit ≤ point * step && point * step ≤ high * unit
  else low * unit < point * step && point * step < high * unit

/-- The point of the grid of a power of ten that is nearest to the number, if it reads back. -/
def onGrid? (mantissa : Nat) (exponent power : Int) : Option Nat :=
  let (unit, step) := scales exponent power
  let below := 4 * mantissa * unit / step
  let rest := 2 * (4 * mantissa * unit % step)
  match readsBack mantissa exponent power below, readsBack mantissa exponent power (below + 1) with
  | false, false => none
  | true, false => some below
  | false, true => some (below + 1)
  | true, true =>
    some (if rest < step ∨ (rest = step ∧ below % 2 = 0) then below else below + 1)

/-- The least `k` with the number below `10 ^ k`. -/
def decade (mantissa : Nat) (exponent : Int) : Int :=
  let (num, den) := quarter exponent
  let num := 4 * mantissa * num
  let guess : Int := (Decimal.length num : Int) - Decimal.length den
  -- the number lies between `10 ^ (guess - 1)` and `10 ^ (guess + 1)`
  let reached : Bool :=
    if 0 ≤ guess then den * tenTo guess.toNat ≤ num else den ≤ num * tenTo (-guess).toNat
  if reached then guess + 1 else guess

/-- The fewest digits that read back, and the power of ten they count. The point above the number on
the coarsest grid may be the next power of ten, which has one digit. -/
def shortest (mantissa : Nat) (exponent : Int) : Nat × Int :=
  let top := decade mantissa exponent
  let found := (List.range 17).findSome? fun (i : Nat) =>
    let power := top - (i + 1)
    (onGrid? mantissa exponent power).map fun digits => (digits, power)
  match found with
  | some (10, power) => (1, power + 1)
  | some point => point
  | none => (0, 0)

/-! ## Text -/

/-- The exponent of a text: a sign and at least two digits. -/
def exponentChars (n : Int) : List Char :=
  let digits := Decimal.digits n.natAbs
  (if n < 0 then '-' else '+') :: (if digits.length < 2 then '0' :: digits else digits)

/-- Digits with the point after the first `point` of them. -/
def placed (digits : List Char) (point : Int) : List Char :=
  if -4 < point ∧ point ≤ 16 then
    if point ≤ 0 then '0' :: '.' :: List.replicate (-point).toNat '0' ++ digits
    else
      let whole := point.toNat
      if whole < digits.length then digits.take whole ++ '.' :: digits.drop whole
      else digits ++ List.replicate (whole - digits.length) '0' ++ ['.', '0']
  else
    let rest := digits.drop 1
    digits.take 1 ++ (if rest.isEmpty then [] else '.' :: rest) ++
      'e' :: exponentChars (point - 1)

/-- The text of a finite number. -/
def finiteChars (negative : Bool) (mantissa : Nat) (exponent : Int) : List Char :=
  let sign := if negative then ['-'] else []
  if mantissa = 0 then sign ++ ['0', '.', '0']
  else
    let (number, power) := shortest mantissa exponent
    let digits := Decimal.digits number
    sign ++ placed digits (digits.length + power)

/-- The text of a number, with the given words for what is not finite. -/
def text (notANumber infinity : String) : Binary64 → String
  | .nan => notANumber
  | .infinite negative => if negative then "-" ++ infinity else infinity
  | .finite negative mantissa exponent => String.ofList (finiteChars negative mantissa exponent)

end ContractHost.Binary64
