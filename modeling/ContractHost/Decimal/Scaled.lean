import ContractHost.Decimal.Digits
import ContractHost.Power

/-!
# Decimal fractions

An integer divided by a power of ten is written exactly and without trailing zeros: with a point as
long as the first digit stands no further than six places behind it, and before an exponent beyond
that.

* `reduce_value`: dropping common zeros does not change the fraction.
-/

namespace ContractHost.Decimal

/-- The fraction `n / 10 ^ places` with zeros dropped on both sides as long as there are any. -/
def reduce : (places : Nat) → Nat → Nat × Nat
  | 0, n => (n, 0)
  | places + 1, n => if n % 10 = 0 then reduce places (n / 10) else (n, places + 1)

/-- The digits of a fraction with its point. -/
def pointed (digits : List Char) (places : Nat) : List Char :=
  if places = 0 then digits
  else
    let padded := List.replicate (places + 1 - digits.length) '0' ++ digits
    padded.take (padded.length - places) ++ '.' :: padded.drop (padded.length - places)

/-- The digits of a fraction before a negative exponent. -/
def withExponent (digits : List Char) (exponent : Nat) : List Char :=
  let rest := digits.drop 1
  digits.take 1 ++ (if rest.isEmpty then [] else '.' :: rest) ++ 'E' :: '-' :: Decimal.digits exponent

/-- The text of `n / 10 ^ places`. -/
def fractionChars (places n : Nat) : List Char :=
  let (n, places) := reduce places n
  let digits := Decimal.digits n
  -- the first digit stands `places - (digits.length - 1)` places behind the point
  let depth := places + 1 - digits.length
  if 6 < depth then withExponent digits depth else pointed digits places

/-- The text of an integer divided by a power of ten. -/
def scaledText (n : Int) (places : Nat) : String :=
  String.ofList ((if n < 0 then ['-'] else []) ++ fractionChars places n.natAbs)

theorem reduce_value (places n : Nat) :
    (reduce places n).1 * tenTo places = n * tenTo (reduce places n).2 := by
  induction places generalizing n with
  | zero => simp [reduce]
  | succ places ih =>
    rw [reduce]
    split
    · rename_i h
      have hn : n / 10 * 10 = n := Nat.div_mul_cancel (Nat.dvd_of_mod_eq_zero h)
      have := ih (n / 10)
      rw [tenTo_succ, ← Nat.mul_assoc, this, Nat.mul_right_comm, hn]
    · rfl

end ContractHost.Decimal
