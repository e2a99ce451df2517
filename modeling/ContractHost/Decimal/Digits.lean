/-!
# Decimal digits

Natural numbers and integers in decimal: their digits, and the number that digits spell.

* `eq_zero_of_digits`: no leading zeros.
* `ofDigits_digits`: the digits of a number spell it.
-/

namespace ContractHost.Decimal

/-- The character of a decimal digit. -/
def digitChar (n : Nat) : Char := Char.ofNat (48 + n % 10)

/-- The last `count` decimal digits of a number, with leading zeros. -/
def fixedDigits : (count : Nat) → Nat → List Char
  | 0, _ => []
  | count + 1, n => fixedDigits count (n / 10) ++ [digitChar n]

/-- The decimal digits of a number without leading zeros; zero has one digit. -/
def digits (n : Nat) : List Char := Nat.toDigits 10 n

/-- The number of decimal digits of a number. -/
def length (n : Nat) : Nat := (digits n).length

/-- The decimal text of an integer. -/
def intChars : Int → List Char
  | .ofNat n => digits n
  | .negSucc n => '-' :: digits (n + 1)

/-- The decimal text of an integer as a string. -/
def intText (n : Int) : String := String.ofList (intChars n)

/-- Whether an integer has a decimal text: at most 4300 digits are written. -/
def hasText (n : Int) : Bool := length n.natAbs ≤ 4300

/-- The value of an ASCII digit. -/
def digitValue (c : Char) : Nat := c.toNat - 48

/-- The number that ASCII digits spell after a number read so far. -/
def ofDigitsFrom (start : Nat) (digits : List Char) : Nat :=
  digits.foldl (fun n c => n * 10 + digitValue c) start

/-- The number that ASCII digits spell. -/
def ofDigits (digits : List Char) : Nat := ofDigitsFrom 0 digits

theorem isDigit_of_mem_digits {n : Nat} {c : Char} (h : c ∈ digits n) : c.isDigit = true :=
  Nat.isDigit_of_mem_toDigits (by decide) (by decide) h

theorem digits_ne_nil (n : Nat) : digits n ≠ [] := Nat.toDigits_ne_nil

/-- Only zero begins with the digit zero. -/
theorem eq_zero_of_digits {n : Nat} {rest : List Char} (h : digits n = '0' :: rest) : n = 0 := by
  induction n using Nat.strongRecOn generalizing rest with
  | ind n ih =>
    have hstep : digits n = if n < 10 then [Nat.digitChar n]
        else digits (n / 10) ++ [Nat.digitChar (n % 10)] := Nat.toDigits_eq_if (by decide)
    rw [hstep] at h
    by_cases hsmall : n < 10
    · rw [if_pos hsmall, List.cons.injEq] at h
      have hzero : ∀ m : Fin 10, Nat.digitChar m = '0' → m.val = 0 := by decide
      exact hzero ⟨n, hsmall⟩ h.1
    · rw [if_neg hsmall] at h
      cases hfront : digits (n / 10) with
      | nil => exact absurd hfront (digits_ne_nil (n / 10))
      | cons c more =>
        rw [hfront, List.cons_append, List.cons.injEq] at h
        have htenth := ih (n / 10) (by omega) (hfront.trans (congrArg (· :: more) h.1))
        omega

theorem ofDigits_digits (n : Nat) : ofDigits (digits n) = n := by
  have hfold : (fun (n : Nat) (c : Char) => n * 10 + digitValue c) =
      fun (n : Nat) (c : Char) => 10 * n + (c.toNat - '0'.toNat) := by
    funext n c
    exact congrArg (· + digitValue c) (Nat.mul_comm n 10)
  have hread : Nat.ofDigitChars 10 (digits n) 0 = n := Nat.ofDigitChars_ten_toDigits
  unfold ofDigits ofDigitsFrom
  rw [hfold]
  exact hread

end ContractHost.Decimal
