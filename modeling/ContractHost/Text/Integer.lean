import ContractHost.Text.Blank
import ContractHost.Text.DecimalDigit
import ContractHost.Text.Hex

/-!
# Integer literals

An integer is written as white space, a sign, a mark of its base, digits and white space. Digits of
any script count, and a single underscore may stand between two digits and after a mark. Base ten has
no mark; base sixteen may have `0x`; and base zero takes its base from the mark, without which the
digits are decimal and do not begin with a zero unless they are all zero. Of decimal digits there may
be 4300.
-/

namespace ContractHost.Text

/-- White space around an integer: that of texts without the four separators. -/
def isIntegerBlank (c : Char) : Bool :=
  isBlank c && !(0x1c ≤ c.toNat && c.toNat ≤ 0x1f)

/-- A character with digits of other scripts turned into ASCII digits. -/
def asciiDigit (c : Char) : Char :=
  if c.toNat < 0x80 then c
  else match decimalValue? c with
    | some n => Char.ofNat (48 + n)
    | none => c

/-- The value of a digit in a base. -/
def digitIn? (base : Nat) (c : Char) : Option Nat :=
  (Hex.digitValue? c).filter (· < base)

/-- The digits of a numeral, which may have single underscores between them. -/
def numeralDigits? (base : Nat) : List Char → Option (List Nat)
  | [] => none
  | [c] => (digitIn? base c).map fun n => [n]
  | c :: '_' :: rest => do
    let n ← digitIn? base c
    let rest ← numeralDigits? base rest
    return n :: rest
  | c :: rest => do
    let n ← digitIn? base c
    let rest ← numeralDigits? base rest
    return n :: rest

/-- The number of some digits in a base. -/
def ofDigitValues (base : Nat) (digits : List Nat) : Nat :=
  digits.foldl (fun n d => n * base + d) 0

/-- The rest of a numeral after a mark, where one underscore may stand. -/
def afterMark : List Char → List Char
  | '_' :: rest => rest
  | text => text

/-- The greatest number of decimal digits. -/
def maxDecimalDigits : Nat := 4300

/-- A numeral without sign, in a base and with its digits. -/
def numeral? (base : Nat) (text : List Char) : Option Nat :=
  match base, text with
  | 16, '0' :: 'x' :: rest => marked 16 rest
  | 16, '0' :: 'X' :: rest => marked 16 rest
  | 0, '0' :: mark :: rest =>
    if mark = 'x' ∨ mark = 'X' then marked 16 rest
    else if mark = 'o' ∨ mark = 'O' then marked 8 rest
    else if mark = 'b' ∨ mark = 'B' then marked 2 rest
    else (plain 10 text).filter (· = 0)
  | 0, _ => plain 10 text
  | base, _ => plain base text
where
  plain (base : Nat) (text : List Char) : Option Nat := do
    let digits ← numeralDigits? base text
    if base = 10 ∧ maxDecimalDigits < digits.length then none
    else return ofDigitValues base digits
  marked (base : Nat) (text : List Char) : Option Nat := plain base (afterMark text)

/-- The integer that a text spells in a base. -/
def integer? (base : Nat) (text : List Char) : Option Int :=
  match (trimBy isIntegerBlank text).map asciiDigit with
  | '-' :: rest => (numeral? base rest).map fun n => -(n : Int)
  | '+' :: rest => (numeral? base rest).map fun n => (n : Int)
  | rest => (numeral? base rest).map fun n => (n : Int)

end ContractHost.Text
