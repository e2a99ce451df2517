import ContractHost.Abi.Datum
import ContractHost.Abi.Error
import ContractHost.Abi.ListText
import ContractHost.Text.Case
import ContractHost.Text.Integer

/-!
# Contract values in text

Values are given as text and read as their type's text directs: lists in brackets, integers, truth
values, addresses, hexadecimal bytes, and text as it is. Reading is lenient or strict. Lenient reading
takes integers in base ten or, with a mark, sixteen, and addresses without `0x`; strict reading takes
integers in base sixteen, where an integer type reads large words as negative numbers, and addresses
with `0x` alone.

* `parse`: the value of a text.
-/

namespace ContractHost.Abi

/-- Whether a text begins with another. -/
def beginsWith (text start : List Char) : Bool := start.isPrefixOf text

/-- The text before the last bracket that opens. -/
def beforeLastBracket? {α : Type} [Seen α] (text : List α) : Option (List α) :=
  match text.reverse.dropWhile (seen · ≠ '[') with
  | _ :: rest => some rest.reverse
  | [] => none

theorem length_beforeLastBracket {α : Type} [Seen α] {text inner : List α}
    (h : beforeLastBracket? text = some inner) : inner.length < text.length := by
  simp only [beforeLastBracket?] at h
  split at h
  · rename_i c rest heq
    have hle := (List.dropWhile_sublist (p := (seen · ≠ '[')) (l := text.reverse)).length_le
    rw [heq] at hle
    simp only [List.length_cons, List.length_reverse] at hle
    have _hinner := Option.some.inj h
    rw [← _hinner, List.length_reverse]
    omega
  · exact absurd h (by simp)

/-- Whether a text ends with a bracket that closes. -/
def endsWithBracket (text : List Char) : Bool := text.getLast? = some ']'

/-! ## Single values -/

/-- The integer of a text in lenient reading. -/
def lenientInt? (text : List Char) : Option Int :=
  let text := Text.strip text
  let unsigned := (Text.lower text).dropWhile (· = '-')
  if beginsWith unsigned ['0', 'x'] then Text.integer? 0 text else Text.integer? 10 text

/-- The integer of a text in strict reading. An integer type's numbers from `2 ^ 255` on are words
with the sign set. -/
def strictInt? (isSigned : Bool) (text : List Char) : Option Int := do
  let n ← Text.integer? 16 (Text.strip text)
  return if isSigned ∧ twoTo 255 ≤ n then n - twoTo 256 else n

/-- The address of a text: `0x` and forty digits of either case. -/
def addressOf? (text : List Char) : Option Address :=
  match text with
  | '0' :: 'x' :: digits => do
    let bytes ← Hex.ofPairs? digits
    (FixedBytes.ofBytes bytes).toOption
  | _ => none

/-- The value of a text of a type that is not an array. -/
def parseSingle (lenient : Bool) (type text : Text) : Except AbiError Datum :=
  let name := type.chars
  let chars := text.chars
  if beginsWith name ['('] then .error (.tupleValue type)
  else if beginsWith name "uint".toList ∨ beginsWith name "int".toList then
    let n? := if lenient then lenientInt? chars else strictInt? (beginsWith name "int".toList) chars
    match n? with
    | some n => .ok (.int n)
    | none => .error (.invalid type text .badValue)
  else if name = "bool".toList then
    let lowered := Text.lower (Text.strip chars)
    if lowered = "true".toList then .ok (.bool true)
    else if lowered = "false".toList then .ok (.bool false)
    else .error (.notBool text)
  else if name = "address".toList then
    let marked := beginsWith chars ['0', 'x']
    if !lenient ∧ !marked then .error (.bareAddress text)
    else
      match addressOf? (if marked then chars else '0' :: 'x' :: chars) with
      | some a => .ok (.address a)
      | none => .error (.invalid type text .badValue)
  else if beginsWith name "bytes".toList then
    match Hex.decode text with
    | .ok bytes => .ok (.bytes bytes)
    | .error e => .error (.invalid type text e.fault)
  else if name = "string".toList then .ok (.string text)
  else .error (.unsupported type)

/-! ## Arrays -/

/-- The items of an array's text. -/
def splitArray (text : Text) : Except AbiError (List Text) :=
  let letters := Text.strip text.letters
  match unbracket? letters with
  | some body => .ok ((splitItems body).map .ofLetters)
  | none => .error (.noBrackets (.ofLetters letters))

/-- The value of a text of a type. What follows the last bracket that opens in the text of an array's
type is of no interest. -/
def parse (lenient : Bool) (type text : Text) : Except AbiError Datum :=
  if endsWithBracket type.chars then
    match _hinner : beforeLastBracket? type.letters with
    | none => .error (.invalid type text .badValue)
    | some inner => do
      let items ← splitArray text
      return .list (← items.mapM fun item => parse lenient (.ofLetters inner) item)
  else parseSingle lenient type text
termination_by type.letters.length
decreasing_by
  rw [Text.letters_ofLetters]
  exact length_beforeLastBracket _hinner

end ContractHost.Abi
