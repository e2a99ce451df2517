import ContractHost.Document.Value
import ContractHost.Fault

/-!
# Directives of templates

A template is a text with directives, each of which stands for a value. A directive begins with a
percent sign and has, in this order and all but the last of them optional: a name in parentheses, flags,
a width, a count of places after a point, a letter for the size of numbers, which says nothing, and the
letter of its kind. An asterisk instead of a width or a count takes it from the values.

The values are a sequence, of which each directive takes the next; or they are a table, from which a
name picks one. A table without a name is a value itself, once.

* `readDirective`: the directive at the front of a text, after its percent sign.
-/

namespace ContractHost.Template

/-! ## Values -/

/-- The values that are left for the directives of a template. -/
structure Supply where
  /-- The table that names pick values from, if there is one. -/
  table : Option (List (Text × Value))
  /-- The values that come next. -/
  waiting : List Value

namespace Supply

/-- Values in a sequence. -/
def sequence (values : List Value) : Supply := ⟨none, values⟩

/-- Values in a table. -/
def named (fields : List (Text × Value)) : Supply := ⟨some fields, [.table fields]⟩

/-- The next value. -/
def next (supply : Supply) : Except Fault (Value × Supply) :=
  match supply.waiting with
  | value :: waiting => .ok (value, { supply with waiting })
  | [] => .error .wrongType

/-- The values with the one of a name next. -/
def pick (supply : Supply) (name : String) : Except Fault Supply :=
  match supply.table with
  | none => .error .wrongType
  | some fields =>
    match Value.field? fields name with
    | some value => .ok { supply with waiting := [value] }
    | none => .error .missingKey

/-- Whether no value is left that a directive should have taken. -/
def isSpent (supply : Supply) : Bool := supply.table.isSome || supply.waiting.isEmpty

end Supply

/-! ## Directives -/

/-- How a value is written. -/
structure Directive where
  /-- Whether fill goes behind the value. -/
  left : Bool
  /-- Whether numbers that are not negative have a plus. -/
  plus : Bool
  /-- Whether numbers that are not negative have a space in place of the sign. -/
  space : Bool
  /-- Whether marks and points stand that could be left out. -/
  alternate : Bool
  /-- Whether numbers are filled with zeros. -/
  zero : Bool
  /-- The least number of characters. -/
  width : Nat
  /-- The count of places. -/
  places : Option Nat
  /-- The letter of the kind. -/
  kind : Char
  deriving Repr

/-- The characters up to the parenthesis that closes, and what follows it. -/
def readName (depth : Nat) : List Char → Except Fault (List Char × List Char)
  | [] => .error .badValue
  | c :: rest =>
    if c = ')' ∧ depth = 0 then .ok ([], rest)
    else do
      let depth := if c = '(' then depth + 1 else if c = ')' then depth - 1 else depth
      let (name, rest) ← readName depth rest
      return (c :: name, rest)

/-- The values after a name in front, and what follows it. -/
def readPick (supply : Supply) (text : List Char) : Except Fault (Supply × List Char) :=
  match text with
  | '(' :: rest =>
    if supply.table.isNone then .error .wrongType
    else do
      let (name, rest) ← readName 0 rest
      return (← supply.pick (String.ofList name), rest)
  | _ => .ok (supply, text)

/-- Whether a character is a flag. -/
def isFlag (c : Char) : Bool := c = '-' || c = '+' || c = ' ' || c = '#' || c = '0'

/-- Whether a character is a decimal digit. -/
def isDigit (c : Char) : Bool := '0' ≤ c && c ≤ '9'

/-- The integer of a value that has to be one. -/
def wholeOf (value : Value) : Except Fault Int :=
  match value with
  | .int n => .ok n
  | .bool b => .ok (if b then 1 else 0)
  | _ => .error .wrongType

/-- A number below a bound, if there is one in front: digits, or an asterisk for a value. -/
def readCount (bound : Nat) (supply : Supply) (text : List Char) :
    Except Fault (Option Int × Supply × List Char) :=
  match text with
  | '*' :: rest => do
    let (value, supply) ← supply.next
    let n ← wholeOf value
    if -bound ≤ n ∧ n < bound then return (some n, supply, rest) else throw .outOfRange
  | _ =>
    match text.takeWhile isDigit with
    | [] => .ok (none, supply, text)
    | digits =>
      let n := Decimal.ofDigits digits
      if n < bound then .ok (some n, supply, text.dropWhile isDigit) else .error .badValue

/-- A count of places after a point, if there is a point; without a number it is zero. -/
def readPlaces (supply : Supply) (text : List Char) :
    Except Fault (Option Nat × Supply × List Char) :=
  match text with
  | '.' :: rest => do
    let (n, supply, rest) ← readCount (twoTo 31) supply rest
    return (some (n.getD 0).toNat, supply, rest)
  | _ => .ok (none, supply, text)

/-- A text without a letter for a size in front. -/
def skipSize : List Char → List Char
  | 'h' :: rest => rest
  | 'l' :: rest => rest
  | 'L' :: rest => rest
  | text => text

/-- The directive at the front of a text, after its percent sign. -/
def readDirective (supply : Supply) (text : List Char) :
    Except Fault (Directive × Supply × List Char) := do
  let (supply, text) ← readPick supply text
  let flags := text.takeWhile isFlag
  let (width, supply, text) ← readCount (twoTo 63) supply (text.dropWhile isFlag)
  let (places, supply, text) ← readPlaces supply text
  let width := width.getD 0
  match skipSize text with
  | [] => throw .badValue
  | kind :: rest =>
    let directive : Directive := {
      left := flags.contains '-' || width < 0, plus := flags.contains '+'
      space := flags.contains ' ', alternate := flags.contains '#', zero := flags.contains '0'
      width := width.natAbs, places, kind }
    return (directive, supply, rest)

end ContractHost.Template
