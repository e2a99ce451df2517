import ContractHost.Bytes.Room
import ContractHost.Decimal.Rounded
import ContractHost.Document.Access
import ContractHost.Template.Directive

/-!
# Values in templates

How a directive writes a value. Integers are written in base ten, eight or sixteen; numbers of double
precision with places behind the point, before a power of ten, or in the shorter of the two ways; and any
value as text. Fill makes a value as wide as the directive says.

* `Directive.write`: the letters of a value.
-/

namespace ContractHost.Template

namespace Directive

/-- A sign, a mark and digits, filled to the width of a directive. -/
def layout (d : Directive) (sign mark digits : List Char) : List Char :=
  let lack := d.width - (sign.length + mark.length + digits.length)
  if d.left then sign ++ mark ++ digits ++ List.replicate lack ' '
  else if d.zero then sign ++ mark ++ List.replicate lack '0' ++ digits
  else List.replicate lack ' ' ++ sign ++ mark ++ digits

/-- The sign of a number. -/
def sign (d : Directive) (negative : Bool) : List Char :=
  if negative then ['-'] else if d.plus then ['+'] else if d.space then [' '] else []

/-- A text filled to the width of a directive. -/
def layoutText (d : Directive) (text : List Letter) : List Letter :=
  let fill := List.replicate (d.width - text.length) (Letter.char ' ')
  if d.left then text ++ fill else fill ++ text

/-! ## Integers -/

/-- The integer that a value counts as in base ten: numbers lose their places. -/
def truncatedOf (value : Value) : Except Fault Int :=
  match value with
  | .float _ => value.toInt
  | value => wholeOf value

/-- An integer with a mark and the digits of its absolute value. -/
def writeInt (d : Directive) (mark : List Char) (digits : Nat → List Char) (n : Int) : List Char :=
  let digits := digits n.natAbs
  let zeros := List.replicate (d.places.getD 0 - digits.length) '0'
  d.layout (d.sign (n < 0)) (if d.alternate then mark else []) (zeros ++ digits)

/-! ## Numbers of double precision -/

/-- The number of double precision that a value is. -/
def doubleOf (value : Value) : Except Fault Binary64 :=
  match value with
  | .float x => .ok x
  | value => do
    let n ← wholeOf value
    match Binary64.ofDecimal (n < 0) n.natAbs 0 with
    | .infinite _ => throw .outOfRange
    | x => return x

/-- A whole part and places with the point between them, which may be left out if there are no
places. -/
def withPoint (alternate : Bool) (whole places : List Char) : List Char :=
  if places.isEmpty && !alternate then whole else whole ++ '.' :: places

/-- Digits on at least the given number of places. -/
def padded (count n : Nat) : List Char :=
  let digits := Decimal.digits n
  List.replicate (count - digits.length) '0' ++ digits

/-- Places without the zeros at their end. -/
def withoutZeros (places : List Char) : List Char := (places.reverse.dropWhile (· = '0')).reverse

/-- The digits with so many places behind the point. -/
def fixed (alternate : Bool) (places mantissa : Nat) (exponent : Int) : List Char :=
  let digits := padded (places + 1) (Binary64.fixedPlaces mantissa exponent places)
  let whole := digits.length - places
  withPoint alternate (digits.take whole) (digits.drop whole)

/-- The digits with so many places behind the first, before a power of ten. -/
def scientific (alternate : Bool) (places mantissa : Nat) (exponent : Int) : List Char :=
  let (n, power) := Binary64.leadingPlaces mantissa exponent places
  let digits := padded (places + 1) n
  withPoint alternate (digits.take 1) (digits.drop 1) ++ 'e' :: Binary64.exponentChars power

/-- So many digits, with the point among them unless it is far from the first one, and without zeros at
the end. -/
def general (alternate : Bool) (count mantissa : Nat) (exponent : Int) : List Char :=
  let count := max 1 count
  let (n, power) := Binary64.leadingPlaces mantissa exponent (count - 1)
  let digits := padded count n
  let trim (places : List Char) : List Char := if alternate then places else withoutZeros places
  if -4 ≤ power ∧ power < count then
    if 0 ≤ power then
      let whole := power.toNat + 1
      withPoint alternate (digits.take whole) (trim (digits.drop whole))
    else withPoint alternate ['0'] (trim (List.replicate (-power - 1).toNat '0' ++ digits))
  else
    withPoint alternate (digits.take 1) (trim (digits.drop 1)) ++
      'e' :: Binary64.exponentChars power

/-- A number of double precision, its digits given by a way to write finite ones. -/
def writeDouble (d : Directive) (way : Bool → Nat → Nat → Int → List Char) (x : Binary64) :
    List Char :=
  let places := d.places.getD 6
  match x with
  | .nan => d.layout (d.sign false) [] "nan".toList
  | .infinite negative => d.layout (d.sign negative) [] "inf".toList
  | .finite negative mantissa exponent =>
    d.layout (d.sign negative) [] (way d.alternate places mantissa exponent)

/-! ## Texts -/

/-- A text with characters beyond ASCII given by number. -/
def asciiOnly (text : List Char) : List Char :=
  text.flatMap fun c => if c.toNat < 0x80 then [c] else Text.numbered c.toNat

/-- A text of which a count of places keeps the first letters. -/
def writeText (d : Directive) (text : Text) : List Letter :=
  d.layoutText (match d.places with
    | some places => text.letters.take places
    | none => text.letters)

/-- The letter that a value is or has the number of. -/
def letterOf (value : Value) : Except Fault Letter :=
  match value with
  | .text t =>
    match t.letters with
    | [letter] => .ok letter
    | _ => .error .wrongType
  | value => do
    let n ← wholeOf value
    if 0 ≤ n ∧ n < 0x110000 then return .ofNumber n.toNat else throw .outOfRange

/-! ## All kinds -/

/-- Characters in capitals. -/
def capitals (text : List Char) : List Char := text.map Char.toUpper

/-- The characters of a value as a number. -/
def writeNumber (d : Directive) (value : Value) : Except Fault (List Char) :=
  match d.kind with
  | 'd' | 'i' | 'u' => do return d.writeInt [] Decimal.digits (← truncatedOf value)
  | 'o' => do return d.writeInt ['0', 'o'] (Nat.toDigits 8) (← wholeOf value)
  | 'x' => do return d.writeInt ['0', 'x'] (Nat.toDigits 16) (← wholeOf value)
  | 'X' => do return d.writeInt ['0', 'X'] (fun n => capitals (Nat.toDigits 16 n)) (← wholeOf value)
  | 'f' => do return d.writeDouble fixed (← doubleOf value)
  | 'F' => do return capitals (d.writeDouble fixed (← doubleOf value))
  | 'e' => do return d.writeDouble scientific (← doubleOf value)
  | 'E' => do return capitals (d.writeDouble scientific (← doubleOf value))
  | 'g' => do return d.writeDouble general (← doubleOf value)
  | 'G' => do return capitals (d.writeDouble general (← doubleOf value))
  | _ => .error .badValue

/-- The letters of a value, if there is enough memory for them. -/
def writeUnbounded (d : Directive) (value : Value) : Except Fault (List Letter) :=
  match d.kind with
  | 's' => .ok (d.writeText value.plain)
  | 'r' => .ok (d.writeText value.display)
  | 'a' => .ok (d.writeText (.ofChars (asciiOnly value.display.toList)))
  | 'c' => do return d.layoutText [← letterOf value]
  | _ => do return (← d.writeNumber value).map .char

/-- The letters of a value. -/
def write [Room] (d : Directive) (value : Value) : Except Fault (List Letter) :=
  let isText : Bool := d.kind = 's' || d.kind = 'r' || d.kind = 'a' || d.kind = 'c'
  if Room.limit < d.width ∨ (!isText ∧ Room.limit < (d.places.getD 0 : Nat)) then .error .outOfMemory
  else d.writeUnbounded value

end Directive

end ContractHost.Template
