import ContractHost.Bytes.Fixed
import ContractHost.Document.Value
import ContractHost.Text.Integer

/-!
# Reading from values

Looking fields up, going through items and turning values into numbers and bytes, with the fault of
each value that is of no use for it.
-/

namespace ContractHost.Value

/-- A field that may be missing. Only tables have fields. -/
def get (value : Value) (name : String) : Except Fault (Option Value) :=
  match value with
  | table fields => .ok (field? fields name)
  | _ => .error .noOperation

/-- A field with a value to use if it is missing. -/
def getD (value : Value) (name : String) (default : Value) : Except Fault Value := do
  return (← value.get name).getD default

/-- A field that has to be there. -/
def index (value : Value) (name : String) : Except Fault Value :=
  match value with
  | table fields =>
    match field? fields name with
    | some value => .ok value
    | none => .error .missingKey
  | _ => .error .wrongType

/-- The fields of a table. -/
def fields (value : Value) : Except Fault (List (Text × Value)) :=
  match value with
  | table fields => .ok fields
  | _ => .error .noOperation

/-- The items that a value gives one by one: those of a list, the letters of a text, the names of
a table's fields. -/
def items (value : Value) : Except Fault (List Value) :=
  match value with
  | list items => .ok items
  | text t => .ok (t.letters.map fun letter => text (.ofLetters [letter]))
  | table fields => .ok (fields.map fun field => text field.1)
  | _ => .error .wrongType

/-- A value as an integer. Fractions lose their places, texts are read in base ten. -/
def toInt (value : Value) : Except Fault Int :=
  match value with
  | int n => .ok n
  | bool b => .ok (if b then 1 else 0)
  | float (.finite negative mantissa exponent) =>
    let whole : Int := Binary64.wholePart mantissa exponent
    .ok (if negative then -whole else whole)
  | float .nan => .error .badValue
  | float (.infinite _) => .error .outOfRange
  | text t =>
    match Text.integer? 10 t.chars with
    | some n => .ok n
    | none => .error .badValue
  | _ => .error .wrongType

/-- A text as bytes. -/
def toBytes (value : Value) : Except Fault Bytes :=
  match value with
  | text t =>
    match Hex.decode t with
    | .ok bytes => .ok bytes
    | .error e => .error e.fault
  | _ => .error .wrongType

/-- A text as the bytes of a fixed width. -/
def toFixed {width : Width} (value : Value) : Except Fault (FixedBytes width) := do
  FixedBytes.ofBytes (← value.toBytes)

end ContractHost.Value
