import ContractHost.Document.Access

/-!
# Optional fields

A record in a document may leave fields out; one that is null counts as left out. Each kind of field
has a reader that gives a default for it. Numbers may be written as texts, so that large ones survive
writers of small numbers.
-/

namespace ContractHost.Value

/-- A field that is there and is not null. -/
def present? (value : Value) (name : String) : Option Value :=
  match value with
  | table fields =>
    match field? fields name with
    | some null => none
    | found => found
  | _ => none

/-- A field that is there, or the empty table. -/
def part (value : Value) (name : String) : Value := (value.present? name).getD (table [])

/-- A field that is there and is a text. -/
def text? (value : Value) (name : String) : Option Text :=
  match value.present? name with
  | some (text t) => some t
  | _ => none

/-- A truth value, or else the default. -/
def flagD (value : Value) (name : String) (default : Bool) : Bool :=
  match value.present? name with
  | some (bool b) => b
  | _ => default

/-- A truth value, or else false. -/
def flag (value : Value) (name : String) : Bool := value.flagD name false

/-- The integer that a value is or spells. -/
def integer? : Value → Option Int
  | int n => some n
  | text t => t.string?.bind String.toInt?
  | bool b => some (if b then 1 else 0)
  | float x => x.truncate?
  | _ => none

/-- An integer, or else the default. -/
def integerD (value : Value) (name : String) (default : Int) : Int :=
  ((value.present? name).bind integer?).getD default

/-- The items of a list, of which a missing one has none. -/
def listOf (value : Value) (name : String) : List Value :=
  match value.present? name with
  | some (list items) => items
  | _ => []

/-- Bytes given by their text, of which a missing field has none. -/
def bytesOf (value : Value) (name : String) : Except Fault Bytes :=
  match value.present? name with
  | none => .ok []
  | some found => found.toBytes

/-- The bytes of a fixed width given by their text, or else zeros. -/
def fixedOf {width : Width} (value : Value) (name : String) : Except Fault (FixedBytes width) :=
  match value.present? name with
  | none => .ok .zero
  | some found => found.toFixed

/-- A number of 256 bits, or else zero. -/
def wordOf (value : Value) (name : String) : Except Fault Uint256 :=
  FixedBytes.ofInt (value.integerD name 0)

end ContractHost.Value
