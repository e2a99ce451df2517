import ContractHost.Document.Value

/-!
# Writing JSON

Documents are written as ASCII text in one of two layouts: on one line, or with each item on a line
of its own, indented by two spaces for each level. Letters beyond ASCII are given by number, characters
beyond the first plane as a pair of halves. An integer of more than 4300 digits has no text.
-/

namespace ContractHost.Json

/-- A letter inside quotes, by its number. -/
def numbered (letter : Letter) : List Char :=
  letter.units.flatMap fun unit => '\\' :: 'u' :: Text.paddedHex 4 unit

/-- A character inside quotes. -/
def escapedChar (c : Char) : List Char :=
  if c = '"' then ['\\', '"']
  else if c = '\\' then ['\\', '\\']
  else if c = '\n' then ['\\', 'n']
  else if c = '\r' then ['\\', 'r']
  else if c = '\t' then ['\\', 't']
  else if c = '\x08' then ['\\', 'b']
  else if c = '\x0c' then ['\\', 'f']
  else if 0x20 ≤ c.toNat ∧ c.toNat < 0x7f then [c]
  else numbered (.char c)

/-- A letter inside quotes. -/
def escapedLetter : Letter → List Char
  | .char c => escapedChar c
  | .half h => numbered (.half h)

/-- A text in quotes. -/
def quotedChars (text : Text) : List Char :=
  '"' :: text.letters.flatMap escapedLetter ++ ['"']

/-- The text of a number of double precision. -/
def floatChars (x : Binary64) : List Char := (x.text "NaN" "Infinity").toList

/-- A line end and the indentation of a level. -/
def newline (level : Nat) : List Char := '\n' :: List.replicate (2 * level) ' '

/-- How a document is laid out. -/
inductive Layout
  /-- On one line. -/
  | line
  /-- With each item on its own line. -/
  | indented
  deriving DecidableEq, Repr

namespace Layout

/-- What stands before the first item of a level. -/
def first (layout : Layout) (level : Nat) : List Char :=
  match layout with
  | line => []
  | indented => newline level

/-- What stands between items of a level. -/
def between (layout : Layout) (level : Nat) : List Char :=
  match layout with
  | line => [',', ' ']
  | indented => ',' :: newline level

end Layout

mutual

/-- The text of a value at a level. -/
def valueChars (layout : Layout) (level : Nat) : Value → List Char
  | .null => "null".toList
  | .bool b => (if b then "true" else "false").toList
  | .int n => Decimal.intChars n
  | .float x => floatChars x
  | .text t => quotedChars t
  | .moment m => quotedChars m.display
  | .list [] => ['[', ']']
  | .list (item :: rest) =>
    '[' :: layout.first (level + 1) ++ valueChars layout (level + 1) item ++
      itemsChars layout (level + 1) rest ++ layout.first level ++ [']']
  | .table [] => ['\x7b', '\x7d']
  | .table ((name, value) :: rest) =>
    '\x7b' :: layout.first (level + 1) ++ quotedChars name ++ [':', ' '] ++
      valueChars layout (level + 1) value ++ fieldsChars layout (level + 1) rest ++
      layout.first level ++ ['\x7d']

/-- The further items of a list, each after what stands between items. -/
def itemsChars (layout : Layout) (level : Nat) : List Value → List Char
  | [] => []
  | item :: rest =>
    layout.between level ++ valueChars layout level item ++ itemsChars layout level rest

/-- The further fields of a table, each after what stands between items. -/
def fieldsChars (layout : Layout) (level : Nat) : List (Text × Value) → List Char
  | [] => []
  | (name, value) :: rest =>
    layout.between level ++ quotedChars name ++ [':', ' '] ++ valueChars layout level value ++
      fieldsChars layout level rest

end

mutual

/-- Whether every integer in a value has a text. -/
def writable : Value → Bool
  | .int n => Decimal.hasText n
  | .list items => writableItems items
  | .table fields => writableFields fields
  | _ => true

/-- Whether every integer in the items of a list has a text. -/
def writableItems : List Value → Bool
  | [] => true
  | item :: rest => writable item && writableItems rest

/-- Whether every integer in the fields of a table has a text. -/
def writableFields : List (Text × Value) → Bool
  | [] => true
  | (_, value) :: rest => writable value && writableFields rest

end

/-- A document in a layout. -/
def write (layout : Layout) (value : Value) : String :=
  String.ofList (valueChars layout 0 value)

end ContractHost.Json
