import ContractHost.Text.Utf8
import ContractHost.Toml.Number
import ContractHost.Toml.Table
import ContractHost.Toml.Text

/-!
# Reading TOML

A document is a sequence of lines that declare tables and give values to keys. A value is a scalar, a
list, or a table in braces. A table is declared once; a list of tables grows by one with each
declaration of it; and a value that was written out does not change any more.

* `read`: the table that a text spells.
* `ofBytes`: the table that the bytes of a file spell.
-/

namespace ContractHost.Toml

/-- What a document has to have, or else it is wrong. -/
def required {α : Type} : Option α → Except Fault α
  | some a => .ok a
  | none => .error .notToml

/-! ## Gaps -/

/-- A document without the comment in front. -/
def skipComment? (text : List Char) : Option (List Char) :=
  match text with
  | '#' :: rest =>
    if (rest.takeWhile (· ≠ '\n')).any isControl then none else some (rest.dropWhile (· ≠ '\n'))
  | _ => some text

/-- A document without white space, line ends and comments in front. -/
def skipGaps? (text : List Char) : Option (List Char) :=
  match _h : text.dropWhile isBlankOrEnd with
  | '#' :: rest =>
    if (rest.takeWhile (· ≠ '\n')).any isControl then none
    else skipGaps? (rest.dropWhile (· ≠ '\n'))
  | rest => some rest
termination_by text.length
decreasing_by
  have hgap := length_dropWhile_le isBlankOrEnd text
  have hline := length_dropWhile_le (· ≠ '\n') rest
  rw [_h, List.length_cons] at hgap
  omega

/-! ## Values -/

/-- A text value. -/
def textValue (read : List Char × List Char) : Value × List Char :=
  (.text (String.ofList read.1), read.2)

mutual

/-- The value at the front of a document. -/
def readValue : (budget : Nat) → List Char → Except Fault (Value × List Char)
  | 0, _ => .error .notToml
  | budget + 1, text =>
    match text with
    | '"' :: _ => return textValue (← required (readQuoted? '"' readBasic? text))
    | '\'' :: _ => return textValue (← required (readQuoted? '\'' readLiteral? text))
    | 't' :: 'r' :: 'u' :: 'e' :: rest => .ok (.bool true, rest)
    | 'f' :: 'a' :: 'l' :: 's' :: 'e' :: rest => .ok (.bool false, rest)
    | '[' :: rest => do
      match ← required (skipGaps? rest) with
      | ']' :: rest => return (.list [], rest)
      | rest =>
        let (items, rest) ← readItems budget rest
        return (.list items, rest)
    | '\x7b' :: rest =>
      match skipBlank rest with
      | '\x7d' :: rest => .ok (.table [], rest)
      | rest => do
        let (fields, rest) ← readPairs budget [] {} rest
        return (.table fields, rest)
    | _ => readScalar text

/-- The items of a list up to its closing bracket; there is at least one, and a comma may follow the
last. -/
def readItems : (budget : Nat) → List Char → Except Fault (List Value × List Char)
  | 0, _ => .error .notToml
  | budget + 1, text => do
    let (item, rest) ← readValue budget text
    match ← required (skipGaps? rest) with
    | ']' :: rest => return ([item], rest)
    | ',' :: rest =>
      match ← required (skipGaps? rest) with
      | ']' :: rest => return ([item], rest)
      | rest =>
        let (items, rest) ← readItems budget rest
        return (item :: items, rest)
    | _ => throw .notToml

/-- A key and its value. -/
def readPair : (budget : Nat) → List Char → Except Fault (List String × Value × List Char)
  | 0, _ => .error .notToml
  | budget + 1, text => do
    match ← required (readKey? budget text) with
    | (key, '=' :: rest) =>
      let (value, rest) ← readValue budget (skipBlank rest)
      return (key, value, rest)
    | _ => throw .notToml

/-- The fields of a table up to its closing brace, put after those read so far; there is at least
one. -/
def readPairs : (budget : Nat) → Fields → Marks → List Char → Except Fault (Fields × List Char)
  | 0, _, _, _ => .error .notToml
  | budget + 1, fields, marks, text => do
    let (key, value, rest) ← readPair budget text
    if marks.isFrozen key then throw .notToml
    else
      let fields ← required (putAt? false key value fields)
      match skipBlank rest with
      | '\x7d' :: rest => return (fields, rest)
      | ',' :: rest =>
        let marks := if holdsOthers value then marks.freeze key else marks
        readPairs budget fields marks (skipBlank rest)
      | _ => throw .notToml

end

/-! ## Lines -/

/-- What the lines so far have made. -/
structure Draft where
  fields : Fields := []
  marks : Marks := {}
  /-- The key of the table that values go to. -/
  header : List String := []

/-- A line that declares a table, after its bracket. -/
def readTable (budget : Nat) (draft : Draft) (text : List Char) :
    Except Fault (Draft × List Char) := do
  let (key, rest) ← required (readKey? budget (skipBlank text))
  if draft.marks.isDeclared key || draft.marks.isFrozen key then throw .notToml
  else
    let fields ← required (within? true some key draft.fields)
    let rest ← required (after? ']' rest)
    return ({ fields, marks := draft.marks.declare key, header := key }, rest)

/-- A line that adds a table to a list, after its brackets. -/
def readListTable (budget : Nat) (draft : Draft) (text : List Char) :
    Except Fault (Draft × List Char) := do
  let (key, rest) ← required (readKey? budget (skipBlank text))
  if draft.marks.isFrozen key then throw .notToml
  else
    let name ← required key.getLast?
    let fields ← required (within? true (addItem? name) key.dropLast draft.fields)
    let rest ← required (after? ']' (← required (after? ']' rest)))
    return ({ fields, marks := (draft.marks.release key).declare key, header := key }, rest)

/-- The keys of the tables that a key leads through, seen from a table. -/
def wayTo (header key : List String) : List (List String) :=
  (List.range (key.length - 1)).map fun n => header ++ key.take (n + 1)

/-- A line that gives a value to a key. -/
def readAssignment (budget : Nat) (draft : Draft) (text : List Char) :
    Except Fault (Draft × List Char) := do
  let (key, value, rest) ← readPair budget text
  let full := draft.header ++ key
  let way := wayTo draft.header key
  if way.any draft.marks.isDeclared || draft.marks.isFrozen full.dropLast then throw .notToml
  else
    let fields ← required (putAt? true full value draft.fields)
    let marks := way.foldl Marks.postpone draft.marks
    let marks := if holdsOthers value then marks.freeze full else marks
    return ({ draft with fields, marks }, rest)

/-- A line up to its comment. -/
def readLine (budget : Nat) (draft : Draft) (text : List Char) : Except Fault (Draft × List Char) :=
  match text with
  | '#' :: _ => .ok (draft, text)
  | '[' :: '[' :: rest => readListTable budget { draft with marks := draft.marks.settle } rest
  | '[' :: rest => readTable budget { draft with marks := draft.marks.settle } rest
  | _ => readAssignment budget draft text

/-- The lines of a document, of which there are no more than the budget. -/
def readLines : (budget : Nat) → Draft → List Char → Except Fault Draft
  | 0, _, _ => .error .notToml
  | budget + 1, draft, text =>
    match skipBlank text with
    | [] => .ok draft
    | '\n' :: rest => readLines budget draft rest
    | text => do
      let (draft, rest) ← readLine (2 * text.length + 2) draft text
      match ← required (skipComment? (skipBlank rest)) with
      | [] => return draft
      | '\n' :: rest => readLines budget draft rest
      | _ => throw .notToml

/-! ## Documents -/

/-- A text with line ends of two characters made single. -/
def singleEnds : List Char → List Char
  | [] => []
  | '\r' :: '\n' :: rest => '\n' :: singleEnds rest
  | c :: rest => c :: singleEnds rest

/-- The table that a text spells. -/
def read (text : List Char) : Except Fault Value := do
  let text := singleEnds text
  return .table (← readLines (text.length + 1) {} text).fields

/-- The table that the bytes of a file spell. -/
def ofBytes (bytes : Bytes) : Except Fault Value :=
  match Utf8.decode? bytes with
  | some text => read text
  | none => .error .notUtf8

end ContractHost.Toml
