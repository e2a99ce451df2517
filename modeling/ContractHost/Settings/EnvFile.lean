import ContractHost.Environment
import ContractHost.Text.Blank

/-!
# Files of settings

A file of settings has lines of the form `NAME=value`, perhaps with `export` in front. A name may be in
single quotes; a value may be in quotes of either kind, inside which it may span lines and has escapes.
A value without quotes ends with its line or where a comment begins, and a comment begins with a `#`
after white space. A name alone is set to nothing. What does not have this form is skipped up to the
end of its line.

In a value, `${NAME}` stands for the value of a name, and `${NAME:-text}` for that or else for the text.

* `bindings`: the names and values of a file.
* `resolve`: the values with names in them put in, a later value of a name instead of an earlier one.
-/

namespace ContractHost.EnvFile

/-- A name with its value, if it has one. -/
abbrev Binding := String × Option String

/-- Whether a character is white space inside a line. -/
def isBlank (c : Char) : Bool := Text.isBlank c && c ≠ '\n'

/-- A text without the white space of its line in front. -/
def skipBlank (text : List Char) : List Char := text.dropWhile isBlank

/-- What follows the end of the line. -/
def nextLine (text : List Char) : List Char := (text.dropWhile (· ≠ '\n')).drop 1

/-- A text with line ends of all kinds made the same. -/
def singleEnds : List Char → List Char
  | [] => []
  | '\r' :: '\n' :: rest => '\n' :: singleEnds rest
  | '\r' :: rest => '\n' :: singleEnds rest
  | c :: rest => c :: singleEnds rest

/-! ## Quotes -/

/-- The characters up to the closing quote, and what follows it. A quote after a backslash does not
close, unless no other does. -/
def readQuoted? (quote : Char) : List Char → Option (List Char × List Char)
  | [] => none
  | [c] => if c = quote then some ([], []) else none
  | c :: d :: rest =>
    if c = quote then some ([], d :: rest)
    else if c = '\\' ∧ d = quote then
      match readQuoted? quote rest with
      | some (s, rest) => some (c :: d :: s, rest)
      | none => some ([c], rest)
    else (readQuoted? quote (d :: rest)).map fun (s, rest) => (c :: s, rest)

/-- The character that one after a backslash stands for in single quotes. -/
def singleEscape? (c : Char) : Option Char :=
  match c with
  | '\\' => some '\\'
  | '\'' => some '\''
  | _ => none

/-- The character that one after a backslash stands for in double quotes. -/
def doubleEscape? (c : Char) : Option Char :=
  match c with
  | '\\' => some '\\'
  | '\'' => some '\''
  | '"' => some '"'
  | 'a' => some '\x07'
  | 'b' => some '\x08'
  | 'f' => some '\x0c'
  | 'n' => some '\n'
  | 'r' => some '\r'
  | 't' => some '\t'
  | 'v' => some '\x0b'
  | _ => none

/-- A text with its escapes replaced; a backslash that begins none stays. -/
def unescape (escape? : Char → Option Char) : List Char → List Char
  | [] => []
  | [c] => [c]
  | c :: d :: rest =>
    match if c = '\\' then escape? d else none with
    | some e => e :: unescape escape? rest
    | none => c :: unescape escape? (d :: rest)

/-! ## Bindings -/

/-- What follows `export` and white space in front, if both are there. -/
def afterExport (text : List Char) : List Char :=
  match text with
  | 'e' :: 'x' :: 'p' :: 'o' :: 'r' :: 't' :: c :: rest => if isBlank c then skipBlank rest else text
  | _ => text

/-- Whether a character may stand in a name without quotes. -/
def isNameChar (c : Char) : Bool := c ≠ '=' && c ≠ '#' && !Text.isBlank c

/-- The name in front. There is none where a comment begins; where a name is wrong, the text is left as
it is. -/
def readName (text : List Char) : Except (List Char) (Option (List Char) × List Char) :=
  match text with
  | '#' :: _ => .ok (none, text)
  | '\'' :: rest =>
    match rest.takeWhile (· ≠ '\''), rest.dropWhile (· ≠ '\'') with
    | c :: name, _ :: rest => .ok (some (c :: name), rest)
    | _, _ => .error text
  | _ =>
    match text.takeWhile isNameChar with
    | [] => .error text
    | name => .ok (some name, text.dropWhile isNameChar)

/-- A line up to the white space in front of a comment. -/
def beforeComment : List Char → List Char
  | [] => []
  | c :: rest =>
    if Text.isBlank c ∧ (rest.dropWhile Text.isBlank).head? = some '#' then []
    else c :: beforeComment rest

/-- The value in front, or the text as it is where the closing quote is missing. -/
def readValue (text : List Char) : Except (List Char) (List Char × List Char) :=
  match text with
  | '\'' :: rest =>
    match readQuoted? '\'' rest with
    | some (s, rest) => .ok (unescape singleEscape? s, rest)
    | none => .error text
  | '"' :: rest =>
    match readQuoted? '"' rest with
    | some (s, rest) => .ok (unescape doubleEscape? s, rest)
    | none => .error text
  | _ =>
    .ok (Text.strip (beforeComment (text.takeWhile (· ≠ '\n'))), text.dropWhile (· ≠ '\n'))

/-- A text without the comment of its line in front. -/
def skipComment (text : List Char) : List Char :=
  match skipBlank text with
  | '#' :: rest => rest.dropWhile (· ≠ '\n')
  | _ => text

/-- The binding in front and what follows its line, or the text where the line is wrong. -/
def readBinding (text : List Char) : Except (List Char) (Option Binding × List Char) := do
  let (name, rest) ← readName (afterExport text)
  let (value, rest) ← match skipBlank rest with
    | '=' :: rest => do
      let (value, rest) ← readValue (skipBlank rest)
      pure (some (String.ofList value), rest)
    | rest => pure (none, rest)
  let binding := name.map fun name => (String.ofList name, value)
  match skipBlank (skipComment rest) with
  | [] => return (binding, [])
  | '\n' :: rest => return (binding, rest)
  | rest => throw rest

/-- The bindings of a text, of whose lines no more than the budget are read. -/
def readBindings : (budget : Nat) → List Char → List Binding
  | 0, _ => []
  | budget + 1, text =>
    match text.dropWhile Text.isBlank with
    | [] => []
    | text =>
      match readBinding text with
      | .ok (binding, rest) => binding.toList ++ readBindings budget rest
      | .error rest => readBindings budget (nextLine rest)

/-- The names and values of a file. -/
def bindings (text : List Char) : List Binding :=
  let text := singleEnds text
  readBindings (text.length + 1) text

/-! ## Values with names in them -/

/-- A name with a text to use if it has no value, after the opening brace. -/
def readReference? (text : List Char) : Option (String × String × List Char) :=
  let isEnd (c : Char) : Bool := c = '\x7d' || c = ':'
  let name := String.ofList (text.takeWhile (!isEnd ·))
  match text.dropWhile (!isEnd ·) with
  | '\x7d' :: rest => some (name, "", rest)
  | ':' :: '-' :: rest =>
    match rest.dropWhile (· ≠ '\x7d') with
    | _ :: more => some (name, String.ofList (rest.takeWhile (· ≠ '\x7d')), more)
    | [] => none
  | _ => none

theorem length_readReference {text rest : List Char} {name fallback : String}
    (h : readReference? text = some (name, fallback, rest)) : rest.length < text.length := by
  simp only [readReference?] at h
  split at h
  · rename_i more heq
    obtain ⟨-, -, rfl⟩ := by simpa using h
    have := (List.dropWhile_sublist (p := fun c => !(c = '\x7d' || c = ':')) (l := text)).length_le
    rw [heq, List.length_cons] at this
    omega
  · rename_i more heq
    have hname := (List.dropWhile_sublist (p := fun c => !(c = '\x7d' || c = ':')) (l := text)).length_le
    rw [heq] at hname
    split at h
    · rename_i _ tail htail
      obtain ⟨-, -, rfl⟩ := by simpa using h
      have := (List.dropWhile_sublist (p := (· ≠ '\x7d')) (l := more)).length_le
      rw [htail] at this
      simp only [List.length_cons] at this hname
      omega
    · exact absurd h (by simp)
  · exact absurd h (by simp)

/-- A piece of a value. -/
inductive Piece
  | char (c : Char)
  /-- A name, and a text to use if it has no value. -/
  | reference (name fallback : String)
  deriving DecidableEq, Repr

/-- The pieces of a value. -/
def pieces (text : List Char) : List Piece :=
  match text with
  | [] => []
  | [c] => [.char c]
  | c :: d :: rest =>
    if c = '$' ∧ d = '\x7b' then
      match _h : readReference? rest with
      | some (name, fallback, rest) => .reference name fallback :: pieces rest
      | none => .char c :: pieces (d :: rest)
    else .char c :: pieces (d :: rest)
termination_by text.length
decreasing_by
  · have := length_readReference _h
    simp only [List.length_cons]
    omega
  · simp
  · simp

/-- The text of a piece. -/
def Piece.write (valueOf : String → Option String) : Piece → List Char
  | .char c => [c]
  | .reference name fallback => ((valueOf name).getD fallback).toList

/-- A text with the names in it replaced by their values. -/
def expand (valueOf : String → Option String) (text : List Char) : List Char :=
  (pieces text).flatMap (·.write valueOf)

/-- The names in a text. -/
def references (text : List Char) : List String :=
  (pieces text).filterMap fun
    | .reference name _ => some name
    | .char _ => none

/-- Names with their values, if they have any. -/
abbrev Assignments := OrderedMap String (Option String)

/-- The value of a name: one assigned before, or else a variable of the environment. -/
def valueOf (env : Environment) (assigned : Assignments) (name : String) : Option String :=
  match assigned.get? name with
  | some value => some (value.getD "")
  | none => env.get? name

/-- The values of names, each of which may have names in it that were assigned before. -/
def resolve (env : Environment) (bindings : List Binding) : Assignments :=
  bindings.foldl (fun assigned (name, value) =>
    assigned.insert name (value.map fun value =>
      String.ofList (expand (valueOf env assigned) value.toList))) ∅

end ContractHost.EnvFile
