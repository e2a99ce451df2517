import ContractHost.Document.Value
import ContractHost.Fault

/-!
# Reading JSON

The standard grammar, with `NaN`, `Infinity` and `-Infinity` beside the numbers. Control characters
may not stand in texts, halves of surrogate pairs may. Of fields with the same name the first gives the
place and the last the value. An integer of more than 4300 digits is refused by itself; everything else
that does not follow the grammar is no JSON.

Each reading function takes the letters that are left of the text and gives back what it leaves. The
functions for values count down a budget that the text's length provides.
-/

namespace ContractHost.Json

/-- The greatest number of digits of an integer. -/
def maxDigits : Nat := 4300

/-- Whether a character may stand between tokens. -/
def isSpace (c : Char) : Bool := c = ' ' || c = '\t' || c = '\n' || c = '\r'

/-- A text without the white space in front. -/
def skipSpace (text : List Letter) : List Letter := text.dropWhile (isSpace ·.shown)

/-! ## Texts -/

/-- The number that four hexadecimal digits spell. -/
def unitOf? (a b c d : Char) : Option Nat := do
  let a ← Hex.digitValue? a
  let b ← Hex.digitValue? b
  let c ← Hex.digitValue? c
  let d ← Hex.digitValue? d
  return ((a * 16 + b) * 16 + c) * 16 + d

/-- The character that a letter after a backslash stands for. -/
def escape? (c : Char) : Option Char :=
  match c with
  | '"' => some '"'
  | '\\' => some '\\'
  | '/' => some '/'
  | 'b' => some '\x08'
  | 'f' => some '\x0c'
  | 'n' => some '\n'
  | 'r' => some '\r'
  | 't' => some '\t'
  | _ => none

/-- A piece of a text in quotes. -/
inductive Piece
  /-- A letter, as it is or by its name. -/
  | letter (letter : Letter)
  /-- A letter or a half of one, by its number. -/
  | unit (n : Nat)

/-- The letters of pieces. Two halves that make a pair are one character if both are given by number. -/
def lettersOf : List Piece → List Letter
  | [] => []
  | .letter letter :: rest => letter :: lettersOf rest
  | .unit high :: .unit low :: rest =>
    if Letter.isLeading high && Letter.isTrailing low then
      .char (Char.ofNat (0x10000 + (high - 0xd800) * 0x400 + (low - 0xdc00))) :: lettersOf rest
    else .ofNumber high :: lettersOf (.unit low :: rest)
  | .unit n :: rest => .ofNumber n :: lettersOf rest

/-- The pieces up to the closing quote. -/
def readPieces : List Letter → Except Fault (List Piece × List Letter)
  | [] => .error .notJson
  | .char '"' :: rest => .ok ([], rest)
  | .char '\\' :: .char 'u' :: a :: b :: c :: d :: rest =>
    match unitOf? a.shown b.shown c.shown d.shown with
    | none => .error .notJson
    | some n => do
      let (pieces, rest) ← readPieces rest
      return (.unit n :: pieces, rest)
  | .char '\\' :: letter :: rest =>
    match escape? letter.shown with
    | none => .error .notJson
    | some c => do
      let (pieces, rest) ← readPieces rest
      return (.letter (.char c) :: pieces, rest)
  | letter :: rest =>
    if letter.shown = '\\' ∨ letter.shown.toNat < 0x20 then .error .notJson
    else do
      let (pieces, rest) ← readPieces rest
      return (.letter letter :: pieces, rest)

/-- A text, after its opening quote. -/
def readText (text : List Letter) : Except Fault (Text × List Letter) := do
  let (pieces, rest) ← readPieces text
  return (.ofLetters (lettersOf pieces), rest)

/-! ## Numbers -/

/-- Whether a character is a decimal digit. -/
def isDigit (c : Char) : Bool := '0' ≤ c && c ≤ '9'

/-- The digits in front and what follows them. -/
def spanDigits (text : List Letter) : List Char × List Letter :=
  ((text.takeWhile (isDigit ·.shown)).map Letter.shown, text.dropWhile (isDigit ·.shown))

/-- The digits of a fraction: a point and at least one digit, or nothing. -/
def readFraction (text : List Letter) : Option (List Char) × List Letter :=
  match text with
  | .char '.' :: rest =>
    match spanDigits rest with
    | ([], _) => (none, text)
    | (digits, rest) => (some digits, rest)
  | _ => (none, text)

/-- A power of ten: a mark, perhaps a sign, and at least one digit, or nothing. -/
def readExponent (text : List Letter) : Option Int × List Letter :=
  match text with
  | mark :: rest =>
    if mark.shown = 'e' ∨ mark.shown = 'E' then
      let (negative, rest) := match rest with
        | .char '-' :: rest => (true, rest)
        | .char '+' :: rest => (false, rest)
        | _ => (false, rest)
      match spanDigits rest with
      | ([], _) => (none, text)
      | (digits, rest) =>
        let n : Int := Decimal.ofDigits digits
        (some (if negative then -n else n), rest)
    else (none, text)
  | [] => (none, text)

/-- A number after its sign. -/
def readNumber (negative : Bool) (text : List Letter) : Except Fault (Value × List Letter) :=
  let (whole, rest) := match text with
    | .char '0' :: rest => (['0'], rest)
    | _ => spanDigits text
  if whole.isEmpty then .error .notJson
  else
    let (fraction, rest) := readFraction rest
    let (exponent, rest) := readExponent rest
    match fraction, exponent with
    | none, none =>
      if maxDigits < whole.length then .error .badValue
      else
        let n : Int := Decimal.ofDigits whole
        .ok (.int (if negative then -n else n), rest)
    | _, _ =>
      let fraction := fraction.getD []
      let power := exponent.getD 0 - fraction.length
      .ok (.float (.ofDecimal negative (Decimal.ofDigits (whole ++ fraction)) power), rest)

/-! ## Values -/

mutual

/-- A value at the front of a text. -/
def readValue : (budget : Nat) → List Letter → Except Fault (Value × List Letter)
  | 0, _ => .error .notJson
  | budget + 1, text =>
    match text with
    | .char '"' :: rest => do
      let (t, rest) ← readText rest
      return (.text t, rest)
    | .char '[' :: rest =>
      match skipSpace rest with
      | .char ']' :: rest => .ok (.list [], rest)
      | rest => do
        let (items, rest) ← readItems budget rest
        return (.list items, rest)
    | .char '\x7b' :: rest =>
      match skipSpace rest with
      | .char '\x7d' :: rest => .ok (.table [], rest)
      | rest => do
        let (fields, rest) ← readFields budget [] rest
        return (.table fields, rest)
    | .char 'n' :: .char 'u' :: .char 'l' :: .char 'l' :: rest => .ok (.null, rest)
    | .char 't' :: .char 'r' :: .char 'u' :: .char 'e' :: rest => .ok (.bool true, rest)
    | .char 'f' :: .char 'a' :: .char 'l' :: .char 's' :: .char 'e' :: rest => .ok (.bool false, rest)
    | .char 'N' :: .char 'a' :: .char 'N' :: rest => .ok (.float .nan, rest)
    | .char 'I' :: .char 'n' :: .char 'f' :: .char 'i' :: .char 'n' :: .char 'i' :: .char 't' ::
        .char 'y' :: rest =>
      .ok (.float (.infinite false), rest)
    | .char '-' :: .char 'I' :: .char 'n' :: .char 'f' :: .char 'i' :: .char 'n' :: .char 'i' ::
        .char 't' :: .char 'y' :: rest =>
      .ok (.float (.infinite true), rest)
    | .char '-' :: rest => readNumber true rest
    | _ => readNumber false text

/-- The items of a list up to its closing bracket; there is at least one. -/
def readItems : (budget : Nat) → List Letter → Except Fault (List Value × List Letter)
  | 0, _ => .error .notJson
  | budget + 1, text => do
    let (item, rest) ← readValue budget text
    match skipSpace rest with
    | .char ']' :: rest => return ([item], rest)
    | .char ',' :: rest =>
      let (items, rest) ← readItems budget (skipSpace rest)
      return (item :: items, rest)
    | _ => .error .notJson

/-- The fields of a table up to its closing brace, put after those read so far; there is at least
one. -/
def readFields : (budget : Nat) → List (Text × Value) → List Letter →
    Except Fault (List (Text × Value) × List Letter)
  | 0, _, _ => .error .notJson
  | budget + 1, fields, text =>
    match text with
    | .char '"' :: rest => do
      let (name, rest) ← readText rest
      match skipSpace rest with
      | .char ':' :: rest =>
        let (value, rest) ← readValue budget (skipSpace rest)
        let fields := Value.setField fields name value
        match skipSpace rest with
        | .char '\x7d' :: rest => return (fields, rest)
        | .char ',' :: rest => readFields budget fields (skipSpace rest)
        | _ => .error .notJson
      | _ => .error .notJson
    | _ => .error .notJson

end

/-- The value of a whole text. -/
def read (text : Text) : Except Fault Value := do
  let letters := text.letters
  let (value, rest) ← readValue (2 * letters.length + 2) (skipSpace letters)
  if (skipSpace rest).isEmpty then return value else .error .notJson

end ContractHost.Json
