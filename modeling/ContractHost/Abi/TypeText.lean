import ContractHost.Decimal.Digits

/-!
# Types as they are written

A type is a name with an optional size, or a tuple of types in parentheses, and any number of array
parts after it. Numbers have no leading zero and are not zero, tuples are not empty, and there is no
white space anywhere.

* `TypeText.read?` reads a type.
* `TypeText.expand` writes the short names of types out.
-/

namespace ContractHost.Abi

/-- What follows the name of a type. -/
inductive Suffix
  /-- Nothing. -/
  | none
  /-- One number. -/
  | one (n : Nat)
  /-- Two numbers with an `x` between them. -/
  | two (m n : Nat)
  deriving DecidableEq, Repr

/-- A type as it is written. -/
inductive TypeText
  /-- A name and what follows it. -/
  | basic (name : String) (suffix : Suffix)
  /-- A tuple. -/
  | tuple (components : List TypeText)
  /-- An array, of a fixed size if there is one. -/
  | array (item : TypeText) (size : Option Nat)

namespace TypeText

/-! ## Reading -/

/-- Whether a character is an ASCII letter. -/
def isLetter (c : Char) : Bool := ('a' ≤ c && c ≤ 'z') || ('A' ≤ c && c ≤ 'Z')

/-- Whether a character is an ASCII digit. -/
def isDigit (c : Char) : Bool := '0' ≤ c && c ≤ '9'

/-- A number at the front of a text and what follows it. -/
def readNumber? (text : List Char) : Option (Nat × List Char) :=
  match text with
  | c :: _ =>
    if isDigit c ∧ c ≠ '0' then
      some (Decimal.ofDigits (text.takeWhile isDigit), text.dropWhile isDigit)
    else none
  | [] => none

/-- What follows a name, and what follows that. -/
def readSuffix (text : List Char) : Suffix × List Char :=
  match readNumber? text with
  | none => (.none, text)
  | some (m, 'x' :: rest) =>
    match readNumber? rest with
    | some (n, rest) => (.two m n, rest)
    | none => (.one m, 'x' :: rest)
  | some (m, rest) => (.one m, rest)

/-- A type with the array parts that follow it. Each part takes at least two characters. -/
def readArrays : (budget : Nat) → TypeText → List Char → TypeText × List Char
  | 0, type, text => (type, text)
  | budget + 1, type, text =>
    match text with
    | '[' :: ']' :: rest => readArrays budget (.array type none) rest
    | '[' :: rest =>
      match readNumber? rest with
      | some (size, ']' :: rest) => readArrays budget (.array type (some size)) rest
      | _ => (type, text)
    | _ => (type, text)

mutual

/-- A type at the front of a text and what follows it. -/
def readType : (budget : Nat) → List Char → Option (TypeText × List Char)
  | 0, _ => none
  | budget + 1, text =>
    match text with
    | '(' :: rest => do
      let (components, rest) ← readComponents budget rest
      return readArrays rest.length (.tuple components) rest
    | _ =>
      let name := text.takeWhile isLetter
      if name.isEmpty then none
      else
        let (suffix, rest) := readSuffix (text.dropWhile isLetter)
        some (readArrays rest.length (.basic (String.ofList name) suffix) rest)

/-- The components of a tuple up to its closing parenthesis; there is at least one. -/
def readComponents : (budget : Nat) → List Char → Option (List TypeText × List Char)
  | 0, _ => none
  | budget + 1, text => do
    let (type, rest) ← readType budget text
    match rest with
    | ')' :: rest => return ([type], rest)
    | ',' :: rest =>
      let (types, rest) ← readComponents budget rest
      return (type :: types, rest)
    | _ => none

end

/-- The type that a whole text spells. -/
def read? (text : List Char) : Option TypeText :=
  match readType (2 * text.length + 1) text with
  | some (type, []) => some type
  | _ => none

/-! ## Short names -/

/-- A name and its suffix written out: some names alone are short for one with a size. -/
def expandBasic (name : String) (suffix : Suffix) : TypeText :=
  match name, suffix with
  | "int", .none => .basic "int" (.one 256)
  | "uint", .none => .basic "uint" (.one 256)
  | "fixed", .none => .basic "fixed" (.two 128 18)
  | "ufixed", .none => .basic "ufixed" (.two 128 18)
  | "function", .none => .basic "bytes" (.one 24)
  | "byte", .none => .basic "bytes" (.one 1)
  | name, suffix => .basic name suffix

mutual

/-- A type with all short names written out. -/
def expand : TypeText → TypeText
  | .basic name suffix => expandBasic name suffix
  | .tuple components => .tuple (expandAll components)
  | .array item size => .array item.expand size

/-- Types with all short names written out. -/
def expandAll : List TypeText → List TypeText
  | [] => []
  | type :: rest => type.expand :: expandAll rest

end

end TypeText

end ContractHost.Abi
