import ContractHost.Bytes.Width
import ContractHost.Text.Quoted

/-!
# Faults

A fault says why a conversion or a look-up failed. Some faults have a text of their own; the others
are named by their cause alone, and whoever shows them to a reader chooses the words.

* `Fault.text?` gives the text of those that have one.
* `Fault.describe` writes a fault with a given wording for the others.
-/

namespace ContractHost

/-- Why a conversion or a look-up failed. -/
inductive Fault
  /-- A byte string of the wrong size for its kind. -/
  | width (width : Width) (got : Nat)
  /-- A number where the bytes of a fixed width were expected. -/
  | number (width : Width)
  /-- A number that does not fit in 256 bits. -/
  | wide (n : Int)
  /-- A name that no rule set has. -/
  | revision (name : Text)
  /-- A name that the library does not offer. -/
  | attribute (library name : String)
  /-- A field that is not there. -/
  | missingKey
  /-- A value of the wrong type. -/
  | wrongType
  /-- A value of the right type that stands for nothing. -/
  | badValue
  /-- An operation that a value does not have. -/
  | noOperation
  /-- A number beyond the field that has to hold it. -/
  | outOfRange
  /-- A buffer too large for the memory there is. -/
  | outOfMemory
  /-- A text that is not pairs of hexadecimal digits. -/
  | malformedHex
  /-- A text with a character beyond ASCII where none may be. -/
  | nonAscii
  /-- Bytes that are not UTF-8. -/
  | notUtf8
  /-- A text that is not JSON. -/
  | notJson
  /-- A text that is not TOML. -/
  | notToml
  /-- A path that names nothing. -/
  | noFile
  /-- A directory where a file was expected. -/
  | isDirectory
  /-- A file where a directory was expected. -/
  | notDirectory
  /-- A file that is already there. -/
  | fileExists
  /-- A name too long for a path. -/
  | nameTooLong
  /-- A library that does not load. -/
  | notLibrary
  /-- A text that cannot be the name of a function. -/
  | notSymbol
  /-- A failure put in place of a host's method. -/
  | staged (text : String)
  /-- A type text that does not follow the grammar. -/
  | typeGrammar
  /-- A type text whose numbers make no type. -/
  | typeShape
  /-- A type name that no coder has. -/
  | typeUnknown
  /-- A value that its type cannot hold. -/
  | valueBounds
  /-- A value whose kind does not fit its type. -/
  | valueKind
  /-- An offset that leaves its data. -/
  | badPointer
  /-- Data that ends too early. -/
  | shortData
  /-- Padding that is not what it has to be. -/
  | dirtyPadding
  deriving DecidableEq, Repr

namespace Fault

/-- The text of a fault that has one. -/
def text? : Fault → Option Text
  | .width kind got => some s!"{kind.name} requires {kind.size} bytes, got {got}"
  | .number kind => some s!"{kind.name} expects bytes, got int; use from_int()"
  | .wide n => some s!"{n} does not fit in 256 bits"
  | .revision name => some ("Unknown revision: " ++ name)
  | .attribute library name => some s!"module {Text.quoted library} has no attribute {Text.quoted name}"
  | _ => none

/-- A fault in its own text, or else in the words that `wording` has for it. -/
def describe (wording : Fault → String) (fault : Fault) : Text :=
  fault.text?.getD (wording fault)

end Fault

/-- How an operation with errors of its own fails: with one of them, or with a fault that it lets
through. -/
inductive WithFault (ε : Type)
  | error (error : ε)
  | escaped (fault : Fault)
  deriving DecidableEq, Repr

/-- A program's fault let through. -/
def escaping {ε α : Type} (x : Except Fault α) : Except (WithFault ε) α := x.mapError .escaped

/-- A program's error among errors and faults. -/
def ownError {ε α : Type} (x : Except ε α) : Except (WithFault ε) α := x.mapError .error

end ContractHost
