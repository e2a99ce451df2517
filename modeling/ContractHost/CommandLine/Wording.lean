import ContractHost.Fault

/-!
# Words for faults

What a reader is told about faults that have no text of their own. The others are given no words.
-/

namespace ContractHost.CommandLine

/-- The words for a fault. -/
def wording (fault : Fault) : String :=
  match fault with
  | .missingKey => "a field is missing"
  | .wrongType => "a value is of the wrong type"
  | .badValue => "a value stands for nothing"
  | .noOperation => "a value does not have the operation"
  | .outOfRange => "a number is out of range"
  | .outOfMemory => "there is not enough memory"
  | .malformedHex => "not pairs of hexadecimal digits"
  | .nonAscii => "a character is beyond ASCII"
  | .notUtf8 => "not UTF-8"
  | .notJson => "not JSON"
  | .notToml => "not TOML"
  | .noFile => "no such file or directory"
  | .isDirectory => "is a directory"
  | .notDirectory => "not a directory"
  | .fileExists => "the file exists"
  | .nameTooLong => "the name is too long"
  | .notLibrary => "not a library"
  | .notSymbol => "not the name of a function"
  | .staged text => text
  | .typeGrammar => "not a type"
  | .typeShape => "no type has these numbers"
  | .typeUnknown => "no type has this name"
  | .valueBounds => "a value is out of bounds"
  | .valueKind => "a value does not fit its type"
  | .badPointer => "an offset leaves the data"
  | .shortData => "the data ends too early"
  | .dirtyPadding => "the padding is not empty"
  | _ => ""

end ContractHost.CommandLine
