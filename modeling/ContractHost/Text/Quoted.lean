import ContractHost.Text.Hex
import ContractHost.Text.Basic
import ContractHost.Text.Printable

/-!
# Quoted text

A text in quotes, as messages show it: in single quotes, or in double ones if the text has single
quotes and no double one. The quote in use and the backslash are escaped, tabs and line ends have
escapes of a letter, and every other character without a printed form is given by number.
-/

namespace ContractHost.Text

/-- The digits of a number on at least the given number of places. -/
def paddedHex (places n : Nat) : List Char :=
  let digits := Nat.toDigits 16 n
  List.replicate (places - digits.length) '0' ++ digits

/-- A character given by its number, in the shortest of the three forms. -/
def numbered (n : Nat) : List Char :=
  if n < 0x100 then '\\' :: 'x' :: paddedHex 2 n
  else if n < 0x10000 then '\\' :: 'u' :: paddedHex 4 n
  else '\\' :: 'U' :: paddedHex 8 n

/-- A character inside quotes. -/
def quotedChar (quote c : Char) : List Char :=
  if c = quote ∨ c = '\\' then ['\\', c]
  else if c = '\t' then ['\\', 't']
  else if c = '\n' then ['\\', 'n']
  else if c = '\r' then ['\\', 'r']
  else if isPrintable c then [c]
  else numbered c.toNat

/-- A letter inside quotes. -/
def quotedLetter (quote : Char) : Letter → List Char
  | .char c => quotedChar quote c
  | .half h => numbered h.number

/-- The quote that a text is put in. -/
def quoteFor (text : List Char) : Char :=
  if text.contains '\'' && !text.contains '"' then '"' else '\''

/-- A text in quotes. -/
def quoted (text : Text) : String :=
  let quote := quoteFor text.chars
  String.ofList (quote :: text.letters.flatMap (quotedLetter quote) ++ [quote])

/-- A text as a string, with halves given by number. -/
def spelledOut (text : Text) : String :=
  String.ofList (text.letters.flatMap fun
    | .char c => [c]
    | .half h => numbered h.number)

end ContractHost.Text
