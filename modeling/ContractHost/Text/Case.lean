/-!
# Letter case

Texts are compared with names of ASCII letters, so case is changed only as far as the result can be
ASCII. Capitals include the few letters beyond ASCII whose capital form is ASCII, and folding the few
whose folded form is.
-/

namespace ContractHost.Text

/-- The capital form of a character, if it is ASCII, and else the character. -/
def capital (c : Char) : List Char :=
  match c with
  | 'ß' => ['S', 'S']
  | 'ı' => ['I']
  | 'ſ' => ['S']
  | 'ﬀ' => ['F', 'F']
  | 'ﬁ' => ['F', 'I']
  | 'ﬂ' => ['F', 'L']
  | 'ﬃ' => ['F', 'F', 'I']
  | 'ﬄ' => ['F', 'F', 'L']
  | 'ﬅ' => ['S', 'T']
  | 'ﬆ' => ['S', 'T']
  | c => [c.toUpper]

/-- The folded form of a character, if it is ASCII, and else the character. -/
def fold (c : Char) : List Char :=
  match c with
  | 'ß' => ['s', 's']
  | 'ẞ' => ['s', 's']
  | 'ſ' => ['s']
  | '\u212a' => ['k']
  | 'ﬀ' => ['f', 'f']
  | 'ﬁ' => ['f', 'i']
  | 'ﬂ' => ['f', 'l']
  | 'ﬃ' => ['f', 'f', 'i']
  | 'ﬄ' => ['f', 'f', 'l']
  | 'ﬅ' => ['s', 't']
  | 'ﬆ' => ['s', 't']
  | c => [c.toLower]

/-- The small form of a character, if it is ASCII, and else the character. -/
def small (c : Char) : Char :=
  match c with
  | '\u212a' => 'k'
  | c => c.toLower

/-- A text in capitals. -/
def upper (text : List Char) : List Char := text.flatMap capital

/-- A text in small letters. -/
def lower (text : List Char) : List Char := text.map small

/-- A text with case folded. -/
def casefold (text : List Char) : List Char := text.flatMap fold

end ContractHost.Text
