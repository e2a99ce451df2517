import ContractHost.Text.Blank

/-!
# Lists in text

The items of a list are separated by commas. A comma inside brackets or parentheses belongs to an
item; brackets are only counted, so it does not matter which kind closes which. Each item loses the
white space at its ends and then the double quotes there.

* `pieces_comma`: a comma at the top level ends a piece.
-/

namespace ContractHost.Abi

variable {α : Type} [Seen α]

/-- The depth after a character. -/
def depthAfter (depth : Int) (c : Char) : Int :=
  if c = '[' ∨ c = '(' then depth + 1
  else if c = ']' ∨ c = ')' then depth - 1
  else depth

/-- The piece up to the first comma at the top level, and the pieces after it. -/
def splitFrom (depth : Int) : List α → List α × List (List α)
  | [] => ([], [])
  | c :: rest =>
    if seen c = ',' ∧ depth = 0 then
      let (piece, more) := splitFrom 0 rest
      ([], piece :: more)
    else
      let (piece, more) := splitFrom (depthAfter depth (seen c)) rest
      (c :: piece, more)

/-- The pieces between the commas at the top level. -/
def pieces (text : List α) : List (List α) :=
  (splitFrom 0 text).1 :: (splitFrom 0 text).2

/-- An item without white space and double quotes at its ends. -/
def bareItem (item : List α) : List α :=
  Text.trimBy (seen · = '"') (Text.strip item)

/-- The items of a list without its brackets. White space alone is a list without items. -/
def splitItems (body : List α) : List (List α) :=
  match Text.strip body with
  | [] => []
  | body => (pieces body).map bareItem

/-- The text between the brackets of an array. -/
def unbracket? (text : List α) : Option (List α) :=
  match text with
  | c :: rest =>
    if seen c = '[' ∧ rest.getLast?.map seen = some ']' then some rest.dropLast else none
  | [] => none

theorem pieces_comma {comma : α} (h : seen comma = ',') (rest : List α) :
    pieces (comma :: rest) = [] :: pieces rest := by
  simp [pieces, splitFrom, h]

end ContractHost.Abi
