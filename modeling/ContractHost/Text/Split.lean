/-!
# Splitting texts

The pieces of a text between the places of a separator. A text without it is one piece.

* `split_sep`: a separator in front leaves an empty piece before it.
-/

namespace ContractHost.Text

/-- The pieces of a text between the places of a separator. -/
def split (sep : Char) : List Char → List (List Char)
  | [] => [[]]
  | c :: rest =>
    if c = sep then [] :: split sep rest
    else match split sep rest with
      | piece :: more => (c :: piece) :: more
      | [] => [[c]]

/-- Whether a text occurs in another. -/
def occurs (part : List Char) : List Char → Bool
  | [] => part.isEmpty
  | c :: rest => part.isPrefixOf (c :: rest) || occurs part rest

theorem split_sep (sep : Char) (rest : List Char) :
    split sep (sep :: rest) = [] :: split sep rest := by
  simp [split]

end ContractHost.Text
