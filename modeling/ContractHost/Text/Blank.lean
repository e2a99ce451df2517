import ContractHost.Text.Basic

/-!
# White space

The characters that count as white space at the ends of a text: those with the Unicode property, and
the four separators U+001C to U+001F.

* `isBlank_of_isWhitespace`: every character of the basic class is among them.
-/

namespace ContractHost.Text

/-- The first and last character of each run of white space. -/
def blankRanges : List (Nat × Nat) :=
  [(0x09, 0x0d), (0x1c, 0x20), (0x85, 0x85), (0xa0, 0xa0), (0x1680, 0x1680), (0x2000, 0x200a),
   (0x2028, 0x2029), (0x202f, 0x202f), (0x205f, 0x205f), (0x3000, 0x3000)]

/-- Whether a character is white space. -/
def isBlank (c : Char) : Bool :=
  blankRanges.any fun (first, last) => first ≤ c.toNat && c.toNat ≤ last

/-- A list without the leading and trailing items of a class. -/
def trimBy {α : Type} (p : α → Bool) (items : List α) : List α :=
  ((items.dropWhile p).reverse.dropWhile p).reverse

/-- A text without white space at its ends. -/
def strip {α : Type} [Seen α] (text : List α) : List α := trimBy (fun c => isBlank (seen c)) text

theorem strip_chars (text : List Char) : strip text = trimBy isBlank text := rfl

theorem isBlank_of_isWhitespace (c : Char) (h : c.isWhitespace = true) : isBlank c = true := by
  simp only [Char.isWhitespace, Bool.or_eq_true, decide_eq_true_eq] at h
  rcases h with ((h | h) | h) | h <;> subst h <;> decide

end ContractHost.Text
