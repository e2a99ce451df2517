/-!
# Texts

A text is a sequence of letters. Most letters are characters. But an escape in a document may name one
half of a surrogate pair without the other, and then the half is a letter, though it is no character and
has no bytes. So a text is a string, or a string up to a half that stands alone, the half, and the text
after it. A grammar that has no use for halves reads the characters of a text, where U+FFFD stands in the
places of halves; such a grammar has no use for that character either.

* `Text.letters`, `Text.ofLetters`: the letters of a text, and the text of letters.
* `letters_ofLetters`, `ofLetters_letters`: every list of letters is that of one text.
-/

namespace ContractHost

/-- A half of a surrogate pair, by its number. -/
structure Half where
  number : Nat
  isHalf : 0xd800 ≤ number ∧ number < 0xe000
  deriving DecidableEq, Repr

/-- A letter of a text. -/
inductive Letter
  | char (c : Char)
  | half (h : Half)
  deriving DecidableEq, Repr

/-- A text. -/
inductive Text
  /-- Characters alone. -/
  | plain (s : String)
  /-- Characters, a half, and what follows it. -/
  | halved (front : String) (h : Half) (rest : Text)
  deriving DecidableEq, Repr

/-- What a grammar can see as characters. -/
class Seen (α : Type) where
  seen : α → Char

export Seen (seen)

instance : Seen Char := ⟨fun c => c⟩

@[simp]
theorem seen_char (c : Char) : seen c = c := rfl

namespace Letter

/-- The character in the place of a letter. -/
def shown : Letter → Char
  | char c => c
  | half _ => '\ufffd'

instance : Seen Letter := ⟨shown⟩

/-! ## Numbers of letters -/

/-- Whether a number is that of a leading half. -/
def isLeading (unit : Nat) : Bool := 0xd800 ≤ unit && unit < 0xdc00

/-- Whether a number is that of a trailing half. -/
def isTrailing (unit : Nat) : Bool := 0xdc00 ≤ unit && unit < 0xe000

/-- The letter of a number. -/
def ofNumber (n : Nat) : Letter :=
  if h : 0xd800 ≤ n ∧ n < 0xe000 then half ⟨n, h⟩ else char (Char.ofNat n)

/-- The numbers of a letter as one unit, or as the two halves of a pair. -/
def units : Letter → List Nat
  | half h => [h.number]
  | char c =>
    if c.toNat < 0x10000 then [c.toNat]
    else [0xd800 + (c.toNat - 0x10000) / 0x400, 0xdc00 + (c.toNat - 0x10000) % 0x400]

end Letter

namespace Text

instance : Coe String Text := ⟨plain⟩

instance : Inhabited Text := ⟨plain ""⟩

/-- The text of characters. -/
def ofChars (chars : List Char) : Text := plain (String.ofList chars)

/-- The string that a text without halves is. -/
def string? : Text → Option String
  | plain s => some s
  | halved .. => none

/-! ## Letters -/

/-- The letters of a text. -/
def letters : Text → List Letter
  | plain s => s.toList.map .char
  | halved front h rest => front.toList.map .char ++ .half h :: rest.letters

/-- The text of letters after characters, which are given the other way round. -/
def ofLettersAfter (front : List Char) : List Letter → Text
  | [] => plain (String.ofList front.reverse)
  | .char c :: rest => ofLettersAfter (c :: front) rest
  | .half h :: rest => halved (String.ofList front.reverse) h (ofLettersAfter [] rest)

/-- The text of letters. -/
def ofLetters (letters : List Letter) : Text := ofLettersAfter [] letters

theorem letters_ofLettersAfter (front : List Char) (letters : List Letter) :
    (ofLettersAfter front letters).letters = front.reverse.map .char ++ letters := by
  induction letters generalizing front with
  | nil => rw [ofLettersAfter, Text.letters, String.toList_ofList, List.append_nil]
  | cons letter rest ih =>
    cases letter with
    | char c => rw [ofLettersAfter, ih, List.reverse_cons, List.map_append, List.append_assoc]; rfl
    | half h => rw [ofLettersAfter, Text.letters, ih, String.toList_ofList]; rfl

theorem ofLettersAfter_append (front chars : List Char) (letters : List Letter) :
    ofLettersAfter front (chars.map .char ++ letters) =
      ofLettersAfter (chars.reverse ++ front) letters := by
  induction chars generalizing front with
  | nil => rfl
  | cons c chars ih =>
    rw [List.map_cons, List.cons_append, ofLettersAfter, ih, List.reverse_cons, List.append_assoc]
    rfl

theorem letters_ofLetters (letters : List Letter) : (ofLetters letters).letters = letters :=
  letters_ofLettersAfter [] letters

theorem ofLetters_letters (text : Text) : ofLetters text.letters = text := by
  induction text with
  | plain s =>
    have h := ofLettersAfter_append [] s.toList []
    rw [List.append_nil, List.append_nil, ofLettersAfter, List.reverse_reverse,
      String.ofList_toList] at h
    exact h
  | halved front h rest ih =>
    rw [letters, ofLetters, ofLettersAfter_append, List.append_nil, ofLettersAfter,
      List.reverse_reverse, String.ofList_toList]
    exact congrArg (halved front h) ih

@[simp]
theorem letters_ofChars (chars : List Char) : (ofChars chars).letters = chars.map .char := by
  rw [ofChars, letters, String.toList_ofList]

theorem ofLetters_chars (chars : List Char) : ofLetters (chars.map .char) = ofChars chars := by
  rw [← letters_ofChars, ofLetters_letters]

/-! ## Characters -/

/-- The characters of a text, with U+FFFD in the places of halves. -/
def chars : Text → List Char
  | plain s => s.toList
  | halved front _ rest => front.toList ++ '\ufffd' :: rest.chars

/-- A text as a string, with U+FFFD in the places of halves. -/
def shown (text : Text) : String := String.ofList text.chars

@[simp]
theorem chars_plain (s : String) : (plain s).chars = s.toList := rfl

theorem ofChars_toList (s : String) : ofChars s.toList = plain s := congrArg plain String.ofList_toList

@[simp]
theorem chars_ofChars (chars : List Char) : (ofChars chars).chars = chars := String.toList_ofList

theorem map_shown_chars (chars : List Char) : (chars.map Letter.char).map Letter.shown = chars := by
  rw [List.map_map]
  exact List.map_id chars

theorem map_chars_ofChars (texts : List (List Char)) : (texts.map ofChars).map chars = texts := by
  have hid : chars ∘ ofChars = id := funext chars_ofChars
  rw [List.map_map, hid, List.map_id]

theorem chars_eq (text : Text) : text.chars = text.letters.map Letter.shown := by
  induction text with
  | plain s => rw [chars, letters, map_shown_chars]
  | halved front h rest ih =>
    rw [chars, letters, List.map_append, map_shown_chars, List.map_cons, ← ih, Letter.shown]

theorem chars_ofLetters (letters : List Letter) :
    (ofLetters letters).chars = letters.map Letter.shown := by
  rw [chars_eq, letters_ofLetters]

/-! ## Texts in a row -/

/-- A text with another behind it. -/
def append : Text → Text → Text
  | plain s, plain t => plain (s ++ t)
  | plain s, halved front h rest => halved (s ++ front) h rest
  | halved front h rest, text => halved front h (rest.append text)

instance : Append Text := ⟨append⟩

end Text

end ContractHost
