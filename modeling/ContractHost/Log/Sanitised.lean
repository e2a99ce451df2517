import ContractHost.Text.Basic

/-!
# Safe text for terminals

Text from contracts ends up in messages, so what a terminal would obey is taken out of them: escape
sequences as a whole, then carriage returns, then every other control character but the tab and the end
of a line. An escape sequence is an escape with a bracket, parameters, intermediate characters and a final
one, or an escape with a single character. A half of a surrogate pair has no part in these.

* `sanitise`: a text without what a terminal would obey.
-/

namespace ContractHost.Log

/-- The character that begins an escape sequence. -/
def escape : Char := '\x1b'

/-- Whether a character lies between two numbers. -/
def between (first last : Nat) (c : Char) : Bool := first ≤ c.toNat && c.toNat ≤ last

/-- Whether a character is a parameter of a sequence. -/
def isParameter (c : Char) : Bool := between 0x30 0x3f c

/-- Whether a character stands between the parameters and the end of a sequence. -/
def isIntermediate (c : Char) : Bool := between 0x20 0x2f c

/-- Whether a character ends a sequence with a bracket. -/
def isFinal (c : Char) : Bool := between 0x40 0x7e c

/-- Whether a character makes a sequence together with an escape alone. -/
def isSingle (c : Char) : Bool := between 0x40 0x5a c || between 0x5c 0x5f c

/-- What follows a sequence, after its escape. -/
def afterSequence? : List Letter → Option (List Letter)
  | [] => none
  | letter :: rest =>
    if letter.shown = '[' then
      match (rest.dropWhile (isParameter ·.shown)).dropWhile (isIntermediate ·.shown) with
      | letter :: rest => if isFinal letter.shown then some rest else none
      | [] => none
    else if isSingle letter.shown then some rest
    else none

theorem length_afterSequence {text rest : List Letter} (h : afterSequence? text = some rest) :
    rest.length < text.length := by
  match text, h with
  | [], h => exact absurd h (by simp [afterSequence?])
  | letter :: more, h =>
    simp only [afterSequence?] at h
    split at h
    · split at h
      · rename_i d tail heq
        have hp := (List.dropWhile_sublist (p := (isParameter ·.shown)) (l := more)).length_le
        have hi := (List.dropWhile_sublist (p := (isIntermediate ·.shown))
          (l := more.dropWhile (isParameter ·.shown))).length_le
        rw [heq, List.length_cons] at hi
        split at h
        · rw [← Option.some.inj h, List.length_cons]
          omega
        · exact absurd h (by simp)
      · exact absurd h (by simp)
    · split at h
      · rw [← Option.some.inj h]
        simp
      · exact absurd h (by simp)

/-- A text without its escape sequences. -/
def withoutSequences (text : List Letter) : List Letter :=
  match text with
  | [] => []
  | letter :: rest =>
    if letter.shown = escape then
      match _h : afterSequence? rest with
      | some rest => withoutSequences rest
      | none => letter :: withoutSequences rest
    else letter :: withoutSequences rest
termination_by text.length
decreasing_by
  · have := length_afterSequence _h
    simp only [List.length_cons]
    omega
  · simp
  · simp

/-- Whether a character is one that terminals obey: a control but the tab, the end of a line and the
carriage return. -/
def isControl (c : Char) : Bool :=
  (c.toNat < 0x20 && c ≠ '\t' && c ≠ '\n' && c ≠ '\r') || c.toNat = 0x7f

/-- The letters of a text without what a terminal would obey. -/
def sanitise (text : List Letter) : List Letter :=
  ((withoutSequences text).filter (·.shown ≠ '\r')).filter (!isControl ·.shown)

end ContractHost.Log
