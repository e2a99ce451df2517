import ContractHost.Json.Reader
import ContractHost.Json.Writer

/-!
# Tokens that read back

White space is skipped, a text that needs no escapes reads back from its quoted form, and an integer
reads back from its digits if no more than 4300 were written and what follows does not go on with them.

* `readText_quotedChars`: a text in quotes.
* `readValue_intChars`: an integer.
-/

namespace ContractHost

/-- A text of characters that stand for themselves inside quotes. -/
def PlainText : Text → Prop
  | .plain s => ∀ c ∈ s.toList, c ≠ '"' ∧ c ≠ '\\' ∧ 0x20 ≤ c.toNat ∧ c.toNat < 0x7f
  | .halved .. => False

instance : DecidablePred PlainText
  | .plain s => List.decidableBAll _ s.toList
  | .halved .. => .isFalse id

namespace Json

/-! ## White space -/

theorem skipSpace_cons {c : Char} (h : isSpace c = false) (rest : List Letter) :
    skipSpace (.char c :: rest) = .char c :: rest := by
  have hnot : ¬ isSpace (Letter.char c).shown = true := by
    rw [Letter.shown, h]
    exact Bool.false_ne_true
  unfold skipSpace
  exact List.dropWhile_cons_of_neg hnot

theorem skipSpace_append {spaces : List Char} (h : ∀ c ∈ spaces, isSpace c = true)
    (rest : List Letter) : skipSpace (spaces.map .char ++ rest) = skipSpace rest := by
  unfold skipSpace
  exact List.dropWhile_append_of_pos (List.forall_mem_map.2 h)

theorem isSpace_of_mem_newline {level : Nat} {c : Char} (h : c ∈ newline level) :
    isSpace c = true := by
  rcases List.mem_cons.1 h with rfl | hspace
  · rfl
  · rw [List.eq_of_mem_replicate hspace]
    rfl

theorem skipSpace_first (layout : Layout) (level : Nat) (rest : List Letter) :
    skipSpace ((layout.first level).map .char ++ rest) = skipSpace rest := by
  apply skipSpace_append
  intro c hc
  cases layout with
  | line => cases hc
  | indented => exact isSpace_of_mem_newline hc

/-- Between two items stands a comma and white space. -/
theorem between_eq (layout : Layout) (level : Nat) :
    ∃ spaces, layout.between level = ',' :: spaces ∧
      (∀ rest, skipSpace ((layout.between level).map .char ++ rest) =
        .char ',' :: (spaces.map .char ++ rest)) ∧
      ∀ rest, skipSpace (spaces.map .char ++ rest) = skipSpace rest := by
  have hcomma (spaces : List Char) (rest : List Letter) :
      skipSpace ((',' :: spaces).map .char ++ rest) = .char ',' :: (spaces.map .char ++ rest) :=
    @skipSpace_cons ',' rfl (spaces.map Letter.char ++ rest)
  cases layout with
  | line =>
    exact ⟨[' '], rfl, hcomma _, skipSpace_append (List.forall_mem_singleton.2 rfl)⟩
  | indented =>
    exact ⟨_, rfl, hcomma _, skipSpace_append fun c hc => isSpace_of_mem_newline hc⟩

/-! ## Texts -/

theorem escapedChar_plain {c : Char}
    (h : c ≠ '"' ∧ c ≠ '\\' ∧ 0x20 ≤ c.toNat ∧ c.toNat < 0x7f) : escapedChar c = [c] := by
  obtain ⟨hquote, hslash, hleast, hmost⟩ := h
  have hnot : ∀ d : Char, d.toNat < 0x20 → c ≠ d := by
    rintro d hd rfl
    omega
  unfold escapedChar
  rw [if_neg hquote, if_neg hslash, if_neg (hnot _ (by decide)), if_neg (hnot _ (by decide)),
    if_neg (hnot _ (by decide)), if_neg (hnot _ (by decide)), if_neg (hnot _ (by decide)),
    if_pos ⟨hleast, hmost⟩]

theorem flatMap_escapedLetter_plain {text : List Char}
    (h : ∀ c ∈ text, c ≠ '"' ∧ c ≠ '\\' ∧ 0x20 ≤ c.toNat ∧ c.toNat < 0x7f) :
    (text.map .char).flatMap escapedLetter = text := by
  induction text with
  | nil => rfl
  | cons c rest ih =>
    rw [List.map_cons, List.flatMap_cons, ih fun d hd => h d (List.mem_cons_of_mem c hd),
      escapedLetter, escapedChar_plain (h c List.mem_cons_self)]
    rfl

theorem readPieces_plain {text : List Char}
    (h : ∀ c ∈ text, c ≠ '"' ∧ c ≠ '\\' ∧ 0x20 ≤ c.toNat ∧ c.toNat < 0x7f) (rest : List Letter) :
    readPieces (text.map .char ++ .char '"' :: rest) =
      .ok (text.map fun c => .letter (.char c), rest) := by
  induction text with
  | nil => rfl
  | cons c more ih =>
    obtain ⟨hquote, hslash, hleast, -⟩ := h c List.mem_cons_self
    have hallowed : ¬ (c = '\\' ∨ c.toNat < 0x20) := by
      rintro (rfl | hless)
      · exact hslash rfl
      · omega
    rw [List.map_cons, List.cons_append, readPieces, Letter.shown, if_neg hallowed,
      ih fun d hd => h d (List.mem_cons_of_mem c hd)]
    · rfl
    · exact fun heq => hquote (Letter.char.inj heq)
    · exact fun _ _ _ _ _ heq _ => hslash (Letter.char.inj heq)
    · exact fun _ _ heq _ => hslash (Letter.char.inj heq)

theorem lettersOf_letters (letters : List Letter) : lettersOf (letters.map .letter) = letters := by
  induction letters with
  | nil => rfl
  | cons letter rest ih => exact congrArg (letter :: ·) ih

theorem readText_quotedChars {text : Text} (h : PlainText text) (rest : List Letter) :
    ∃ body, (quotedChars text).map .char ++ rest = .char '"' :: body ∧
      readText body = .ok (text, rest) := by
  cases text with
  | halved front half more => exact h.elim
  | plain s =>
    refine ⟨s.toList.map .char ++ .char '"' :: rest, ?_, ?_⟩
    · unfold quotedChars
      rw [Text.letters, flatMap_escapedLetter_plain h, List.map_append, List.append_assoc]
      rfl
    · have hletters : lettersOf (s.toList.map fun c => .letter (.char c)) = s.toList.map .char := by
        rw [← lettersOf_letters (s.toList.map .char), List.map_map]
        rfl
      unfold readText
      rw [readPieces_plain h rest]
      show Except.ok (Text.ofLetters (lettersOf (s.toList.map fun c => .letter (.char c))), rest) = _
      rw [hletters, Text.ofLetters_chars, Text.ofChars_toList]

/-! ## Integers -/

/-- What does not go on with a number that stands before it. -/
def Stops (rest : List Letter) : Prop :=
  ∀ letter more, rest = letter :: more →
    isDigit letter.shown = false ∧ letter.shown ≠ '.' ∧ letter.shown ≠ 'e' ∧ letter.shown ≠ 'E'

theorem isDigit_of_isDigit {c : Char} (h : c.isDigit = true) : isDigit c = true := by
  rw [Char.isDigit, Bool.and_eq_true, decide_eq_true_eq, decide_eq_true_eq] at h
  rw [isDigit, Bool.and_eq_true, decide_eq_true_eq, decide_eq_true_eq]
  exact h

theorem spanDigits_append {digits : List Char} {rest : List Letter}
    (h : ∀ c ∈ digits, c.isDigit = true) (stops : Stops rest) :
    spanDigits (digits.map .char ++ rest) = (digits, rest) := by
  have hdigits : ∀ letter ∈ digits.map Letter.char, isDigit letter.shown = true :=
    List.forall_mem_map.2 fun c hc => isDigit_of_isDigit (h c hc)
  unfold spanDigits
  rw [List.takeWhile_append_of_pos hdigits, List.dropWhile_append_of_pos hdigits]
  cases rest with
  | nil => rw [List.takeWhile_nil, List.append_nil, Text.map_shown_chars, List.dropWhile_nil]
  | cons letter more =>
    have hletter := (stops letter more rfl).1
    rw [List.takeWhile_cons_of_neg (by simp [hletter]), List.dropWhile_cons_of_neg (by simp [hletter]),
      List.append_nil, Text.map_shown_chars]

theorem readFraction_stops {rest : List Letter} (stops : Stops rest) :
    readFraction rest = (none, rest) := by
  unfold readFraction
  split
  · exact absurd rfl (stops (.char '.') _ rfl).2.1
  · rfl

theorem readExponent_stops {rest : List Letter} (stops : Stops rest) :
    readExponent rest = (none, rest) := by
  cases rest with
  | nil => rfl
  | cons mark more =>
    obtain ⟨-, -, hsmall, hlarge⟩ := stops mark more rfl
    have hmark : ¬ (mark.shown = 'e' ∨ mark.shown = 'E') := fun h => h.elim hsmall hlarge
    simp only [readExponent, if_neg hmark]

/-- The digits of a number are read as its whole part, be it zero or not. -/
theorem readNumber_of_span {whole : List Char} {text rest : List Letter}
    (h : whole = ['0'] ∧ text = .char '0' :: rest ∨
      (∀ more, text ≠ .char '0' :: more) ∧ spanDigits text = (whole, rest))
    (hsome : whole ≠ []) (hfits : whole.length ≤ maxDigits) (negative : Bool) (stops : Stops rest) :
    readNumber negative text =
      .ok (.int (if negative then -(Decimal.ofDigits whole : Int) else Decimal.ofDigits whole),
        rest) := by
  have hempty : whole.isEmpty = false := List.isEmpty_eq_false_iff.2 hsome
  have hnot : ¬ maxDigits < whole.length := Nat.not_lt.2 hfits
  rcases h with ⟨rfl, rfl⟩ | ⟨hzero, hspan⟩
  · simp only [readNumber, hempty, readFraction_stops stops, readExponent_stops stops, if_neg hnot,
      Bool.false_eq_true, if_false]
  · unfold readNumber
    split
    rename_i whole' rest' heq
    split at heq
    · exact absurd rfl (hzero _)
    · rw [hspan] at heq
      cases heq
      simp only [hempty, readFraction_stops stops, readExponent_stops stops, if_neg hnot,
        Bool.false_eq_true, if_false]

theorem readNumber_digits {n : Nat} (h : Decimal.length n ≤ maxDigits) (negative : Bool)
    {rest : List Letter} (stops : Stops rest) :
    readNumber negative ((Decimal.digits n).map .char ++ rest) =
      .ok (.int (if negative then -n else n), rest) := by
  have hread : readNumber negative ((Decimal.digits n).map .char ++ rest) = .ok (.int (if negative then
      -(Decimal.ofDigits (Decimal.digits n) : Int) else Decimal.ofDigits (Decimal.digits n)),
      rest) := by
    refine readNumber_of_span ?_ (Decimal.digits_ne_nil n) h negative stops
    by_cases hzero : n = 0
    · subst hzero
      exact Or.inl ⟨rfl, rfl⟩
    · refine Or.inr ⟨fun more heq => ?_,
        spanDigits_append (fun c => Decimal.isDigit_of_mem_digits (n := n)) stops⟩
      cases hdigits : Decimal.digits n with
      | nil => exact Decimal.digits_ne_nil n hdigits
      | cons c others =>
        rw [hdigits, List.map_cons, List.cons_append, List.cons.injEq, Letter.char.injEq] at heq
        exact hzero (Decimal.eq_zero_of_digits (hdigits.trans (congrArg (· :: others) heq.1)))
  rw [hread, Decimal.ofDigits_digits]

theorem readValue_digit {c : Char} (h : c.isDigit = true) (budget : Nat) (rest : List Letter) :
    readValue (budget + 1) (.char c :: rest) = readNumber false (.char c :: rest) := by
  rw [readValue]
  all_goals
    intro more heq
    cases heq
    exact absurd h (by decide)

theorem readValue_minus {c : Char} (h : c.isDigit = true) (budget : Nat) (rest : List Letter) :
    readValue (budget + 1) (.char '-' :: .char c :: rest) = readNumber true (.char c :: rest) := by
  rw [readValue]
  intro more heq
  cases heq
  exact absurd h (by decide)

theorem readValue_intChars {n : Int} (h : Decimal.hasText n = true) (budget : Nat)
    {rest : List Letter} (stops : Stops rest) :
    readValue (budget + 1) ((Decimal.intChars n).map .char ++ rest) = .ok (.int n, rest) := by
  have hfits : Decimal.length n.natAbs ≤ maxDigits := of_decide_eq_true h
  -- the first digit shows that it is a number
  have hfront : ∀ k, ∃ c more, Decimal.digits k = c :: more ∧ c.isDigit = true := by
    intro k
    cases hdigits : Decimal.digits k with
    | nil => exact absurd hdigits (Decimal.digits_ne_nil k)
    | cons c more =>
      exact ⟨c, more, rfl, Decimal.isDigit_of_mem_digits (hdigits ▸ List.mem_cons_self)⟩
  cases n with
  | ofNat k =>
    obtain ⟨c, more, hdigits, hc⟩ := hfront k
    show readValue (budget + 1) ((Decimal.digits k).map .char ++ rest) = _
    have hnumber := readNumber_digits (n := k) hfits false stops
    rw [hdigits, List.map_cons, List.cons_append] at hnumber ⊢
    rw [readValue_digit hc, hnumber]
    rfl
  | negSucc k =>
    obtain ⟨c, more, hdigits, hc⟩ := hfront (k + 1)
    show readValue (budget + 1) (.char '-' :: ((Decimal.digits (k + 1)).map .char ++ rest)) = _
    have hnumber := readNumber_digits (n := k + 1) hfits true stops
    rw [hdigits, List.map_cons, List.cons_append] at hnumber ⊢
    rw [readValue_minus hc, hnumber]
    rfl

end Json

end ContractHost
