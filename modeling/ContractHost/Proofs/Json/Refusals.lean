import ContractHost.Proofs.Json.Numbers

/-!
# Why a text is not read

A reader leaves the end of the text that it was given, and it refuses a text in one of two ways: because
the text is not JSON, or because an integer that stands in it has too many digits.

* `Json.Scans`: what a reader leaves and how it refuses.
* `Json.read_error`: why a whole text is refused.
-/

namespace ContractHost.Json

/-- A text in which more digits stand together than an integer may have. -/
def LongRun (text : List Letter) : Prop :=
  ∃ digits, digits <:+: text ∧ (∀ letter ∈ digits, isDigit letter.shown = true) ∧
    maxDigits < digits.length

theorem LongRun.of_suffix {text rest : List Letter} (h : LongRun rest) (hrest : rest <:+ text) :
    LongRun text := by
  obtain ⟨digits, hinfix, hdigits, hlong⟩ := h
  exact ⟨digits, hinfix.trans hrest.isInfix, hdigits, hlong⟩

/-- A step of reading a text: it leaves an end of the text, and it refuses the text because it is not
JSON or has an integer of too many digits. -/
structure Scans {α : Type} (text : List Letter) (step : Except Fault (α × List Letter)) : Prop where
  rest : ∀ a rest, step = .ok (a, rest) → rest <:+ text
  fault : ∀ fault, step = .error fault → fault = .notJson ∨ fault = .badValue ∧ LongRun text

namespace Scans

variable {α β : Type} {text rest : List Letter}

theorem notJson : Scans text (.error .notJson : Except Fault (α × List Letter)) := by
  refine ⟨nofun, fun fault hfault => ?_⟩
  cases hfault
  exact Or.inl rfl

theorem ok {a : α} (h : rest <:+ text) : Scans text (.ok (a, rest)) := by
  refine ⟨fun b other heq => ?_, nofun⟩
  cases heq
  exact h

theorem of_suffix {step : Except Fault (α × List Letter)} (h : Scans rest step) (hrest : rest <:+ text) :
    Scans text step := by
  refine ⟨fun a left heq => (h.rest a left heq).trans hrest, fun fault heq => ?_⟩
  rcases h.fault fault heq with hnot | ⟨hbad, hlong⟩
  · exact Or.inl hnot
  · exact Or.inr ⟨hbad, hlong.of_suffix hrest⟩

theorem bind {step : Except Fault (α × List Letter)} {next : α × List Letter → Except Fault (β × List Letter)}
    (h : Scans text step) (hnext : ∀ a rest, rest <:+ text → Scans text (next (a, rest))) :
    Scans text (step >>= next) := by
  cases hstep : step with
  | error fault =>
    refine ⟨nofun, fun fault' heq => ?_⟩
    cases heq
    exact h.fault fault hstep
  | ok r =>
    obtain ⟨a, rest⟩ := r
    exact hnext a rest (h.rest a rest hstep)

end Scans

theorem skipSpace_suffix (text : List Letter) : skipSpace text <:+ text := List.dropWhile_suffix _

/-- What follows the first token of what a reader left. -/
theorem suffix_after_token {text rest left : List Letter} {letter : Letter} (hrest : rest <:+ text)
    (htoken : skipSpace rest = letter :: left) : left <:+ text := by
  have hspace := (skipSpace_suffix rest).trans hrest
  rw [htoken] at hspace
  exact (List.suffix_cons letter left).trans hspace

/-! ## Texts -/

theorem readPieces_scans (text : List Letter) : Scans text (readPieces text) := by
  fun_induction readPieces text with
  | case1 => exact .notJson
  | case2 rest => exact .ok (List.suffix_cons _ rest)
  | case3 => exact .notJson
  | case4 a b c d rest unit _ ih =>
    have hend : rest <:+ .char '\\' :: .char 'u' :: a :: b :: c :: d :: rest :=
      List.suffix_append [Letter.char '\\', Letter.char 'u', a, b, c, d] rest
    exact (ih.of_suffix hend).bind fun _ _ hleft => .ok hleft
  | case5 => exact .notJson
  | case6 letter rest _ escaped _ ih =>
    have hend : rest <:+ .char '\\' :: letter :: rest :=
      List.suffix_append [Letter.char '\\', letter] rest
    exact (ih.of_suffix hend).bind fun _ _ hleft => .ok hleft
  | case7 => exact .notJson
  | case8 letter rest _ _ _ _ ih =>
    exact (ih.of_suffix (List.suffix_cons letter rest)).bind fun _ _ hleft => .ok hleft

theorem readText_scans (text : List Letter) : Scans text (readText text) :=
  (readPieces_scans text).bind fun _ _ hrest => .ok hrest

/-! ## Numbers -/

theorem spanDigits_suffix (text : List Letter) : (spanDigits text).2 <:+ text :=
  List.dropWhile_suffix _

theorem readFraction_suffix (text : List Letter) : (readFraction text).2 <:+ text := by
  unfold readFraction
  split
  · rename_i rest
    have hdigits := spanDigits_suffix rest
    split
    · exact List.suffix_rfl
    · rename_i left heq
      rw [heq] at hdigits
      exact hdigits.trans (List.suffix_cons _ rest)
  · exact List.suffix_rfl

theorem readExponent_suffix (text : List Letter) : (readExponent text).2 <:+ text := by
  unfold readExponent
  split
  · rename_i mark rest
    split
    · split
      rename_i negative digits hsign
      have hsigned : digits <:+ rest := by
        split at hsign
        · cases hsign
          exact List.suffix_cons _ _
        · cases hsign
          exact List.suffix_cons _ _
        · cases hsign
          exact List.suffix_rfl
      have hspan := spanDigits_suffix digits
      split
      · exact List.suffix_rfl
      · rename_i left heq
        rw [heq] at hspan
        exact (hspan.trans hsigned).trans (List.suffix_cons mark rest)
    · exact List.suffix_rfl
  · exact List.suffix_rfl

theorem readNumber_scans (negative : Bool) (text : List Letter) :
    Scans text (readNumber negative text) := by
  unfold readNumber
  split
  rename_i whole rest heq
  obtain ⟨digits, happend, hdigits, hlength⟩ : ∃ digits, digits ++ rest = text ∧
      (∀ letter ∈ digits, isDigit letter.shown = true) ∧ digits.length = whole.length := by
    split at heq
    · cases heq
      exact ⟨[.char '0'], rfl, List.forall_mem_singleton.2 rfl, rfl⟩
    · cases heq
      exact ⟨_, List.takeWhile_append_dropWhile, List.all_eq_true.1 List.all_takeWhile,
        (List.length_map _).symm⟩
  have hleft : (readExponent (readFraction rest).2).2 <:+ text :=
    ((readExponent_suffix _).trans (readFraction_suffix rest)).trans ⟨digits, happend⟩
  simp only
  split
  · exact .notJson
  split
  · split
    · rename_i hlong
      have hinfix : digits <:+: text := List.IsPrefix.isInfix ⟨rest, happend⟩
      refine ⟨nofun, fun fault hfault => ?_⟩
      cases hfault
      exact Or.inr ⟨rfl, digits, hinfix, hdigits, hlength ▸ hlong⟩
    · exact .ok hleft
  · exact .ok hleft

/-! ## Values -/

/-- Within a budget the readers leave an end of the text, and refuse it for one of the two causes. -/
structure ReadsScan (budget : Nat) : Prop where
  value : ∀ text, Scans text (readValue budget text)
  items : ∀ text, Scans text (readItems budget text)
  fields : ∀ done text, Scans text (readFields budget done text)

namespace ReadsScan

variable {budget : Nat}

theorem zero : ReadsScan 0 where
  value text := by
    rw [readValue]
    exact .notJson
  items text := by
    rw [readItems]
    exact .notJson
  fields done text := by
    rw [readFields]
    exact .notJson

theorem value_succ (h : ReadsScan budget) (text : List Letter) :
    Scans text (readValue (budget + 1) text) := by
  unfold readValue
  split
  · rename_i rest
    have hread := (readText_scans rest).of_suffix (List.suffix_cons (.char '"') rest)
    exact hread.bind fun _ _ hleft => .ok hleft
  · rename_i rest
    have hopened := List.suffix_cons (.char '[') rest
    split
    · rename_i htoken
      exact .ok (suffix_after_token hopened htoken)
    · have hitems := (h.items _).of_suffix ((skipSpace_suffix rest).trans hopened)
      exact hitems.bind fun _ _ hleft => .ok hleft
  · rename_i rest
    have hopened := List.suffix_cons (.char '\x7b') rest
    split
    · rename_i htoken
      exact .ok (suffix_after_token hopened htoken)
    · have hfields := (h.fields [] _).of_suffix ((skipSpace_suffix rest).trans hopened)
      exact hfields.bind fun _ _ hleft => .ok hleft
  -- words
  · exact .ok (List.suffix_append ("null".toList.map Letter.char) _)
  · exact .ok (List.suffix_append ("true".toList.map Letter.char) _)
  · exact .ok (List.suffix_append ("false".toList.map Letter.char) _)
  · exact .ok (List.suffix_append ("NaN".toList.map Letter.char) _)
  · exact .ok (List.suffix_append ("Infinity".toList.map Letter.char) _)
  · exact .ok (List.suffix_append ("-Infinity".toList.map Letter.char) _)
  -- numbers
  · rename_i rest _
    exact (readNumber_scans true rest).of_suffix (List.suffix_cons _ rest)
  · exact readNumber_scans false text

theorem items_succ (h : ReadsScan budget) (text : List Letter) :
    Scans text (readItems (budget + 1) text) := by
  unfold readItems
  refine (h.value text).bind fun item rest hrest => ?_
  simp only
  split
  · rename_i htoken
    exact .ok (suffix_after_token hrest htoken)
  · rename_i htoken
    have hnext := (skipSpace_suffix _).trans (suffix_after_token hrest htoken)
    exact ((h.items _).of_suffix hnext).bind fun _ _ hleft => .ok hleft
  · exact .notJson

theorem fields_succ (h : ReadsScan budget) (done : List (Text × Value)) (text : List Letter) :
    Scans text (readFields (budget + 1) done text) := by
  unfold readFields
  split
  · rename_i rest
    have hread := (readText_scans rest).of_suffix (List.suffix_cons (.char '"') rest)
    refine hread.bind fun name left hleft => ?_
    simp only
    split
    · rename_i hcolon
      have hvalue := (skipSpace_suffix _).trans (suffix_after_token hleft hcolon)
      refine ((h.value _).of_suffix hvalue).bind fun value last hlast => ?_
      simp only
      split
      · rename_i htoken
        exact .ok (suffix_after_token hlast htoken)
      · rename_i htoken
        have hnext := (skipSpace_suffix _).trans (suffix_after_token hlast htoken)
        exact (h.fields _ _).of_suffix hnext
      · exact .notJson
    · exact .notJson
  · exact .notJson

end ReadsScan

theorem reads_scan (budget : Nat) : ReadsScan budget := by
  induction budget with
  | zero => exact .zero
  | succ budget ih => exact ⟨ih.value_succ, ih.items_succ, ih.fields_succ⟩

/-- A text is refused because it is not JSON, or because of an integer in it that is too long. -/
theorem read_error {text : Text} {fault : Fault} (h : read text = .error fault) :
    fault = .notJson ∨ fault = .badValue ∧ LongRun text.letters := by
  have hscans : Scans text.letters
      (readValue (2 * text.letters.length + 2) (skipSpace text.letters)) :=
    ((reads_scan _).value _).of_suffix (skipSpace_suffix _)
  unfold read at h
  simp only at h
  cases hvalue : readValue (2 * text.letters.length + 2) (skipSpace text.letters) with
  | error cause =>
    rw [hvalue] at h
    cases h
    exact hscans.fault _ hvalue
  | ok result =>
    rw [hvalue] at h
    simp only [bind, Except.bind] at h
    split at h
    · cases h
    · cases h
      exact Or.inl rfl

end ContractHost.Json
