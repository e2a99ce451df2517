import ContractHost.Log.Sanitised
import Mathlib.Data.List.Basic

/-!
# Sanitised texts

Of a sanitised text nothing is left that a terminal obeys. Sequences go first, and taking one out may put
an escape before what becomes a sequence with it; but single characters go last, so no such escape stays.
Nothing is put in or moved, a text without anything to obey stays as it is, and complete sequences are
taken out exactly, whatever pieces of text stand between them.

* `Harmless`: the characters that may stay; halves of surrogate pairs stay too.
* `ControlSequence`, `woven`: complete sequences, and pieces of text with such sequences between them.
* `sanitise_eq`: sanitising as two steps, the sequences and then single characters.
* `sanitise_safe`: what sanitising does to every text.
-/

namespace ContractHost.Log

/-- A tab, the end of a line, or a character that is no control. -/
def Harmless (c : Char) : Prop := c = '\t' ∨ c = '\n' ∨ 0x20 ≤ c.toNat ∧ c.toNat ≠ 0x7f

instance : DecidablePred Harmless :=
  fun c => inferInstanceAs (Decidable (c = '\t' ∨ c = '\n' ∨ 0x20 ≤ c.toNat ∧ c.toNat ≠ 0x7f))

theorem Harmless.ne_escape {c : Char} (h : Harmless c) : c ≠ escape := by
  rintro rfl
  exact absurd h (by decide)

/-- The two steps that take single characters out leave the harmless ones. -/
theorem harmless_iff {c : Char} : Harmless c ↔ (c ≠ '\r' ∧ isControl c = false) := by
  have hreturn : c = '\r' ↔ c.toNat = 0x0d := Char.toNat_inj.symm
  have htab : c = '\t' ↔ c.toNat = 0x09 := Char.toNat_inj.symm
  have hline : c = '\n' ↔ c.toNat = 0x0a := Char.toNat_inj.symm
  simp only [Harmless, isControl, ne_eq, Bool.or_eq_false_iff, Bool.and_eq_false_iff,
    decide_eq_false_iff_not, not_not, hreturn, htab, hline]
  omega

/-- Sequences go first, then single characters. -/
theorem sanitise_eq (text : List Letter) :
    sanitise text = (withoutSequences text).filter fun letter => decide (Harmless letter.shown) := by
  rw [sanitise, List.filter_filter]
  refine List.filter_congr fun letter _ => ?_
  rw [Bool.eq_iff_iff, decide_eq_true_iff, harmless_iff]
  simp [and_comm]

/-! ## Sequences -/

/-- A complete sequence with a bracket: parameters, intermediate characters and a final one. -/
structure ControlSequence where
  parameters : List Char
  intermediates : List Char
  final : Char
  parameters_range : ∀ c ∈ parameters, 0x30 ≤ c.toNat ∧ c.toNat ≤ 0x3f
  intermediates_range : ∀ c ∈ intermediates, 0x20 ≤ c.toNat ∧ c.toNat ≤ 0x2f
  final_range : 0x40 ≤ final.toNat ∧ final.toNat ≤ 0x7e

/-- The letters of a sequence. -/
def ControlSequence.letters (s : ControlSequence) : List Letter :=
  ('\x1b' :: '[' :: (s.parameters ++ s.intermediates ++ [s.final])).map .char

theorem between_iff {first last : Nat} {c : Char} :
    between first last c = true ↔ first ≤ c.toNat ∧ c.toNat ≤ last := by
  simp [between]

theorem between_eq_false_iff {first last : Nat} {c : Char} :
    between first last c = false ↔ ¬(first ≤ c.toNat ∧ c.toNat ≤ last) := by
  rw [← between_iff, Bool.not_eq_true]

/-- Characters of a class are passed over, up to one that is not of the class. -/
theorem dropWhile_chars {p : Char → Bool} {chars : List Char} (h : ∀ c ∈ chars, p c = true)
    {stop : Letter} (hstop : p stop.shown = false) (rest : List Letter) :
    (chars.map Letter.char ++ stop :: rest).dropWhile (p ·.shown) = stop :: rest := by
  rw [List.dropWhile_append_of_pos, List.dropWhile_cons_of_neg (by simp [hstop])]
  intro letter hletter
  obtain ⟨c, hc, rfl⟩ := List.mem_map.1 hletter
  exact h c hc

/-- The ranges of the parts are apart, so each part ends where the next one begins. -/
theorem ControlSequence.afterSequence?_letters (s : ControlSequence) (rest : List Letter) :
    afterSequence? (.char '[' :: (s.parameters.map .char ++
      (s.intermediates.map .char ++ .char s.final :: rest))) = some rest := by
  have hparameters : ∀ c ∈ s.parameters, isParameter c = true := fun c hc =>
    between_iff.2 (s.parameters_range c hc)
  have hintermediates : ∀ c ∈ s.intermediates, isIntermediate c = true := fun c hc =>
    between_iff.2 (s.intermediates_range c hc)
  obtain ⟨hlow, hhigh⟩ := s.final_range
  have hfinal : isFinal s.final = true := between_iff.2 ⟨hlow, hhigh⟩
  have hfinal' : isIntermediate (Letter.char s.final).shown = false :=
    between_eq_false_iff.2 (by simp only [Letter.shown]; omega)
  obtain ⟨stop, more, hstops, hstop⟩ : ∃ stop more,
      s.intermediates.map .char ++ .char s.final :: rest = stop :: more ∧
        isParameter stop.shown = false := by
    cases hinter : s.intermediates with
    | nil => exact ⟨_, _, rfl, between_eq_false_iff.2 (by simp only [Letter.shown]; omega)⟩
    | cons c more =>
      have hrange := s.intermediates_range c (by rw [hinter]; exact List.mem_cons_self)
      exact ⟨_, _, rfl, between_eq_false_iff.2 (by simp only [Letter.shown]; omega)⟩
  have hmiddle : ((s.parameters.map Letter.char ++ (s.intermediates.map Letter.char ++
      Letter.char s.final :: rest)).dropWhile (isParameter ·.shown)).dropWhile
        (isIntermediate ·.shown) = .char s.final :: rest := by
    rw [hstops, dropWhile_chars hparameters hstop, ← hstops, dropWhile_chars hintermediates hfinal']
  have hbracket : (Letter.char '[').shown = '[' := rfl
  rw [afterSequence?, if_pos hbracket, hmiddle]
  exact if_pos hfinal

/-- What follows a sequence is the end of the text. -/
theorem suffix_of_afterSequence? {text rest : List Letter} (h : afterSequence? text = some rest) :
    rest <:+ text := by
  cases text with
  | nil => cases h
  | cons letter more =>
    rw [afterSequence?] at h
    split at h
    · split at h
      · rename_i final tail hdrop
        split at h
        · cases h
          have hinter := List.dropWhile_suffix (isIntermediate ·.shown)
            (l := more.dropWhile (isParameter ·.shown))
          rw [hdrop] at hinter
          exact (List.suffix_cons final rest).trans
            (hinter.trans ((List.dropWhile_suffix _).trans (List.suffix_cons letter more)))
        · cases h
      · cases h
    · split at h
      · cases h
        exact List.suffix_cons letter rest
      · cases h

theorem withoutSequences_cons {letter : Letter} (h : letter.shown ≠ escape) (rest : List Letter) :
    withoutSequences (letter :: rest) = letter :: withoutSequences rest := by
  rw [withoutSequences, if_neg h]

theorem withoutSequences_escape {letter : Letter} (hescape : letter.shown = escape)
    {rest more : List Letter} (h : afterSequence? rest = some more) :
    withoutSequences (letter :: rest) = withoutSequences more := by
  rw [withoutSequences, if_pos hescape]
  split
  · rename_i found hfound
    rw [Option.some.inj (hfound.symm.trans h)]
  · rename_i hnone
    cases hnone.symm.trans h

/-- Nothing is put in, and what stays keeps its order. -/
theorem withoutSequences_sublist (text : List Letter) : (withoutSequences text).Sublist text := by
  induction text using withoutSequences.induct with
  | case1 =>
    rw [withoutSequences]
  | case2 letter rest hescape more hsequence ih =>
    rw [withoutSequences_escape hescape hsequence]
    exact ih.trans ((suffix_of_afterSequence? hsequence).sublist.trans (List.sublist_cons_self _ _))
  | case3 letter rest hescape hnone ih =>
    rw [withoutSequences, if_pos hescape]
    split
    · rename_i more hmore
      cases hnone.symm.trans hmore
    · exact ih.cons_cons letter
  | case4 letter rest hletter ih =>
    rw [withoutSequences_cons hletter]
    exact ih.cons_cons letter

/-- A piece without an escape stays in front of what becomes of the rest. -/
theorem withoutSequences_append {piece : List Letter} (h : ∀ letter ∈ piece, letter.shown ≠ escape)
    (rest : List Letter) : withoutSequences (piece ++ rest) = piece ++ withoutSequences rest := by
  induction piece with
  | nil => rfl
  | cons letter piece ih =>
    obtain ⟨hletter, hpiece⟩ := List.forall_mem_cons.1 h
    rw [List.cons_append, withoutSequences_cons hletter, ih hpiece, List.cons_append]

theorem ControlSequence.withoutSequences_letters (s : ControlSequence) (rest : List Letter) :
    withoutSequences (s.letters ++ rest) = withoutSequences rest := by
  have hletters : s.letters ++ rest = .char escape :: .char '[' :: (s.parameters.map .char ++
      (s.intermediates.map .char ++ .char s.final :: rest)) := by
    simp [letters, escape]
  rw [hletters, withoutSequences_escape rfl (s.afterSequence?_letters rest)]

/-! ## Pieces of text with sequences between them -/

/-- A piece of text, and then any number of sequences, each with a piece after it. -/
def woven (first : List Letter) (rest : List (ControlSequence × List Letter)) : List Letter :=
  first ++ rest.flatMap fun part => part.1.letters ++ part.2

theorem withoutSequences_woven {first : List Letter} {rest : List (ControlSequence × List Letter)}
    (hfirst : ∀ letter ∈ first, letter.shown ≠ escape)
    (hrest : ∀ part ∈ rest, ∀ letter ∈ part.2, letter.shown ≠ escape) :
    withoutSequences (woven first rest) = first ++ rest.flatMap Prod.snd := by
  rw [woven, withoutSequences_append hfirst]
  congr 1
  induction rest with
  | nil => rw [List.flatMap_nil, List.flatMap_nil, withoutSequences]
  | cons part rest ih =>
    obtain ⟨hpart, hrest⟩ := List.forall_mem_cons.1 hrest
    rw [List.flatMap_cons, List.flatMap_cons, List.append_assoc, part.1.withoutSequences_letters,
      withoutSequences_append hpart, ih hrest]

/-! ## What sanitising does -/

theorem harmless_of_mem_sanitise {text : List Letter} {letter : Letter}
    (h : letter ∈ sanitise text) : Harmless letter.shown := by
  rw [sanitise_eq] at h
  exact of_decide_eq_true (List.mem_filter.1 h).2

/-- What has nothing but pieces without anything to obey and sequences comes out as the pieces. -/
theorem sanitise_woven {first : List Letter} {rest : List (ControlSequence × List Letter)}
    (hfirst : ∀ letter ∈ first, Harmless letter.shown)
    (hrest : ∀ part ∈ rest, ∀ letter ∈ part.2, Harmless letter.shown) :
    sanitise (woven first rest) = first ++ rest.flatMap Prod.snd := by
  rw [sanitise_eq, withoutSequences_woven (fun letter hletter => (hfirst letter hletter).ne_escape)
    fun part hpart letter hletter => (hrest part hpart letter hletter).ne_escape, List.filter_eq_self]
  intro letter hletter
  refine decide_eq_true ?_
  rcases List.mem_append.1 hletter with hletter | hletter
  · exact hfirst letter hletter
  · obtain ⟨part, hpart, hletter⟩ := List.mem_flatMap.1 hletter
    exact hrest part hpart letter hletter

theorem sanitise_of_harmless {text : List Letter} (h : ∀ letter ∈ text, Harmless letter.shown) :
    sanitise text = text := by
  have hwoven : woven text [] = text := List.append_nil text
  have hnone : ∀ part ∈ ([] : List (ControlSequence × List Letter)), ∀ letter ∈ part.2,
      Harmless letter.shown := nofun
  have hsanitised := sanitise_woven h hnone
  rwa [hwoven, List.flatMap_nil, List.append_nil] at hsanitised

/-- A sanitised text has only harmless letters, which it takes from the text in their order. Exactly the
texts without others stay as they are, those that were sanitised among them. Of pieces of such text with
complete sequences between them the pieces stay, and nothing else. -/
theorem sanitise_safe (text : List Letter) :
    (∀ letter ∈ sanitise text, Harmless letter.shown) ∧ (sanitise text).Sublist text ∧
      (sanitise text = text ↔ ∀ letter ∈ text, Harmless letter.shown) ∧
      sanitise (sanitise text) = sanitise text ∧
      ∀ first rest, text = woven first rest → (∀ letter ∈ first, Harmless letter.shown) →
        (∀ part ∈ rest, ∀ letter ∈ part.2, Harmless letter.shown) →
        sanitise text = first ++ rest.flatMap Prod.snd := by
  have hclean : ∀ letter ∈ sanitise text, Harmless letter.shown :=
    fun _ => harmless_of_mem_sanitise
  refine ⟨hclean, ?_, ⟨fun h => h ▸ hclean, sanitise_of_harmless⟩, sanitise_of_harmless hclean, ?_⟩
  · rw [sanitise_eq]
    exact List.filter_sublist.trans (withoutSequences_sublist text)
  · rintro first rest rfl hfirst hrest
    exact sanitise_woven hfirst hrest

/-- A coloured word and one behind a sequence with an intermediate character. -/
theorem sanitise_safe_coloured :
    let coloured : ControlSequence := ⟨['3', '1'], [], 'm',
      List.forall_mem_cons.2 ⟨by decide, List.forall_mem_singleton.2 (by decide)⟩, nofun, by decide⟩
    let shaped : ControlSequence := ⟨['2'], [' '], 'q', List.forall_mem_singleton.2 (by decide),
      List.forall_mem_singleton.2 (by decide), by decide⟩
    let text := (Text.plain "no \x1b[31mgas\x1b[2 q left").letters
    woven (Text.plain "no ").letters
        [(coloured, (Text.plain "gas").letters), (shaped, (Text.plain " left").letters)] = text ∧
      sanitise text = (Text.plain "no gas left").letters := by
  intro coloured shaped text
  have htext : woven (Text.plain "no ").letters
      [(coloured, (Text.plain "gas").letters), (shaped, (Text.plain " left").letters)] = text := by
    decide
  have hharmless {text : List Letter}
      (h : text.all (fun letter => decide (Harmless letter.shown)) = true) :
      ∀ letter ∈ text, Harmless letter.shown :=
    fun letter hletter => of_decide_eq_true (List.all_eq_true.1 h letter hletter)
  obtain ⟨-, -, -, -, hwoven⟩ := sanitise_safe text
  refine ⟨htext, hwoven _ _ htext.symm (hharmless (by decide)) ?_⟩
  exact List.forall_mem_cons.2
    ⟨hharmless (by decide), List.forall_mem_singleton.2 (hharmless (by decide))⟩

end ContractHost.Log
