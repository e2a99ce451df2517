import ContractHost.Proofs.Abi.TypeTexts
import ContractHost.Abi.ValueText

/-!
# Lists in text, read back

Texts with commas between them and brackets around them are taken apart into the same texts, as long as
none of these begins or ends with what is cut off, or has a comma outside its own brackets.

* `Passes`: a text that is no place to cut, with the depth before and after it.
* `Neat`: a text that comes back as an item.
* `splitArray_bracketed`: the items of a list come back from its text.
-/

namespace ContractHost.Abi

/-! ## White space and quotes -/

theorem dropWhile_of_startsOutside {p : Char → Bool} {text : List Char}
    (h : TypeText.StartsOutside p text) : text.dropWhile p = text := by
  cases text with
  | nil => rfl
  | cons c rest =>
    rw [List.dropWhile_cons_of_neg]
    rw [h c rfl]
    exact Bool.false_ne_true

/-- A text that neither begins nor ends with characters of a class. -/
def Bare (p : Char → Bool) (text : List Char) : Prop :=
  TypeText.StartsOutside p text ∧ TypeText.StartsOutside p text.reverse

theorem Bare.trimBy {p : Char → Bool} {text : List Char} (h : Bare p text) :
    Text.trimBy p text = text := by
  rw [Text.trimBy, dropWhile_of_startsOutside h.1, dropWhile_of_startsOutside h.2,
    List.reverse_reverse]

theorem Bare.imp {p q : Char → Bool} (hpq : ∀ c, p c = false → q c = false) {text : List Char}
    (h : Bare p text) : Bare q text :=
  ⟨fun c hc => hpq c (h.1 c hc), fun c hc => hpq c (h.2 c hc)⟩

theorem startsOutside_dropWhile (p : Char → Bool) (text : List Char) :
    TypeText.StartsOutside p (text.dropWhile p) := by
  intro c hc
  have hfirst := List.head?_dropWhile_not p text
  rwa [Option.mem_def.1 hc] at hfirst

/-- A trimmed text is bare. -/
theorem bare_trimBy (p : Char → Bool) (text : List Char) : Bare p (Text.trimBy p text) := by
  have hback := startsOutside_dropWhile p (text.dropWhile p).reverse
  refine ⟨?_, by rwa [Text.trimBy, List.reverse_reverse]⟩
  have hprefix : Text.trimBy p text <+: text.dropWhile p := by
    have hsuffix := List.dropWhile_suffix p (l := (text.dropWhile p).reverse)
    rw [Text.trimBy, ← List.reverse_reverse (text.dropWhile p)]
    simpa using List.reverse_prefix.2 hsuffix
  obtain ⟨rest, hrest⟩ := hprefix
  have hfront := startsOutside_dropWhile p text
  rw [← hrest] at hfront
  intro c hc
  exact hfront c (List.mem_head?_append_of_mem_head? hc)

/-- White space around an integer is white space. -/
theorem Bare.integer {text : List Char} (h : Bare Text.isBlank text) : Bare Text.isIntegerBlank text :=
  h.imp fun c hc => by rw [Text.isIntegerBlank, hc, Bool.false_and]

theorem startsOutside_append {p : Char → Bool} {first : List Char}
    (h : TypeText.StartsOutside p first) (hsome : first ≠ []) (second : List Char) :
    TypeText.StartsOutside p (first ++ second) := by
  obtain ⟨c, rest, rfl⟩ := List.exists_cons_of_ne_nil hsome
  exact h

theorem Bare.around {p : Char → Bool} {first second : List Char} (h : Bare p first)
    (hsome : first ≠ []) (h' : Bare p second) (hsome' : second ≠ []) (c : Char) :
    Bare p (first ++ c :: second) := by
  refine ⟨startsOutside_append h.1 hsome _, ?_⟩
  rw [List.reverse_append, List.reverse_cons, List.append_assoc]
  exact startsOutside_append h'.2 (by simpa using hsome') _

/-! ## Places to cut -/

/-- A text that is not cut where it stands at a depth, and after which there is another depth. -/
def Passes (depth after : Int) (text : List Char) : Prop :=
  ∀ rest, splitFrom depth (text ++ rest) =
    (text ++ (splitFrom after rest).1, (splitFrom after rest).2)

namespace Passes

variable {depth middle after : Int} {first second : List Char}

theorem nil (depth : Int) : Passes depth depth [] := fun _ => rfl

theorem append (h : Passes depth middle first) (h' : Passes middle after second) :
    Passes depth after (first ++ second) := by
  intro rest
  rw [List.append_assoc, h, h', List.append_assoc]

theorem char {c : Char} (h : c ≠ ',' ∨ depth ≠ 0) : Passes depth (depthAfter depth c) [c] := by
  intro rest
  have hkept : ¬(c = ',' ∧ depth = 0) := by
    rintro ⟨hc, hdepth⟩
    exact h.elim (absurd hc) (absurd hdepth)
  rw [List.singleton_append, splitFrom, seen_char, if_neg hkept]
  rfl

end Passes

/-- A text that comes back as an item of a list: it has no place to cut, it is not empty, and neither end
of it is cut off. -/
structure Neat (text : List Char) : Prop where
  passes : ∀ depth, 0 ≤ depth → Passes depth depth text
  some : text ≠ []
  blanks : Bare Text.isBlank text
  quotes : Bare (· = '"') text

/-- Two such texts one after the other. -/
theorem Neat.append {first second : List Char} (h : Neat first) (h' : Neat second) :
    Neat (first ++ second) := by
  have hends {p : Char → Bool} (hfirst : Bare p first) (hsecond : Bare p second) :
      Bare p (first ++ second) := by
    refine ⟨startsOutside_append hfirst.1 h.some second, ?_⟩
    rw [List.reverse_append]
    exact startsOutside_append hsecond.2 (by simpa using h'.some) _
  exact ⟨fun depth hdepth => (h.passes depth hdepth).append (h'.passes depth hdepth),
    List.append_ne_nil_of_left_ne_nil h.some second, hends h.blanks h'.blanks,
    hends h.quotes h'.quotes⟩

/-! ## Texts of letters and digits -/

/-- What holds of every ASCII character holds of a character that is one. -/
theorem ascii_forall {P : Char → Prop} (h : ∀ n : Fin 128, P (Char.ofNat n)) {c : Char}
    (hc : c.toNat < 128) : P c := by
  have hP := h ⟨c.toNat, hc⟩
  rwa [Char.ofNat_toNat] at hP

/-- Characters that have no part in lists: letters, digits and the sign. -/
def isPlain (c : Char) : Bool := TypeText.isLetter c || TypeText.isDigit c || c == '-'

theorem isPlain_ascii {c : Char} (h : isPlain c = true) : c.toNat < 128 := by
  simp only [isPlain, TypeText.isLetter, TypeText.isDigit, Bool.or_eq_true, Bool.and_eq_true,
    decide_eq_true_eq, beq_iff_eq] at h
  rcases h with ((h | h) | h) | rfl
  · exact Nat.lt_of_le_of_lt h.2 (by decide)
  · exact Nat.lt_of_le_of_lt h.2 (by decide)
  · exact Nat.lt_of_le_of_lt h.2 (by decide)
  · decide

theorem endsWithBracket_of_plain {text : List Char} (h : ∀ c ∈ text, isPlain c = true) :
    endsWithBracket text = false := by
  refine decide_eq_false fun hlast => ?_
  exact nomatch h ']' (List.mem_of_getLast? hlast)

theorem isPlain_keeps {c : Char} (h : isPlain c = true) :
    c ≠ ',' ∧ (∀ depth, depthAfter depth c = depth) ∧ Text.isBlank c = false ∧ c ≠ '"' := by
  have hdecided : isPlain c = true →
      c ≠ ',' ∧ ¬(c = '[' ∨ c = '(') ∧ ¬(c = ']' ∨ c = ')') ∧ Text.isBlank c = false ∧ c ≠ '"' :=
    ascii_forall (P := fun c => isPlain c = true →
      c ≠ ',' ∧ ¬(c = '[' ∨ c = '(') ∧ ¬(c = ']' ∨ c = ')') ∧ Text.isBlank c = false ∧ c ≠ '"')
      (by decide) (isPlain_ascii h)
  obtain ⟨hcomma, hopens, hcloses, hblank, hquote⟩ := hdecided h
  exact ⟨hcomma, fun depth => by rw [depthAfter, if_neg hopens, if_neg hcloses], hblank, hquote⟩

theorem Passes.plain {text : List Char} (h : ∀ c ∈ text, isPlain c = true) (depth : Int) :
    Passes depth depth text := by
  induction text with
  | nil => exact .nil depth
  | cons c rest ih =>
    obtain ⟨hc, hrest⟩ := List.forall_mem_cons.1 h
    obtain ⟨hcomma, hdepth, -⟩ := isPlain_keeps hc
    have hchar : Passes depth (depthAfter depth c) [c] := .char (.inl hcomma)
    rw [hdepth] at hchar
    exact hchar.append (ih hrest)

theorem Neat.plain {text : List Char} (hsome : text ≠ []) (h : ∀ c ∈ text, isPlain c = true) :
    Neat text := by
  have hends {p : Char → Bool} (hp : ∀ c, isPlain c = true → p c = false) : Bare p text := by
    refine ⟨fun c hc => hp c (h c (List.mem_of_mem_head? hc)), fun c hc => hp c (h c ?_)⟩
    exact List.mem_reverse.1 (List.mem_of_mem_head? hc)
  refine ⟨fun depth _ => .plain h depth, hsome, ?_, ?_⟩
  · exact hends fun c hc => (isPlain_keeps hc).2.2.1
  · exact hends fun c hc => decide_eq_false (isPlain_keeps hc).2.2.2

/-! ## Lists -/

/-- Items with commas between them have no place to cut inside brackets. -/
theorem Passes.items {items : List (List Char)} (h : ∀ item ∈ items, Neat item) {depth : Int}
    (hdepth : 0 < depth) : Passes depth depth (commaSeparated items) := by
  match items with
  | [] => exact .nil depth
  | [item] =>
    rw [TypeText.commaSeparated_one]
    exact (h item List.mem_cons_self).passes depth (Int.le_of_lt hdepth)
  | item :: other :: rest =>
    obtain ⟨hitem, hrest⟩ := List.forall_mem_cons.1 h
    rw [TypeText.commaSeparated_cons]
    have hcomma := Passes.char (c := ',') (.inr (Int.ne_of_gt hdepth))
    exact (hitem.passes depth (Int.le_of_lt hdepth)).append (hcomma.append (Passes.items hrest hdepth))

/-- Items with commas between them, inside brackets or parentheses. -/
theorem Neat.enclosed {opens closes : Char} (hopens : opens = '[' ∨ opens = '(')
    (hcloses : closes = ']' ∨ closes = ')') {items : List (List Char)}
    (h : ∀ item ∈ items, Neat item) : Neat (opens :: commaSeparated items ++ [closes]) := by
  have hdeeper (depth : Int) : depthAfter depth opens = depth + 1 := if_pos hopens
  have hback (depth : Int) : depthAfter (depth + 1) closes = depth := by
    have hout : ¬(closes = '[' ∨ closes = '(') := by
      rcases hcloses with rfl | rfl <;> decide
    rw [depthAfter, if_neg hout, if_pos hcloses]
    exact Int.add_sub_cancel depth 1
  have hends {p : Char → Bool} (hp : p '[' = false ∧ p '(' = false ∧ p ']' = false ∧ p ')' = false) :
      Bare p (opens :: commaSeparated items ++ [closes]) := by
    refine ⟨?_, ?_⟩
    · rintro c ⟨⟩
      exact hopens.elim (· ▸ hp.1) (· ▸ hp.2.1)
    · rw [List.reverse_append]
      rintro c ⟨⟩
      exact hcloses.elim (· ▸ hp.2.2.1) (· ▸ hp.2.2.2)
  refine ⟨fun depth hdepth => ?_, List.cons_ne_nil _ _, hends (by decide), hends (by decide)⟩
  have hopening : Passes depth (depthAfter depth opens) [opens] :=
    .char (.inl (by rcases hopens with rfl | rfl <;> decide))
  have hinner : Passes (depth + 1) (depth + 1) (commaSeparated items) := .items h (by omega)
  have hclosing : Passes (depth + 1) (depthAfter (depth + 1) closes) [closes] :=
    .char (.inl (by rcases hcloses with rfl | rfl <;> decide))
  rw [hdeeper] at hopening
  rw [hback] at hclosing
  exact hopening.append (hinner.append hclosing)

/-- The text of a list. -/
def bracketed (items : List (List Char)) : List Char := '[' :: commaSeparated items ++ [']']

theorem Neat.bracketed {items : List (List Char)} (h : ∀ item ∈ items, Neat item) :
    Neat (bracketed items) := .enclosed (.inl rfl) (.inl rfl) h

theorem pieces_commaSeparated {items : List (List Char)} (hsome : items ≠ [])
    (h : ∀ item ∈ items, Neat item) : pieces (commaSeparated items) = items := by
  match items with
  | [item] =>
    rw [TypeText.commaSeparated_one]
    have hitem := (h item List.mem_cons_self).passes 0 (Int.le_refl 0) []
    rw [List.append_nil] at hitem
    rw [pieces, hitem]
    simp [splitFrom]
  | item :: other :: rest =>
    obtain ⟨hitem, hrest⟩ := List.forall_mem_cons.1 h
    have hpieces := pieces_commaSeparated (List.cons_ne_nil other rest) hrest
    obtain ⟨hfirst, hmore⟩ := List.cons.inj (pieces_comma (seen_char ',') (commaSeparated (other :: rest)))
    rw [TypeText.commaSeparated_cons, pieces, hitem.passes 0 (Int.le_refl 0), hfirst, hmore, hpieces,
      List.append_nil]

theorem Neat.bareItem {item : List Char} (h : Neat item) : bareItem item = item := by
  rw [Abi.bareItem, Text.strip_chars, h.blanks.trimBy]
  exact h.quotes.trimBy

/-- Items with commas between them are a text with both ends of an item. -/
theorem bare_commaSeparated {items : List (List Char)} (hsome : items ≠ [])
    (h : ∀ item ∈ items, Neat item) :
    commaSeparated items ≠ [] ∧ Bare Text.isBlank (commaSeparated items) := by
  match items with
  | [item] =>
    rw [TypeText.commaSeparated_one]
    have hitem := h item List.mem_cons_self
    exact ⟨hitem.some, hitem.blanks⟩
  | item :: other :: rest =>
    obtain ⟨hitem, hrest⟩ := List.forall_mem_cons.1 h
    obtain ⟨hsome', hbare⟩ := bare_commaSeparated (List.cons_ne_nil other rest) hrest
    rw [TypeText.commaSeparated_cons]
    exact ⟨by simp, hitem.blanks.around hitem.some hbare hsome' ','⟩

theorem splitItems_commaSeparated {items : List (List Char)} (h : ∀ item ∈ items, Neat item) :
    splitItems (commaSeparated items) = items := by
  cases items with
  | nil => rfl
  | cons item rest =>
    obtain ⟨hsome, hbare⟩ := bare_commaSeparated (List.cons_ne_nil item rest) h
    unfold splitItems
    rw [Text.strip_chars, hbare.trimBy]
    split
    · rename_i hnil
      exact absurd hnil hsome
    · rw [pieces_commaSeparated (List.cons_ne_nil item rest) h]
      exact (List.map_congr_left fun item hitem => (h item hitem).bareItem).trans (List.map_id _)

/-! ## Letters and characters -/

theorem trimBy_map {α β : Type} {f : α → β} {p : β → Bool} {q : α → Bool} (hp : ∀ a, p (f a) = q a)
    (items : List α) : Text.trimBy p (items.map f) = (Text.trimBy q items).map f := by
  obtain rfl : p ∘ f = q := funext hp
  simp only [Text.trimBy, List.dropWhile_map, ← List.map_reverse]

section Letters

variable {α β : Type} [Seen α] [Seen β] {f : α → β} (hf : ∀ a, seen (f a) = seen a)
include hf

theorem strip_map (text : List α) : Text.strip (text.map f) = (Text.strip text).map f :=
  trimBy_map (fun a => by rw [hf]) text

theorem splitFrom_map (depth : Int) (text : List α) :
    splitFrom depth (text.map f) =
      ((splitFrom depth text).1.map f, (splitFrom depth text).2.map (List.map f)) := by
  induction text generalizing depth with
  | nil => rfl
  | cons a rest ih =>
    rw [List.map_cons, splitFrom, splitFrom, hf, ih, ih]
    split <;> rfl

theorem splitItems_map (body : List α) :
    splitItems (body.map f) = (splitItems body).map (List.map f) := by
  have hitem (item : List α) : bareItem (item.map f) = (bareItem item).map f := by
    rw [bareItem, strip_map hf]
    exact trimBy_map (fun a => by rw [hf]) _
  have hpieces (text : List α) : pieces (text.map f) = (pieces text).map (List.map f) := by
    rw [pieces, splitFrom_map hf]
    rfl
  unfold splitItems
  rw [strip_map hf]
  cases Text.strip body with
  | nil => rfl
  | cons a rest =>
    show (pieces (List.map f (a :: rest))).map bareItem = _
    rw [hpieces, List.map_map, List.map_map]
    exact List.map_congr_left fun item _ => hitem item

theorem unbracket?_map (text : List α) :
    unbracket? (text.map f) = (unbracket? text).map (List.map f) := by
  cases text with
  | nil => rfl
  | cons a rest =>
    have hlast : (rest.map f).getLast?.map seen = rest.getLast?.map seen := by
      rw [List.getLast?_map, Option.map_map]
      exact congrArg (rest.getLast?.map ·) (funext hf)
    rw [List.map_cons, unbracket?, unbracket?, hf, hlast, ← List.map_dropLast]
    split <;> rfl

theorem beforeLastBracket?_map (text : List α) :
    beforeLastBracket? (text.map f) = (beforeLastBracket? text).map (List.map f) := by
  have hbracket : (fun b : β => decide (seen b ≠ '[')) ∘ f = fun a => decide (seen a ≠ '[') :=
    funext fun a => by rw [Function.comp, hf]
  rw [beforeLastBracket?, beforeLastBracket?, ← List.map_reverse, List.dropWhile_map, hbracket]
  cases text.reverse.dropWhile fun a => decide (seen a ≠ '[') with
  | nil => rfl
  | cons a rest => exact congrArg some (List.map_reverse ..).symm

end Letters

theorem beforeLastBracket?_ofLetters {text : Text} {inner : List Letter}
    (h : beforeLastBracket? text.letters = some inner) :
    beforeLastBracket? text.chars = some (Text.ofLetters inner).chars := by
  have hseen (letter : Letter) : seen letter.shown = seen letter := rfl
  rw [Text.chars_eq, beforeLastBracket?_map hseen, h, Text.chars_ofLetters]
  rfl

/-- The items of a list come back. -/
theorem splitArray_bracketed {items : List (List Char)} (h : ∀ item ∈ items, Neat item) :
    splitArray (.ofChars (bracketed items)) = .ok (items.map Text.ofChars) := by
  have hseen (c : Char) : seen (Letter.char c) = seen c := rfl
  have hbody : unbracket? (bracketed items) = some (commaSeparated items) := by
    simp [bracketed, unbracket?]
  have hstrip : Text.strip (bracketed items) = bracketed items := (Neat.bracketed h).blanks.trimBy
  simp only [splitArray, Text.letters_ofChars, strip_map hseen, hstrip, unbracket?_map hseen, hbody,
    Option.map_some, splitItems_map hseen, splitItems_commaSeparated h, List.map_map]
  exact congrArg Except.ok (List.map_congr_left fun item _ => Text.ofLetters_chars item)

end ContractHost.Abi
