import ContractHost.Abi.Description
import ContractHost.Proofs.Abi.Fits

/-!
# Texts of types

A type that is written by the grammar is read back. The array parts that follow a type belong to it,
however many there are, so what is read at the front of a text is told by the type and by the parts that
the rest of the text begins with. Of the types that a text may mean, each has a text of its own.

* `TypeText.Written`, `TypeText.text`: types within the grammar, and their texts.
* `TypeText.read?_text`: a written type is read back.
* `AbiType.proper_of_ofText`: a text means a type with sizes that make sense.
* `AbiType.ofText_text`: each such type is what its text means.
-/

namespace ContractHost.Abi

/-- Numbers that the grammar has. -/
def Suffix.Positive : Suffix → Prop
  | .none => True
  | .one n => 1 ≤ n
  | .two m n => 1 ≤ m ∧ 1 ≤ n

instance : DecidablePred Suffix.Positive
  | .none => isTrue trivial
  | .one n => inferInstanceAs (Decidable (1 ≤ n))
  | .two m n => inferInstanceAs (Decidable (1 ≤ m ∧ 1 ≤ n))

/-- Texts with commas between them, by their characters. -/
def commaSeparated (texts : List (List Char)) : List Char :=
  [','].intercalate texts

namespace TypeText

/-- A type within the grammar. -/
inductive Written : TypeText → Prop
  | basic {name : String} {suffix : Suffix}
    (hname : name.toList ≠ [] ∧ ∀ c ∈ name.toList, isLetter c = true) (hsuffix : suffix.Positive) :
    Written (.basic name suffix)
  | tuple {components : List TypeText} (h : ∀ type ∈ components, Written type)
    (hsome : components ≠ []) : Written (.tuple components)
  | array {item : TypeText} {size : Option Nat} (h : Written item)
    (hsize : ∀ n, size = some n → 1 ≤ n) : Written (.array item size)

/-! ## Numbers -/

theorem le_ofDigitsFrom (start : Nat) (digits : List Char) :
    start ≤ Decimal.ofDigitsFrom start digits := by
  induction digits generalizing start with
  | nil => exact Nat.le_refl start
  | cons c rest ih =>
    have hrest := ih (start * 10 + Decimal.digitValue c)
    show start ≤ Decimal.ofDigitsFrom (start * 10 + Decimal.digitValue c) rest
    omega

theorem readNumber?_pos {text rest : List Char} {n : Nat} (h : readNumber? text = some (n, rest)) :
    1 ≤ n := by
  unfold readNumber? at h
  split at h
  · rename_i c more
    split at h
    · rename_i hdigit
      cases h
      rw [List.takeWhile_cons_of_pos hdigit.1]
      refine Nat.le_trans ?_ (le_ofDigitsFrom (0 * 10 + Decimal.digitValue c) _)
      have hlow : '0' ≤ c ∧ c ≤ '9' := by simpa [isDigit] using hdigit.1
      have hne : c.toNat ≠ '0'.toNat := fun h => hdigit.2 (Char.toNat_inj.1 h)
      have hge : '0'.toNat ≤ c.toNat := hlow.1
      have hzero : '0'.toNat = 48 := rfl
      show 1 ≤ 0 * 10 + (c.toNat - 48)
      omega
    · cases h
  · cases h

theorem isDigit_of_mem_digits {n : Nat} {c : Char} (h : c ∈ Decimal.digits n) :
    isDigit c = true := by
  have hdigit := Decimal.isDigit_of_mem_digits h
  simpa [Char.isDigit, isDigit, Char.le_def, ge_iff_le, UInt32.le_iff_toNat_le] using hdigit

/-- A text whose first character, if it has one, is not of a class. -/
def StartsOutside (p : Char → Bool) (text : List Char) : Prop := ∀ c ∈ text.head?, p c = false

theorem startsOutside_nil (p : Char → Bool) : StartsOutside p [] := by
  rintro c ⟨⟩

theorem takeWhile_append_of_outside {p : Char → Bool} {front rest : List Char}
    (hfront : ∀ c ∈ front, p c = true) (hrest : StartsOutside p rest) :
    (front ++ rest).takeWhile p = front ∧ (front ++ rest).dropWhile p = rest := by
  rw [List.takeWhile_append_of_pos hfront, List.dropWhile_append_of_pos hfront]
  cases rest with
  | nil => simp
  | cons c rest =>
    have hc : ¬p c = true := by
      rw [hrest c rfl]
      exact Bool.false_ne_true
    rw [List.takeWhile_cons_of_neg hc, List.dropWhile_cons_of_neg hc, List.append_nil]
    exact ⟨rfl, rfl⟩

theorem readNumber?_digits {n : Nat} (hn : 1 ≤ n) {rest : List Char}
    (hrest : StartsOutside isDigit rest) :
    readNumber? (Decimal.digits n ++ rest) = some (n, rest) := by
  obtain ⟨htake, hdrop⟩ :=
    takeWhile_append_of_outside (fun _ => isDigit_of_mem_digits) hrest
  cases hdigits : Decimal.digits n with
  | nil => exact absurd hdigits (Decimal.digits_ne_nil n)
  | cons c more =>
    have hc : isDigit c = true := isDigit_of_mem_digits (by rw [hdigits]; exact List.mem_cons_self)
    have hzero : c ≠ '0' := by
      rintro rfl
      have hn' := Decimal.eq_zero_of_digits hdigits
      omega
    have hread : readNumber? (c :: more ++ rest) = some
        (Decimal.ofDigits ((c :: more ++ rest).takeWhile isDigit),
          (c :: more ++ rest).dropWhile isDigit) := if_pos ⟨hc, hzero⟩
    rw [hread, ← hdigits, htake, hdrop, Decimal.ofDigits_digits]

/-! ## What is read is within the grammar -/

theorem readSuffix_positive (text : List Char) : (readSuffix text).1.Positive := by
  unfold readSuffix
  split
  · trivial
  · rename_i m rest hm
    split
    · rename_i n rest' hn
      exact ⟨readNumber?_pos hm, readNumber?_pos hn⟩
    · exact readNumber?_pos hm
  · rename_i m rest _ hm
    exact readNumber?_pos hm

theorem readArrays_written (budget : Nat) {type : TypeText} (h : type.Written) (text : List Char) :
    (readArrays budget type text).1.Written := by
  induction budget generalizing type text with
  | zero => exact h
  | succ budget ih =>
    rw [readArrays.eq_def]
    simp only
    split
    · have harray : (TypeText.array type none).Written := .array h nofun
      exact ih harray _
    · split
      · rename_i size rest hsize
        refine ih (.array h ?_) _
        rintro n ⟨⟩
        exact readNumber?_pos hsize
      · exact h
    · exact h

theorem mem_takeWhile {p : Char → Bool} {text : List Char} {c : Char} (h : c ∈ text.takeWhile p) :
    p c = true := by
  have hall := List.all_takeWhile (l := text) (p := p)
  exact List.all_eq_true.1 hall c h

/-- What is read at the front of a text is within the grammar, a type as well as components. -/
theorem read_written (budget : Nat) :
    (∀ text type rest, readType budget text = some (type, rest) → type.Written) ∧
      ∀ text types rest, readComponents budget text = some (types, rest) →
        types ≠ [] ∧ ∀ type ∈ types, type.Written := by
  induction budget with
  | zero =>
    refine ⟨fun text type rest h => ?_, fun text types rest h => ?_⟩
    · rw [readType] at h
      cases h
    · rw [readComponents] at h
      cases h
  | succ budget ih =>
    obtain ⟨ihtype, ihcomponents⟩ := ih
    constructor
    · intro text type rest h
      rw [readType.eq_def] at h
      simp only at h
      split at h
      · rename_i more
        obtain ⟨⟨components, after⟩, hcomponents, h⟩ := Option.bind_eq_some_iff.1 h
        obtain ⟨hsome, hall⟩ := ihcomponents _ _ _ hcomponents
        have htype : _ = type := congrArg Prod.fst (Option.some.inj h)
        rw [← htype]
        exact readArrays_written _ (.tuple hall hsome) _
      · split at h
        · cases h
        · rename_i hname
          have htype : _ = type := congrArg Prod.fst (Option.some.inj h)
          rw [← htype]
          refine readArrays_written _ (.basic ⟨?_, ?_⟩ (readSuffix_positive _)) _
          · simpa using hname
          · intro c hc
            rw [String.toList_ofList] at hc
            exact mem_takeWhile hc
    · intro text types rest h
      rw [readComponents.eq_def] at h
      obtain ⟨⟨type, after⟩, htype, h⟩ := Option.bind_eq_some_iff.1 h
      have hwritten := ihtype _ _ _ htype
      simp only at h
      split at h
      · cases h
        refine ⟨List.cons_ne_nil _ _, fun other hother => ?_⟩
        rw [List.mem_singleton.1 hother]
        exact hwritten
      · obtain ⟨⟨more, last⟩, hmore, h⟩ := Option.bind_eq_some_iff.1 h
        cases h
        exact ⟨List.cons_ne_nil _ _,
          List.forall_mem_cons.2 ⟨hwritten, (ihcomponents _ _ _ hmore).2⟩⟩
      · cases h

theorem read?_written {text : List Char} {type : TypeText} (h : read? text = some type) :
    type.Written := by
  unfold read? at h
  split at h
  · rename_i found hread
    cases h
    exact (read_written _).1 _ _ _ hread
  · cases h

/-! ## Texts -/

/-- The text of what follows a name. -/
def suffixText : Suffix → List Char
  | .none => []
  | .one n => Decimal.digits n
  | .two m n => Decimal.digits m ++ 'x' :: Decimal.digits n

/-- The text of an array part. -/
def sizeText : Option Nat → List Char
  | none => ['[', ']']
  | some n => '[' :: Decimal.digits n ++ [']']

mutual

/-- The text of a type. -/
def text : TypeText → List Char
  | .basic name suffix => name.toList ++ suffixText suffix
  | .tuple components => '(' :: commaSeparated (texts components) ++ [')']
  | .array item size => item.text ++ sizeText size

/-- The texts of types. -/
def texts : List TypeText → List (List Char)
  | [] => []
  | type :: rest => type.text :: texts rest

end

/-- The end of a type's text: what follows does not go on with it. -/
def Ends (rest : List Char) : Prop :=
  StartsOutside (fun c => isLetter c || isDigit c || c == 'x') rest

/-- What is read next is not to be taken for a part of the array before. -/
theorem readArrays_of_ends {budget : Nat} (type : TypeText) {rest : List Char}
    (h : StartsOutside (· == '[') rest) : readArrays budget type rest = (type, rest) := by
  cases budget with
  | zero => rfl
  | succ budget =>
    rw [readArrays.eq_def]
    simp only
    split
    · cases h '[' rfl
    · cases h '[' rfl
    · rfl

theorem length_readNumber? {text rest : List Char} {n : Nat} (h : readNumber? text = some (n, rest)) :
    rest.length ≤ text.length := by
  unfold readNumber? at h
  split at h
  · split at h
    · cases h
      exact (List.dropWhile_sublist _).length_le
    · cases h
  · cases h

/-- A budget of one for each character is as good as any greater one. -/
theorem readArrays_budget {budget budget' : Nat} {type : TypeText} {text : List Char}
    (h : text.length ≤ budget) (h' : text.length ≤ budget') :
    readArrays budget type text = readArrays budget' type text := by
  induction budget generalizing budget' type text with
  | zero =>
    obtain rfl : text = [] := List.length_eq_zero_iff.1 (Nat.le_zero.1 h)
    cases budget' <;> rfl
  | succ budget ih =>
    cases budget' with
    | zero =>
      obtain rfl : text = [] := List.length_eq_zero_iff.1 (Nat.le_zero.1 h')
      rfl
    | succ budget' =>
      rw [readArrays.eq_def, readArrays.eq_def (budget' + 1)]
      simp only
      split
      · simp only [List.length_cons] at h h'
        exact ih (by omega) (by omega)
      · rename_i rest _
        simp only [List.length_cons] at h h'
        cases hnumber : readNumber? rest with
        | none => rfl
        | some found =>
          obtain ⟨size, after⟩ := found
          have hlength := length_readNumber? hnumber
          cases after with
          | nil => rfl
          | cons c after =>
            simp only [List.length_cons] at hlength
            by_cases hc : c = ']'
            · subst hc
              exact ih (by omega) (by omega)
            · simp [hc]
      · rfl

/-- The part of an array is taken up, and what follows it next. -/
theorem readArrays_sizeText (type : TypeText) {size : Option Nat} (hsize : ∀ n, size = some n → 1 ≤ n)
    (rest : List Char) :
    readArrays (sizeText size ++ rest).length type (sizeText size ++ rest) =
      readArrays rest.length (.array type size) rest := by
  cases size with
  | none => exact readArrays_budget (Nat.le_succ _) (Nat.le_refl _)
  | some n =>
    have hread : readNumber? (Decimal.digits n ++ ']' :: rest) = some (n, ']' :: rest) := by
      refine readNumber?_digits (hsize n rfl) ?_
      rintro c ⟨⟩
      rfl
    obtain ⟨c, more, hdigits⟩ := List.exists_cons_of_ne_nil (Decimal.digits_ne_nil n)
    have hc : c ≠ ']' := by
      rintro rfl
      have hdigit : isDigit ']' = true := isDigit_of_mem_digits (by rw [hdigits]; exact List.mem_cons_self)
      cases hdigit
    have htext : sizeText (some n) ++ rest = '[' :: c :: (more ++ ']' :: rest) := by
      simp [sizeText, hdigits]
    rw [hdigits, List.cons_append] at hread
    rw [htext, List.length_cons, readArrays.eq_def]
    simp only
    split
    · rename_i heq
      cases heq
      exact absurd rfl hc
    · rename_i heq
      cases heq
      rw [hread]
      refine readArrays_budget ?_ (Nat.le_refl _)
      simp only [List.length_cons, List.length_append]
      omega
    · rename_i hnone
      exact absurd rfl (hnone _)

/-- What follows a component. -/
theorem ends_of_mem {c : Char} (h : c = ',' ∨ c = ')' ∨ c = '[') (rest : List Char) :
    Ends (c :: rest) := by
  rintro _ ⟨⟩
  rcases h with rfl | rfl | rfl <;> rfl

theorem Ends.digit {rest : List Char} (h : Ends rest) : StartsOutside isDigit rest := by
  intro c hc
  have hnone := h c hc
  simp only [Bool.or_eq_false_iff] at hnone
  exact hnone.1.2

theorem readSuffix_suffixText {suffix : Suffix} (hsuffix : suffix.Positive) {rest : List Char}
    (h : Ends rest) : readSuffix (suffixText suffix ++ rest) = (suffix, rest) := by
  cases suffix with
  | none =>
    have hread : readNumber? rest = none := by
      unfold readNumber?
      cases rest with
      | nil => rfl
      | cons c rest =>
        have hdigit := h.digit c rfl
        simp [hdigit]
    rw [suffixText, List.nil_append, readSuffix, hread]
  | one n =>
    rw [suffixText, readSuffix, readNumber?_digits hsuffix h.digit]
    cases rest with
    | nil => rfl
    | cons c rest =>
      have hx : c ≠ 'x' := by
        rintro rfl
        cases h 'x' rfl
      split
      · rename_i heq
        cases heq
      · rename_i heq
        cases heq
        exact absurd rfl hx
      · rename_i heq
        cases heq
        rfl
  | two m n =>
    have hx : StartsOutside isDigit ('x' :: (Decimal.digits n ++ rest)) := by
      rintro c ⟨⟩
      rfl
    rw [suffixText, List.append_assoc, List.cons_append, readSuffix, readNumber?_digits hsuffix.1 hx]
    simp only [readNumber?_digits hsuffix.2 h.digit]

theorem commaSeparated_one (text : List Char) : commaSeparated [text] = text := by
  simp [commaSeparated]

theorem commaSeparated_cons (first second : List Char) (rest : List (List Char)) :
    commaSeparated (first :: second :: rest) = first ++ ',' :: commaSeparated (second :: rest) := by
  simp [commaSeparated, List.intercalate_cons_cons]

theorem separated_ofChars (texts : List (List Char)) :
    separated (texts.map Text.ofChars) = (commaSeparated texts).map Letter.char := by
  induction texts with
  | nil => rfl
  | cons first rest ih =>
    cases rest with
    | nil => simp [separated, commaSeparated_one]
    | cons second rest =>
      rw [separated, List.map_cons, List.map_cons] at ih
      rw [separated, List.map_cons, List.map_cons, List.map_cons, List.map_cons,
        List.intercalate_cons_cons, ih, commaSeparated_cons, List.map_append, List.map_cons,
        Text.letters_ofChars, List.append_assoc]
      rfl

/-- A type at the front of a text: it is read, and so are the array parts that follow it. -/
def ReadsBack (type : TypeText) : Prop :=
  ∀ budget rest, 2 * type.text.length ≤ budget → Ends rest →
    readType budget (type.text ++ rest) = some (readArrays rest.length type rest)

theorem ReadsBack.component {type : TypeText} (h : type.ReadsBack) {budget : Nat}
    (hbudget : 2 * type.text.length ≤ budget) {c : Char} (hc : c = ',' ∨ c = ')')
    (rest : List Char) : readType budget (type.text ++ c :: rest) = some (type, c :: rest) := by
  rw [h budget _ hbudget (ends_of_mem (hc.imp_right .inl) rest), readArrays_of_ends]
  rintro _ ⟨⟩
  rcases hc with rfl | rfl <;> rfl

/-- Components up to the parenthesis that closes. -/
theorem readComponents_texts {type : TypeText} {components : List TypeText}
    (h : ∀ component ∈ type :: components, component.ReadsBack) (budget : Nat) (rest : List Char)
    (hbudget : 2 * ((commaSeparated (texts (type :: components))).length + 1) ≤ budget) :
    readComponents budget (commaSeparated (texts (type :: components)) ++ ')' :: rest) =
      some (type :: components, rest) := by
  induction components generalizing budget type with
  | nil =>
    obtain ⟨budget, rfl⟩ : ∃ n, budget = n + 1 := ⟨budget - 1, by omega⟩
    rw [texts, texts, commaSeparated_one] at hbudget ⊢
    rw [readComponents, (h type List.mem_cons_self).component (by omega) (.inr rfl)]
    rfl
  | cons other components ih =>
    obtain ⟨budget, rfl⟩ : ∃ n, budget = n + 1 := ⟨budget - 1, by omega⟩
    rw [texts, texts, commaSeparated_cons, ← texts] at hbudget ⊢
    rw [List.length_append, List.length_cons] at hbudget
    obtain ⟨htype, hcomponents⟩ := List.forall_mem_cons.1 h
    have hmore := ih hcomponents budget (by omega)
    rw [readComponents, List.append_assoc, List.cons_append, htype.component (by omega) (.inl rfl)]
    simp only [bind, Option.bind, hmore]
    rfl

theorem isLetter_of_isDigit {c : Char} (h : isDigit c = true) : isLetter c = false := by
  have hdigit : '0'.toNat ≤ c.toNat ∧ c.toNat ≤ '9'.toNat := by
    simpa [isDigit, Char.le_def, UInt32.le_iff_toNat_le] using h
  have hnine : '9'.toNat = 57 := rfl
  have hsmall : ¬('a' ≤ c) := fun hle => by
    have hle : 'a'.toNat ≤ c.toNat := hle
    have ha : 'a'.toNat = 97 := rfl
    omega
  have hlarge : ¬('A' ≤ c) := fun hle => by
    have hle : 'A'.toNat ≤ c.toNat := hle
    have ha : 'A'.toNat = 65 := rfl
    omega
  simp [isLetter, hsmall, hlarge]

theorem suffixText_outside {suffix : Suffix} {rest : List Char} (h : Ends rest) :
    StartsOutside isLetter (suffixText suffix ++ rest) := by
  have hdigits (n : Nat) (more : List Char) : StartsOutside isLetter (Decimal.digits n ++ more) := by
    obtain ⟨c, digits, hc⟩ := List.exists_cons_of_ne_nil (Decimal.digits_ne_nil n)
    rw [hc]
    rintro _ ⟨⟩
    exact isLetter_of_isDigit (isDigit_of_mem_digits (by rw [hc]; exact List.mem_cons_self))
  cases suffix with
  | none =>
    intro c hc
    have hnone := h c hc
    simp only [Bool.or_eq_false_iff] at hnone
    exact hnone.1.1
  | one n => exact hdigits n rest
  | two m n =>
    rw [suffixText, List.append_assoc]
    exact hdigits m _

theorem readsBack_basic {name : String} {suffix : Suffix}
    (hname : name.toList ≠ [] ∧ ∀ c ∈ name.toList, isLetter c = true) (hsuffix : suffix.Positive) :
    (basic name suffix).ReadsBack := by
  intro budget rest hbudget hends
  obtain ⟨c, more, hc⟩ := List.exists_cons_of_ne_nil hname.1
  have hletter : isLetter c = true := hname.2 c (by rw [hc]; exact List.mem_cons_self)
  have hpositive : 1 ≤ (text (basic name suffix)).length := by
    rw [text, hc]
    exact Nat.succ_pos _
  obtain ⟨budget, rfl⟩ : ∃ n, budget = n + 1 := ⟨budget - 1, by omega⟩
  obtain ⟨htake, hdrop⟩ := takeWhile_append_of_outside hname.2 (suffixText_outside hends)
  rw [text, List.append_assoc, readType.eq_def]
  simp only
  split
  · rename_i heq
    rw [hc, List.cons_append] at heq
    cases heq
    cases hletter
  · rw [htake, hdrop, readSuffix_suffixText hsuffix hends, String.ofList_toList]
    rw [if_neg]
    simpa using hname.1

/-- Every written type is read back. -/
theorem Written.readsBack {type : TypeText} (h : type.Written) : type.ReadsBack := by
  induction h with
  | basic hname hsuffix => exact readsBack_basic hname hsuffix
  | @tuple components h hsome ih =>
    intro budget rest hbudget hends
    obtain ⟨type, components, rfl⟩ := List.exists_cons_of_ne_nil hsome
    rw [text, List.cons_append, List.length_cons, List.length_append, List.length_singleton] at hbudget
    obtain ⟨budget, rfl⟩ : ∃ n, budget = n + 1 := ⟨budget - 1, by omega⟩
    have hcomponents := readComponents_texts ih budget rest (by omega)
    rw [text, List.cons_append, List.cons_append, List.append_assoc, readType]
    simp only [List.singleton_append, hcomponents, bind, Option.bind]
    rfl
  | @array item size h hsize ih =>
    intro budget rest hbudget hends
    rw [text, List.length_append] at hbudget
    rw [text, List.append_assoc, ih budget _ (by omega), readArrays_sizeText item hsize]
    cases size <;> exact ends_of_mem (.inr (.inr rfl)) _

theorem read?_text {type : TypeText} (h : type.Written) : read? type.text = some type := by
  have hread := h.readsBack (2 * type.text.length + 1) [] (Nat.le_succ _) (startsOutside_nil _)
  rw [List.append_nil, readArrays_of_ends _ (startsOutside_nil _)] at hread
  rw [read?, hread]

end TypeText

/-! ## What texts mean -/

namespace AbiType

theorem proper_of_coderOf {name : String} {suffix : Suffix} {type : AbiType}
    (hsuffix : suffix.Positive) (hfits : TypeText.fits name suffix = true)
    (h : TypeText.coderOf name suffix = .ok type) : type.Proper := by
  unfold TypeText.coderOf at h
  split at h
  · cases h
    exact .uint hfits
  · cases h
    exact .int hfits
  · cases h
    obtain ⟨hbits, hplaces⟩ := Bool.and_eq_true_iff.1 hfits
    obtain ⟨hbits, hlow⟩ := Bool.and_eq_true_iff.1 hbits
    exact .ufixed hbits ⟨of_decide_eq_true hlow, of_decide_eq_true hplaces⟩
  · cases h
    obtain ⟨hbits, hplaces⟩ := Bool.and_eq_true_iff.1 hfits
    obtain ⟨hbits, hlow⟩ := Bool.and_eq_true_iff.1 hbits
    exact .fixed hbits ⟨of_decide_eq_true hlow, of_decide_eq_true hplaces⟩
  · cases h
    exact .bytesN ⟨hsuffix, of_decide_eq_true hfits⟩
  · cases h
    exact .bytes
  · cases h
    exact .string
  · cases h
    exact .address
  · cases h
    exact .bool
  · cases h
  · cases h

theorem expandBasic_positive (name : String) {suffix : Suffix} (h : suffix.Positive) :
    ∃ name' suffix', TypeText.expandBasic name suffix = .basic name' suffix' ∧ suffix'.Positive := by
  unfold TypeText.expandBasic
  split
  · exact ⟨_, _, rfl, by decide⟩
  · exact ⟨_, _, rfl, by decide⟩
  · exact ⟨_, _, rfl, by decide⟩
  · exact ⟨_, _, rfl, by decide⟩
  · exact ⟨_, _, rfl, by decide⟩
  · exact ⟨_, _, rfl, by decide⟩
  · exact ⟨_, _, rfl, h⟩

theorem allFitIn_iff {types : List TypeText} :
    TypeText.allFitIn types = true ↔ ∀ type ∈ types, type.allFit = true := by
  induction types with
  | nil => simp [TypeText.allFitIn]
  | cons type rest ih => simp [TypeText.allFitIn, ih]

theorem coders_eq_ok_iff {types : List TypeText} {results : List AbiType} :
    TypeText.coders types = .ok results ↔
      List.Forall₂ (fun type result => type.coder = .ok result) types results := by
  induction types generalizing results with
  | nil =>
    rw [TypeText.coders, List.forall₂_nil_left_iff]
    exact ⟨fun h => (Except.ok.inj h).symm, fun h => by rw [h]⟩
  | cons type rest ih =>
    rw [TypeText.coders, List.forall₂_cons_left_iff, bind_eq_ok_iff]
    constructor
    · rintro ⟨first, hfirst, hrest⟩
      obtain ⟨more, hmore, hresults⟩ := bind_eq_ok_iff.1 hrest
      exact ⟨first, more, hfirst, ih.1 hmore, (Except.ok.inj hresults).symm⟩
    · rintro ⟨first, more, hfirst, hmore, rfl⟩
      exact ⟨first, hfirst, bind_eq_ok_iff.2 ⟨more, ih.2 hmore, rfl⟩⟩

theorem expandAll_eq_map (types : List TypeText) :
    TypeText.expandAll types = types.map TypeText.expand := by
  induction types with
  | nil => rfl
  | cons type rest ih => rw [TypeText.expandAll, ih, List.map_cons]

theorem proper_of_coder {written : TypeText} (h : written.Written) {type : AbiType}
    (hfits : written.expand.allFit = true) (hcoder : written.expand.coder = .ok type) :
    type.Proper := by
  induction h generalizing type with
  | @basic name suffix hname hsuffix =>
    obtain ⟨name', suffix', hexpand, hsuffix'⟩ := expandBasic_positive name hsuffix
    rw [TypeText.expand, hexpand] at hfits hcoder
    exact proper_of_coderOf hsuffix' hfits hcoder
  | @tuple components _ hsome ih =>
    rw [TypeText.expand, TypeText.allFit, expandAll_eq_map, allFitIn_iff] at hfits
    rw [TypeText.expand, TypeText.coder, expandAll_eq_map] at hcoder
    obtain ⟨types, htypes, htype⟩ := bind_eq_ok_iff.1 hcoder
    cases htype
    rw [coders_eq_ok_iff, List.forall₂_map_left_iff] at htypes
    have hlength := htypes.length_eq
    refine .tuple (fun type htype => ?_) ?_
    · obtain ⟨component, hmem, hcoder⟩ := exists_of_mem_right htypes htype
      exact ih component hmem (hfits _ (List.mem_map_of_mem hmem)) hcoder
    · rintro rfl
      exact hsome (List.length_eq_zero_iff.1 hlength)
  | array _ hsize ih =>
    rw [TypeText.expand, TypeText.allFit] at hfits
    rw [TypeText.expand, TypeText.coder] at hcoder
    obtain ⟨item, hitem, htype⟩ := bind_eq_ok_iff.1 hcoder
    cases htype
    exact .array (ih hfits hitem) hsize

/-- Whatever a text means has sizes that make sense. -/
theorem proper_of_ofText {text : List Char} {type : AbiType} (h : ofText text = .ok type) :
    type.Proper := by
  unfold ofText at h
  split at h
  · rename_i written hread
    unfold TypeText.resolve at h
    split at h
    · cases h
    · split at h
      · rename_i hfits
        exact proper_of_coder (TypeText.read?_written hread) hfits h
      · cases h
  · split at h <;> cases h

/-! ## The text of a type -/

mutual

/-- A type as it is written. -/
def written : AbiType → TypeText
  | .uint bits => .basic "uint" (.one bits)
  | .int bits => .basic "int" (.one bits)
  | .bool => .basic "bool" .none
  | .address => .basic "address" .none
  | .ufixed bits places => .basic "ufixed" (.two bits places)
  | .fixed bits places => .basic "fixed" (.two bits places)
  | .bytesN size => .basic "bytes" (.one size)
  | .bytes => .basic "bytes" .none
  | .string => .basic "string" .none
  | .array item size => .array item.written size
  | .tuple components => .tuple (writtenAll components)

/-- Types as they are written. -/
def writtenAll : List AbiType → List TypeText
  | [] => []
  | type :: rest => type.written :: writtenAll rest

end

/-- The text of a type. -/
def text (type : AbiType) : List Char := type.written.text

theorem writtenAll_eq_map (types : List AbiType) : writtenAll types = types.map written := by
  induction types with
  | nil => rfl
  | cons type rest ih => rw [writtenAll, ih, List.map_cons]

theorem Proper.written {type : AbiType} (h : type.Proper) : type.written.Written := by
  have hall : ∀ name ∈ TypeText.knownNames,
      name.toList ≠ [] ∧ name.toList.all TypeText.isLetter = true := by decide
  have hletters (name : String) (hname : name ∈ TypeText.knownNames) :
      name.toList ≠ [] ∧ ∀ c ∈ name.toList, TypeText.isLetter c = true :=
    (hall name hname).imp_right List.all_eq_true.1
  have hbits {bits : Nat} (h : TypeText.isBitSize bits = true) : 1 ≤ bits := by
    have hlow := (TypeText.isBitSize_iff.1 h).1
    omega
  induction h with
  | uint h => exact .basic (hletters "uint" (by decide)) (hbits h)
  | int h => exact .basic (hletters "int" (by decide)) (hbits h)
  | bool => exact .basic (hletters "bool" (by decide)) trivial
  | address => exact .basic (hletters "address" (by decide)) trivial
  | ufixed h hplaces => exact .basic (hletters "ufixed" (by decide)) ⟨hbits h, hplaces.1⟩
  | fixed h hplaces => exact .basic (hletters "fixed" (by decide)) ⟨hbits h, hplaces.1⟩
  | bytesN h => exact .basic (hletters "bytes" (by decide)) h.1
  | bytes => exact .basic (hletters "bytes" (by decide)) trivial
  | string => exact .basic (hletters "string" (by decide)) trivial
  | array _ hsize ih => exact .array ih hsize
  | @tuple components _ hsome ih =>
    rw [AbiType.written, writtenAll_eq_map]
    refine .tuple ?_ (fun hnil => hsome (List.map_eq_nil_iff.1 hnil))
    simpa using ih

/-- A type as it is written is written out, has sizes that make sense, and means the type. -/
theorem Proper.means {type : AbiType} (h : type.Proper) :
    type.written.expand = type.written ∧ type.written.allFit = true ∧
      type.written.coder = .ok type := by
  induction h with
  | uint h | int h => exact ⟨rfl, h, rfl⟩
  | bool | address | bytes | string => exact ⟨rfl, rfl, rfl⟩
  | ufixed h hplaces | fixed h hplaces =>
    refine ⟨rfl, ?_, rfl⟩
    show (TypeText.isBitSize _ && decide _ && decide _) = true
    simp [h, hplaces]
  | bytesN h => exact ⟨rfl, decide_eq_true h.2, rfl⟩
  | array _ _ ih =>
    obtain ⟨hexpand, hfits, hcoder⟩ := ih
    refine ⟨?_, hfits, ?_⟩
    · rw [AbiType.written, TypeText.expand, hexpand]
    · rw [AbiType.written, TypeText.coder, hcoder]
      rfl
  | @tuple components _ _ ih =>
    rw [AbiType.written, writtenAll_eq_map, TypeText.expand, TypeText.allFit, TypeText.coder,
      expandAll_eq_map]
    refine ⟨?_, allFitIn_iff.2 ?_, ?_⟩
    · rw [List.map_map]
      exact congrArg TypeText.tuple (List.map_congr_left fun type htype => (ih type htype).1)
    · intro type htype
      obtain ⟨component, hcomponent, rfl⟩ := List.mem_map.1 htype
      exact (ih component hcomponent).2.1
    · have hcoders : TypeText.coders (components.map AbiType.written) = .ok components := by
        rw [coders_eq_ok_iff, List.forall₂_map_left_iff, List.forall₂_same]
        exact fun type htype => (ih type htype).2.2
      rw [hcoders]
      rfl

/-- Each type whose sizes make sense is what its text means. -/
theorem ofText_text {type : AbiType} (h : type.Proper) : ofText type.text = .ok type := by
  obtain ⟨hexpand, hfits, hcoder⟩ := h.means
  have hknown : type.written.isUnknown = false := by
    cases h <;> rfl
  unfold ofText text
  rw [TypeText.read?_text h.written]
  show type.written.resolve = .ok type
  rw [TypeText.resolve, hknown, hexpand, hfits, hcoder]
  rfl

end AbiType

end ContractHost.Abi
