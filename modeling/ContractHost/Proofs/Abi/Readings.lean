import ContractHost.Proofs.Abi.Renderings

/-!
# Types and the texts they are read from

Nothing of a text is lost when a type is read from it: numbers have no leading zeros and there is no white
space, so the text of the type that is read is the one that was there. That text comes apart as the type
does, under short names as well as those written out.

* `Decimal.digits_ofDigits`: digits without a leading zero are those of the number that they spell.
* `TypeText.text_of_read?`: the text of a type that is read.
* `TypeText.Written.neat`: the text of a type within the grammar is a neat part of a longer one.
-/

namespace ContractHost

namespace Abi

theorem digitChar_digitValue {c : Char} (h : TypeText.isDigit c = true) :
    Decimal.digitValue c < 10 ∧ Nat.digitChar (Decimal.digitValue c) = c := by
  have hplain : isPlain c = true := by simp [isPlain, h]
  exact ascii_forall (P := fun c => TypeText.isDigit c = true →
    Decimal.digitValue c < 10 ∧ Nat.digitChar (Decimal.digitValue c) = c) (by decide)
    (isPlain_ascii hplain) h

end Abi

/-- Digits without a leading zero are those of the number that they spell. -/
theorem Decimal.digits_ofDigits {text : List Char} (hsome : text ≠ [])
    (h : ∀ c ∈ text, Abi.TypeText.isDigit c = true) (hfirst : text.head? ≠ some '0') :
    digits (ofDigits text) = text := by
  have hstep (n : Nat) : digits n = if n < 10 then [Nat.digitChar n]
      else digits (n / 10) ++ [Nat.digitChar (n % 10)] := Nat.toDigits_eq_if (by decide)
  induction text using List.reverseRecOn with
  | nil => exact absurd rfl hsome
  | append_singleton front last ih =>
    obtain ⟨hlt, hlast⟩ := Abi.digitChar_digitValue
      (h last (List.mem_append_right front List.mem_cons_self))
    have hspelled : ofDigits (front ++ [last]) = ofDigits front * 10 + digitValue last := by
      rw [ofDigits, ofDigitsFrom, List.foldl_append]
      rfl
    rw [hspelled, hstep]
    cases front with
    | nil =>
      have hzero : ofDigits [] = 0 := rfl
      rw [hzero, Nat.zero_mul, Nat.zero_add, if_pos hlt, hlast, List.nil_append]
    | cons c more =>
      have hfront : digits (ofDigits (c :: more)) = c :: more :=
        ih (List.cons_ne_nil c more) (fun d hd => h d (List.mem_append_left _ hd)) hfirst
      have hpositive : ofDigits (c :: more) ≠ 0 := by
        intro hzero
        rw [hzero] at hfront
        exact hfirst (congrArg List.head? hfront.symm)
      rw [if_neg (by omega), Nat.mul_comm, Nat.mul_add_div (by decide), Nat.div_eq_of_lt hlt,
        Nat.add_zero, hfront, Nat.mul_add_mod, Nat.mod_eq_of_lt hlt, hlast]

namespace Abi

namespace TypeText

/-! ## Texts that are read -/

theorem text_of_readNumber? {text rest : List Char} {n : Nat}
    (h : readNumber? text = some (n, rest)) : Decimal.digits n ++ rest = text := by
  unfold readNumber? at h
  split at h
  · rename_i c more
    split at h
    · rename_i hfirst
      cases h
      have htake : (c :: more).takeWhile isDigit = c :: more.takeWhile isDigit :=
        List.takeWhile_cons_of_pos hfirst.1
      rw [Decimal.digits_ofDigits, List.takeWhile_append_dropWhile]
      · rw [htake]
        exact List.cons_ne_nil _ _
      · exact fun d => mem_takeWhile
      · rw [htake]
        exact fun hzero => hfirst.2 (Option.some.inj hzero)
    · cases h
  · cases h

theorem text_of_readSuffix (text : List Char) :
    suffixText (readSuffix text).1 ++ (readSuffix text).2 = text := by
  unfold readSuffix
  split
  · rfl
  · rename_i m rest hm
    have hfirst := text_of_readNumber? hm
    split
    · rename_i n rest' hn
      rw [suffixText, List.append_assoc, List.cons_append, text_of_readNumber? hn, hfirst]
    · exact hfirst
  · rename_i m rest _ hm
    exact text_of_readNumber? hm

theorem text_of_readArrays (budget : Nat) (type : TypeText) (text : List Char) :
    (readArrays budget type text).1.text ++ (readArrays budget type text).2 = type.text ++ text := by
  induction budget generalizing type text with
  | zero => rfl
  | succ budget ih =>
    rw [readArrays.eq_def]
    simp only
    split
    · rw [ih, TypeText.text, List.append_assoc]
      rfl
    · split
      · rename_i rest _ size more hsize
        rw [ih, TypeText.text, List.append_assoc, sizeText, ← text_of_readNumber? hsize]
        simp
      · rfl
    · rfl

/-- What is read at the front of a text stands there, a type as well as components. -/
theorem text_of_read (budget : Nat) :
    (∀ text type rest, readType budget text = some (type, rest) → type.text ++ rest = text) ∧
      ∀ text types rest, readComponents budget text = some (types, rest) →
        commaSeparated (texts types) ++ ')' :: rest = text := by
  induction budget with
  | zero =>
    refine ⟨fun text type rest h => ?_, fun text types rest h => ?_⟩
    · rw [readType] at h
      cases h
    · rw [readComponents] at h
      cases h
  | succ budget ih =>
    obtain ⟨ihtype, ihcomponents⟩ := ih
    constructor
    · intro text type rest h
      rw [readType.eq_def] at h
      simp only at h
      split at h
      · rename_i more
        obtain ⟨⟨components, after⟩, hcomponents, h⟩ := Option.bind_eq_some_iff.1 h
        have harrays := text_of_readArrays after.length (.tuple components) after
        rw [Option.some.inj h, TypeText.text] at harrays
        rw [harrays, ← ihcomponents _ _ _ hcomponents]
        simp
      · split at h
        · cases h
        · have hname := text_of_readSuffix (text.dropWhile isLetter)
          have harrays := text_of_readArrays (readSuffix (text.dropWhile isLetter)).2.length
            (.basic (String.ofList (text.takeWhile isLetter)) (readSuffix (text.dropWhile isLetter)).1)
            (readSuffix (text.dropWhile isLetter)).2
          rw [Option.some.inj h, TypeText.text, String.toList_ofList, List.append_assoc, hname,
            List.takeWhile_append_dropWhile] at harrays
          exact harrays
    · intro text types rest h
      rw [readComponents.eq_def] at h
      obtain ⟨⟨type, after⟩, htype, h⟩ := Option.bind_eq_some_iff.1 h
      have hfirst := ihtype _ _ _ htype
      simp only at h
      split at h
      · cases h
        rw [texts, texts, commaSeparated_one, hfirst]
      · obtain ⟨⟨more, last⟩, hmore, h⟩ := Option.bind_eq_some_iff.1 h
        cases h
        obtain ⟨second, others, rfl⟩ :=
          List.exists_cons_of_ne_nil ((read_written budget).2 _ _ _ hmore).1
        rw [texts, texts, commaSeparated_cons, ← texts, List.append_assoc, List.cons_append,
          ihcomponents _ _ _ hmore, hfirst]
      · cases h

/-- The text of a type that is read is the one that was there. -/
theorem text_of_read? {text : List Char} {type : TypeText} (h : read? text = some type) :
    type.text = text := by
  unfold read? at h
  split at h
  · rename_i found hread
    cases h
    have hfront := (text_of_read _).1 _ _ _ hread
    rwa [List.append_nil] at hfront
  · cases h

/-! ## Texts of types as parts -/

theorem isPlain_of_isLetter {c : Char} (h : isLetter c = true) : isPlain c = true := by
  simp [isPlain, h]

theorem texts_eq_map (types : List TypeText) : texts types = types.map TypeText.text := by
  induction types with
  | nil => rfl
  | cons type rest ih => rw [texts, ih, List.map_cons]

/-- The text of a type within the grammar is a neat part of a longer one. -/
theorem Written.neat {type : TypeText} (h : type.Written) : Neat type.text := by
  induction h with
  | @basic name suffix hname _ =>
    exact neat_basic hname.1 (List.all_eq_true.2 fun c hc => isPlain_of_isLetter (hname.2 c hc)) suffix
  | tuple _ _ ih =>
    rw [TypeText.text, texts_eq_map]
    refine .enclosed (.inr rfl) (.inr rfl) fun text htext => ?_
    obtain ⟨type, htype, rfl⟩ := List.mem_map.1 htext
    exact ih type htype
  | array _ _ ih =>
    rw [TypeText.text]
    exact ih.append (neat_sizeText _)

end TypeText

end Abi

end ContractHost
