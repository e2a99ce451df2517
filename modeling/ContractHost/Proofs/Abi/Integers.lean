import ContractHost.Proofs.Abi.RoundTrip

/-!
# Integers on words

What integer types make of a text: which integer it spells, whether that is accepted, and the word that
it is written on. Strict reading takes large integers for words of negative ones without looking for the
end of the word, so under signed types `2 ^ 256` passes for zero.

* `IntegerType.Contains`, `IntegerType.Accepts`: the integers that are accepted.
* `encodeParams_integer`: what is accepted, and the word it is written on.
-/

namespace ContractHost.Abi

/-! ## Types of integers -/

/-- A type of integers on so many bits, with or without a sign. -/
structure IntegerType where
  signed : Bool
  bits : Nat

namespace IntegerType

variable (type : IntegerType)

/-- The text of the type. -/
def text : List Char :=
  (if type.signed then "int" else "uint").toList ++ Decimal.digits type.bits

/-- The type as one of all types. -/
def abiType : AbiType := if type.signed then .int type.bits else .uint type.bits

/-- The sizes that there are: whole bytes, up to those of a word. -/
def IsSized : Prop := 8 ≤ type.bits ∧ type.bits ≤ 256 ∧ type.bits % 8 = 0

/-- The integers of the type. -/
def Contains (n : Int) : Prop :=
  if type.signed then -twoTo (type.bits - 1) ≤ n ∧ n < twoTo (type.bits - 1)
  else 0 ≤ n ∧ n < twoTo type.bits

/-- The integers that strict reading accepts: those of the type and, if it has a sign, those that lie
as near to `2 ^ 256` as the former to zero. The ones below it are the words of negative integers. -/
def Accepts (n : Int) : Prop :=
  type.Contains n ∨ type.signed = true ∧
    twoTo 256 - twoTo (type.bits - 1) ≤ n ∧ n < twoTo 256 + twoTo (type.bits - 1)

theorem text_eq : type.text = type.abiType.text := by
  obtain ⟨signed, bits⟩ := type
  cases signed <;> rfl

theorem proper_iff : type.abiType.Proper ↔ type.IsSized := by
  rw [IsSized, ← TypeText.isBitSize_iff]
  obtain ⟨signed, bits⟩ := type
  cases signed with
  | false =>
    refine ⟨fun h => ?_, .uint⟩
    cases h with
    | uint h => exact h
  | true =>
    refine ⟨fun h => ?_, .int⟩
    cases h with
    | int h => exact h

theorem fits_iff {n : Int} : Fits type.abiType (.int n) ↔ type.Contains n := by
  obtain ⟨signed, bits⟩ := type
  cases signed with
  | false =>
    have hfits : fitsUnsigned bits n = true ↔ Contains ⟨false, bits⟩ n := by
      simp [fitsUnsigned, Contains]
    rw [← hfits]
    refine ⟨fun h => ?_, .uint⟩
    cases h with
    | uint h => exact h
  | true =>
    have hfits : fitsSigned bits n = true ↔ Contains ⟨true, bits⟩ n := by
      simp [fitsSigned, Contains]
    rw [← hfits]
    refine ⟨fun h => ?_, .int⟩
    cases h with
    | int h => exact h

theorem written {type : IntegerType} (hbits : 1 ≤ type.bits) : type.abiType.written.Written := by
  obtain ⟨signed, bits⟩ := type
  cases signed with
  | false =>
    have hletters : ∀ c ∈ "uint".toList, TypeText.isLetter c = true := List.all_eq_true.1 (by decide)
    exact .basic ⟨by decide, hletters⟩ hbits
  | true =>
    have hletters : ∀ c ∈ "int".toList, TypeText.isLetter c = true := List.all_eq_true.1 (by decide)
    exact .basic ⟨by decide, hletters⟩ hbits

/-- A size that is none of those has no meaning. -/
theorem not_sized_resolve {type : IntegerType} (h : ¬ type.IsSized) :
    type.abiType.written.resolve = .error .typeShape := by
  rw [IsSized, ← TypeText.isBitSize_iff, Bool.not_eq_true] at h
  obtain ⟨signed, bits⟩ := type
  have hfits (name : String) (hname : name = "int" ∨ name = "uint") :
      (TypeText.basic name (.one bits)).expand.allFit = false := by
    rcases hname with rfl | rfl <;> exact h
  cases signed with
  | false =>
    show (TypeText.basic "uint" (.one bits)).resolve = _
    rw [TypeText.resolve, hfits "uint" (.inr rfl)]
    rfl
  | true =>
    show (TypeText.basic "int" (.one bits)).resolve = _
    rw [TypeText.resolve, hfits "int" (.inl rfl)]
    rfl

theorem ofText_text_iff {coder : AbiType} :
    AbiType.ofText type.text = .ok coder ↔ type.IsSized ∧ coder = type.abiType := by
  rw [text_eq]
  constructor
  · intro h
    by_cases hsized : type.IsSized
    · have hcoder := AbiType.ofText_text (type.proper_iff.2 hsized)
      exact ⟨hsized, Except.ok.inj (h.symm.trans hcoder)⟩
    · exfalso
      rcases Nat.eq_zero_or_pos type.bits with hzero | hbits
      · obtain ⟨signed, bits⟩ := type
        cases hzero
        cases signed <;> cases h
      · rw [AbiType.ofText, AbiType.text, TypeText.read?_text (written hbits)] at h
        have hresolve : type.abiType.written.resolve = .ok coder := h
        cases (not_sized_resolve hsized).symm.trans hresolve
  · rintro ⟨hsized, rfl⟩
    exact AbiType.ofText_text (type.proper_iff.2 hsized)

theorem beginsWith_text : beginsWith type.text ['('] = false ∧
    (beginsWith type.text "uint".toList = true ∨ beginsWith type.text "int".toList = true) ∧
      beginsWith type.text "int".toList = type.signed := by
  obtain ⟨signed, bits⟩ := type
  cases signed with
  | false =>
    show beginsWith ("uint".toList ++ Decimal.digits bits) ['('] = false ∧
      (beginsWith ("uint".toList ++ Decimal.digits bits) "uint".toList = true ∨ _) ∧
        beginsWith ("uint".toList ++ Decimal.digits bits) "int".toList = false
    exact ⟨rfl, .inl rfl, rfl⟩
  | true =>
    show beginsWith ("int".toList ++ Decimal.digits bits) ['('] = false ∧
      (_ ∨ beginsWith ("int".toList ++ Decimal.digits bits) "int".toList = true) ∧
        beginsWith ("int".toList ++ Decimal.digits bits) "int".toList = true
    exact ⟨rfl, .inr rfl, rfl⟩

theorem parse_text_iff {lenient : Bool} {text : Text} {value : Datum} :
    parse lenient (.ofChars type.text) text = .ok value ↔ ∃ n, value = .int n ∧
      (if lenient then lenientInt? text.chars else strictInt? type.signed text.chars) = some n := by
  have hplain : ∀ c ∈ type.text, isPlain c = true := by
    rw [text_eq]
    obtain ⟨signed, bits⟩ := type
    cases signed with
    | false => exact isPlain_basic (by decide) (.one bits)
    | true => exact isPlain_basic (by decide) (.one bits)
  obtain ⟨htuple, hinteger, hsigned⟩ := type.beginsWith_text
  have hends := endsWithBracket_of_plain hplain
  rw [← Text.chars_ofChars type.text] at hends htuple hinteger hsigned
  simp only [parse_single hends, parseSingle, htuple, Bool.false_eq_true, if_false, if_pos hinteger]
  rw [hsigned]
  generalize (if lenient = true then lenientInt? text.chars else strictInt? type.signed text.chars) =
    read
  constructor
  · intro h
    cases read with
    | none => cases h
    | some n => exact ⟨n, (Except.ok.inj h).symm, rfl⟩
  · rintro ⟨n, rfl, rfl⟩
    rfl

end IntegerType

/-! ## Encodings -/

variable {type : IntegerType} {data : Bytes}

theorem encodeAll_integer_iff {n : Int} : encodeAll [type.abiType] [.int n] = .ok data ↔
    type.Contains n ∧ data = intWord n := by
  have hparts : encodeMembers [type.abiType] [.int n] = .ok [{ dynamic := false, bytes := intWord n }] := by
    obtain ⟨signed, bits⟩ := type
    cases signed <;> rfl
  have hjoin (word : Bytes) : join [{ dynamic := false, bytes := word }] = word := by
    simp [join, headOf, tailOf]
  have hlength := length_intWord n
  rw [encodeAll_eq_ok_iff, hparts]
  generalize intWord n = word at hlength
  constructor
  · rintro ⟨hfits, parts, hone, hdata, -⟩
    obtain rfl := Except.ok.inj hone
    exact ⟨type.fits_iff.1 (List.forall₂_cons.1 hfits).1, hdata.trans (hjoin word)⟩
  · rintro ⟨hcontains, rfl⟩
    refine ⟨.cons (type.fits_iff.2 hcontains) .nil, _, rfl, (hjoin data).symm, ?_⟩
    rw [hlength]
    decide

/-- A word is told by its length and its number. -/
theorem eq_intWord_iff {n : Int} :
    data = intWord n ↔ data.length = 32 ∧ Bytes.toNat data = (BitVec.ofInt 256 n).toNat := by
  have hnumber : (BitVec.ofInt 256 n).toNat = (n % twoTo 256).toNat := BitVec.toNat_ofInt ..
  have hread : Bytes.toNat (intWord n) = (n % twoTo 256).toNat := by
    have hpos : (0 : Int) < twoTo 256 := by decide
    have hnonneg := Int.emod_nonneg n (Int.ne_of_gt hpos)
    have hless := Int.emod_lt_of_pos n hpos
    rw [intWord, numberWord, Bytes.toNat_ofNat]
    exact Nat.mod_eq_of_lt (show _ < twoTo 256 by omega)
  rw [hnumber]
  constructor
  · intro h
    rw [h]
    exact ⟨length_intWord n, hread⟩
  · rintro ⟨hlength, hdata⟩
    rw [intWord, numberWord, ← hdata, ← hlength, Bytes.ofNat_toNat]

/-- An integer is read, is one of the type and is written on a word. -/
theorem encodeParams_eq_ok_iff_integer {lenient : Bool} {text : Text} :
    encodeParams [.ofChars type.text] [text] lenient = .ok data ↔ type.IsSized ∧ ∃ n,
      (if lenient then lenientInt? text.chars else strictInt? type.signed text.chars) = some n ∧
        type.Contains n ∧ data = intWord n := by
  have hmeans {coders : List AbiType} : Means [type.text] coders ↔
      type.IsSized ∧ coders = [type.abiType] := by
    rw [Means, List.forall₂_cons_left_iff]
    simp only [type.ofText_text_iff, List.forall₂_nil_left_iff]
    constructor
    · rintro ⟨_, _, ⟨hsized, rfl⟩, rfl, rfl⟩
      exact ⟨hsized, rfl⟩
    · rintro ⟨hsized, rfl⟩
      exact ⟨_, _, ⟨hsized, rfl⟩, rfl, rfl⟩
  rw [encodeParams_eq_ok_iff]
  simp only [List.map_singleton, Text.chars_ofChars, encodeTypes_eq_ok_iff, hmeans]
  constructor
  · rintro ⟨-, values, hparse, _, ⟨hsized, rfl⟩, hencode⟩
    obtain ⟨value, _, hvalue, hrest, rfl⟩ := List.forall₂_cons_left_iff.1 hparse
    cases hrest
    obtain ⟨n, rfl, hread⟩ := type.parse_text_iff.1 hvalue
    exact ⟨hsized, n, hread, encodeAll_integer_iff.1 hencode⟩
  · rintro ⟨hsized, n, hread, hencode⟩
    exact ⟨rfl, [.int n], .cons (type.parse_text_iff.2 ⟨n, rfl, hread⟩) .nil, _, ⟨hsized, rfl⟩,
      encodeAll_integer_iff.2 hencode⟩

/-! ## Strict reading -/

theorem IntegerType.IsSized.contains_taken_iff (hsized : type.IsSized) {h : Int} :
    type.Contains (taken type.signed h) ↔ type.Accepts h := by
  have hhalf : twoTo 256 = 2 * twoTo 255 := by decide
  obtain ⟨hlow, hhigh, -⟩ := hsized
  have hbits : twoTo (type.bits - 1) ≤ twoTo 255 := twoTo_le (by omega)
  have hpos : 0 < twoTo (type.bits - 1) := twoTo_pos _
  unfold taken IntegerType.Accepts IntegerType.Contains
  generalize twoTo (type.bits - 1) = size at *
  generalize twoTo 256 = word at *
  generalize twoTo 255 = half at *
  cases type.signed with
  | false => simp
  | true =>
    simp only [if_true, true_and]
    split <;> omega

theorem IntegerType.Accepts.bounds {h : Int} (haccepts : type.Accepts h) (hsized : type.IsSized) :
    -twoTo 256 ≤ h ∧ h < 2 * twoTo 256 := by
  have hhalf : twoTo 256 = 2 * twoTo 255 := by decide
  obtain ⟨hlow, hhigh, -⟩ := hsized
  have hwhole : twoTo type.bits ≤ twoTo 256 := twoTo_le hhigh
  have hbits : twoTo (type.bits - 1) ≤ twoTo 255 := twoTo_le (by omega)
  unfold IntegerType.Accepts IntegerType.Contains at haccepts
  split at haccepts <;> omega

/-- What is taken for an integer stands on the same word as the integer, which has room for no more. -/
theorem toNat_taken (signed : Bool) {h : Int} (hbounds : -twoTo 256 ≤ h ∧ h < 2 * twoTo 256) :
    ((BitVec.ofInt 256 (taken signed h)).toNat : Int) =
      if h < 0 then h + twoTo 256 else if h < twoTo 256 then h else h - twoTo 256 := by
  have hpos : (0 : Int) < twoTo 256 := by decide
  have hnumber : (BitVec.ofInt 256 (taken signed h)).toNat = (taken signed h % twoTo 256).toNat :=
    BitVec.toNat_ofInt ..
  have hsame : taken signed h % twoTo 256 = h % twoTo 256 := by
    unfold taken
    split
    · exact Int.sub_emod_right ..
    · rfl
  rw [hnumber, hsame, Int.toNat_of_nonneg (Int.emod_nonneg h (Int.ne_of_gt hpos))]
  generalize twoTo 256 = word at *
  split
  · rw [← Int.add_emod_right]
    exact Int.emod_eq_of_lt (by omega) (by omega)
  · split
    · exact Int.emod_eq_of_lt (by omega) (by omega)
    · rw [← Int.sub_emod_right]
      exact Int.emod_eq_of_lt (by omega) (by omega)

/-- A text is encoded under a type of integers if the type's size makes sense and its integer is
accepted. In lenient reading these are the type's integers, and each is written in two's complement. In
strict reading each is written as it is, or added to `2 ^ 256` if it is negative; but from `2 ^ 256` on,
where signed types accept some too, only what is above it is written. -/
theorem encodeParams_integer (type : IntegerType) (text : Text) (data : Bytes) :
    (encodeParams [.ofChars type.text] [text] true = .ok data ↔ type.IsSized ∧
      ∃ n, LenientInt text.chars n ∧ type.Contains n ∧ data.length = 32 ∧
        Bytes.toNat data = (BitVec.ofInt 256 n).toNat) ∧
    (encodeParams [.ofChars type.text] [text] false = .ok data ↔ type.IsSized ∧
      ∃ h, StrictInt text.chars h ∧ type.Accepts h ∧ data.length = 32 ∧ (Bytes.toNat data : Int) =
        if h < 0 then h + twoTo 256 else if h < twoTo 256 then h else h - twoTo 256) := by
  constructor
  · simp only [encodeParams_eq_ok_iff_integer, if_true, lenientInt?_eq_some_iff, eq_intWord_iff]
  · rw [encodeParams_eq_ok_iff_integer]
    simp only [Bool.false_eq_true, if_false, strictInt?_eq_some_iff]
    refine and_congr_right fun hsized => ⟨?_, ?_⟩
    · rintro ⟨_, ⟨h, hspelled, rfl⟩, hcontains, hdata⟩
      have haccepts : type.Accepts h := hsized.contains_taken_iff.1 hcontains
      obtain ⟨hlength, hnumber⟩ := eq_intWord_iff.1 hdata
      refine ⟨h, hspelled, haccepts, hlength, ?_⟩
      rw [hnumber]
      exact toNat_taken type.signed (haccepts.bounds hsized)
    · rintro ⟨h, hspelled, haccepts, hlength, hnumber⟩
      rw [← toNat_taken type.signed (haccepts.bounds hsized)] at hnumber
      exact ⟨taken type.signed h, ⟨h, hspelled, rfl⟩, hsized.contains_taken_iff.2 haccepts,
        eq_intWord_iff.2 ⟨hlength, Int.ofNat.inj hnumber⟩⟩

/-- Beyond the word, `2 ^ 256` passes for zero. -/
theorem encodeParams_beyond_word :
    let text := "0x10000000000000000000000000000000000000000000000000000000000000000"
    StrictInt text.toList (twoTo 256) ∧
      encodeParams ["int8"] [.plain text] false = .ok (List.replicate 32 0) ∧
        Bytes.toNat (List.replicate 32 0) ≠ twoTo 256 := by
  refine ⟨?_, by decide +kernel, by decide +kernel⟩
  exact (Text.integer?_sixteen (bare_strip _)).1 (by decide +kernel)

end ContractHost.Abi
