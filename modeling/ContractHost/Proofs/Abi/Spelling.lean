import ContractHost.Abi.Shown
import ContractHost.Proofs.Abi.IntegerTexts
import ContractHost.Proofs.Numerals

/-!
# Shown values in text

What is shown of a value can be written as a text of the kind that values are given as. The text is read
as the same value again: integers in decimal, truth values in small letters, addresses with their check
sum, bytes in hexadecimal, and lists of these in brackets.

* `Shown.spelled`: the text of what is shown.
* `Spells`: a value that is read back from the text of what it shows.
* `spells_of_parse`: a value that a text was read as, as it comes back from its encoding, is one.
-/

namespace ContractHost

/-! ## Integers -/

namespace Abi

theorem isPlain_of_mem_digits {n : Nat} {c : Char} (h : c ∈ Decimal.digits n) : isPlain c = true := by
  simp [isPlain, TypeText.isDigit_of_mem_digits h]

theorem isPlain_of_mem_intChars {n : Int} {c : Char} (h : c ∈ Decimal.intChars n) :
    isPlain c = true := by
  cases n with
  | ofNat n => exact isPlain_of_mem_digits h
  | negSucc n =>
    rcases List.mem_cons.1 h with rfl | h
    · rfl
    · exact isPlain_of_mem_digits h

theorem isPlain_suffixText {suffix : Suffix} {c : Char} (h : c ∈ TypeText.suffixText suffix) :
    isPlain c = true := by
  cases suffix with
  | none => cases h
  | one n => exact isPlain_of_mem_digits h
  | two m n =>
    rcases List.mem_append.1 h with h | h
    · exact isPlain_of_mem_digits h
    · rcases List.mem_cons.1 h with rfl | h
      · rfl
      · exact isPlain_of_mem_digits h

theorem isPlain_basic {name : String} (hname : name.toList.all isPlain = true) (suffix : Suffix) :
    ∀ c ∈ name.toList ++ TypeText.suffixText suffix, isPlain c = true := fun c hc =>
  (List.mem_append.1 hc).elim (List.all_eq_true.1 hname c) isPlain_suffixText

theorem neat_intChars (n : Int) : Neat (Decimal.intChars n) := by
  refine .plain ?_ fun c => isPlain_of_mem_intChars
  cases n with
  | ofNat n => exact Decimal.digits_ne_nil n
  | negSucc n => exact List.cons_ne_nil _ _

theorem lenientInt?_intChars {n : Int} (h : Decimal.hasText n = true) :
    lenientInt? (Decimal.intChars n) = some n := by
  refine lenientInt?_eq_some_iff.2 (.decimal ?_)
  rw [Text.strip_chars, (neat_intChars n).blanks.trimBy]
  exact Text.signed_intChars h

end Abi

/-! ## Addresses and bytes -/

namespace Hex

theorem exists_of_mem_digits {bytes : Bytes} {c : Char} (h : c ∈ digits bytes) :
    ∃ n : Fin 16, c = digit n := by
  obtain ⟨byte, -, hc⟩ := List.mem_flatMap.1 h
  have hbyte := byte.toNat_lt
  have hhigh : byte.toNat / 16 < 16 := by omega
  have hlow : byte.toNat % 16 < 16 := by omega
  rcases List.mem_cons.1 hc with rfl | hc
  · exact ⟨⟨_, hhigh⟩, rfl⟩
  · exact ⟨⟨_, hlow⟩, List.mem_singleton.1 hc⟩

theorem length_digits (bytes : Bytes) : (digits bytes).length = 2 * bytes.length := by
  induction bytes with
  | nil => rfl
  | cons byte rest ih =>
    rw [digits, List.flatMap_cons, List.length_append, ← digits, ih, List.length_cons, byteDigits,
      List.length_cons, List.length_singleton]
    omega

/-- Only the values of the digits matter. -/
theorem ofPairs?_congr {text text' : List Char} (h : text'.map digitValue? = text.map digitValue?) :
    ofPairs? text' = ofPairs? text := by
  induction text using ofPairs?.induct generalizing text' with
  | case1 => rw [List.map_eq_nil_iff.1 h]
  | case2 c =>
    obtain ⟨c', rfl, -⟩ := List.map_eq_singleton_iff.1 h
    rfl
  | case3 high low rest ih =>
    obtain ⟨high', _, rfl, hhigh, htail⟩ := List.map_eq_cons_iff.1 h
    obtain ⟨low', rest', rfl, hlow, hrest⟩ := List.map_eq_cons_iff.1 htail
    rw [ofPairs?, ofPairs?, hhigh, hlow, ih hrest]

end Hex

namespace Derivation

/-- The check sum shows only in what tells small letters and capitals apart. -/
theorem map_checkedDigits {α : Type} {f : Char → α} {digits hash : List Char}
    (hlength : digits.length ≤ hash.length) (h : ∀ c ∈ digits, f c.toUpper = f c) :
    (checkedDigits digits hash).map f = digits.map f := by
  induction digits generalizing hash with
  | nil => rfl
  | cons c rest ih =>
    cases hash with
    | nil => exact absurd hlength (Nat.not_succ_le_zero _)
    | cons d hash =>
      obtain ⟨hc, hrest⟩ := List.forall_mem_cons.1 h
      have hmore := ih (Nat.le_of_succ_le_succ hlength) hrest
      have hfirst : f (if 8 ≤ (Hex.digitValue? d).getD 0 then c.toUpper else c) = f c := by
        split
        · exact hc
        · rfl
      rw [List.map_cons, ← hmore, ← hfirst]
      rfl

/-- What does not change with the case of the digits of an address is the same in its text. -/
theorem map_checksum {α : Type} {f : Char → α} (a : Address)
    (h : ∀ n : Fin 16, f (Hex.digit n).toUpper = f (Hex.digit n)) :
    ∃ digits, (checksum a).toList = '0' :: 'x' :: digits ∧
      digits.map f = (Hex.digits a.bytes).map f := by
  refine ⟨_, String.toList_ofList, map_checkedDigits ?_ fun c hc => ?_⟩
  · rw [Hex.length_digits, Hex.length_digits, a.length_bytes, FixedBytes.length_bytes]
    decide
  · obtain ⟨n, rfl⟩ := Hex.exists_of_mem_digits hc
    exact h n

end Derivation
namespace Abi

theorem isPlain_digit (n : Fin 16) : isPlain (Hex.digit n) = true := by
  revert n
  decide

theorem neat_marked {digits : List Char} (h : ∀ c ∈ digits, isPlain c = true) :
    Neat ('0' :: 'x' :: digits) := by
  refine .plain (List.cons_ne_nil _ _) (List.forall_mem_cons.2 ⟨rfl, ?_⟩)
  exact List.forall_mem_cons.2 ⟨rfl, h⟩

theorem neat_encode (bytes : Bytes) : Neat (Hex.encode bytes).toList := by
  rw [Hex.encode, String.toList_ofList]
  refine neat_marked fun c hc => ?_
  obtain ⟨n, rfl⟩ := Hex.exists_of_mem_digits hc
  exact isPlain_digit n

theorem addressOf?_checksum (a : Address) : addressOf? (Derivation.checksum a).toList = some a := by
  obtain ⟨digits, htext, hvalues⟩ := Derivation.map_checksum (f := Hex.digitValue?) a (by decide)
  have hread : Hex.ofPairs? digits = some a.bytes :=
    (Hex.ofPairs?_congr hvalues).trans (Hex.ofPairs?_digits a.bytes)
  rw [htext, addressOf?, hread]
  exact congrArg Except.toOption (FixedBytes.ofBytes_bytes a)

theorem neat_checksum (a : Address) : Neat (Derivation.checksum a).toList := by
  obtain ⟨digits, htext, hplain⟩ := Derivation.map_checksum (f := isPlain) a (by decide)
  rw [htext]
  refine neat_marked fun c hc => ?_
  have hmem : isPlain c ∈ (Hex.digits a.bytes).map isPlain := hplain ▸ List.mem_map_of_mem hc
  obtain ⟨d, hd, heq⟩ := List.mem_map.1 hmem
  obtain ⟨n, rfl⟩ := Hex.exists_of_mem_digits hd
  rw [← heq]
  exact isPlain_digit n

/-! ## Texts of values -/

mutual

/-- The text of what is shown. -/
def Shown.spelled : Shown → Text
  | bool b => if b then "true" else "false"
  | text t => t
  | decimal n places => Decimal.scaledText n places
  | list items => .ofLetters (.char '[' :: separated (spelledItems items) ++ [.char ']'])

/-- The texts of what is shown. -/
def Shown.spelledItems : List Shown → List Text
  | [] => []
  | item :: rest => item.spelled :: spelledItems rest

end

theorem Shown.spelledItems_eq_map (items : List Shown) : spelledItems items = items.map spelled := by
  induction items with
  | nil => rfl
  | cons item rest ih => rw [spelledItems, ih, List.map_cons]

theorem Shown.ofItems_eq_map (type : List Char) (items : List Datum) :
    ofItems type items = items.map (ofDatum type) := by
  induction items with
  | nil => rfl
  | cons item rest ih => rw [ofItems, ih, List.map_cons]

/-- The text of what a value of a type shows is read as the value. -/
def ReadsBack (type : Text) (value : Datum) : Prop :=
  parse true type (Shown.ofDatum type.chars value).spelled = .ok value

/-- A value that is read back from a text that can also be an item of a list. -/
structure Spells (type : Text) (value : Datum) : Prop where
  read : ReadsBack type value
  plain : (Shown.ofDatum type.chars value).spelled =
    .ofChars (Shown.ofDatum type.chars value).spelled.chars
  neat : Neat (Shown.ofDatum type.chars value).spelled.chars

/-! ## Single values -/

theorem natAbs_lt_of_fits {type : AbiType} {n : Int} (h : Fits type (.int n)) (proper : type.Proper) :
    n.natAbs < twoTo 256 := by
  cases h with
  | @uint bits _ h =>
    cases proper with
    | uint hbits =>
      have hle := twoTo_le (TypeText.isBitSize_iff.1 hbits).2.1
      simp only [fitsUnsigned, Bool.and_eq_true, decide_eq_true_eq] at h
      omega
  | @int bits _ h =>
    cases proper with
    | int hbits =>
      have hsize := (TypeText.isBitSize_iff.1 hbits).2.1
      have hle := twoTo_le (show bits - 1 ≤ 255 by omega)
      have hhalf : twoTo 255 < twoTo 256 := by decide
      simp only [fitsSigned, Bool.and_eq_true, decide_eq_true_eq] at h
      omega

theorem hasText_of_fits {type : AbiType} {n : Int} (h : Fits type (.int n)) (proper : type.Proper) :
    Decimal.hasText n = true := by
  have hbound : twoTo 256 ≤ tenTo 256 := Nat.pow_le_pow_left (by decide) 256
  have hcount : 256 ≤ 4300 := by decide
  exact Decimal.hasText_of_lt hcount (Nat.lt_of_lt_of_le (natAbs_lt_of_fits h proper) hbound)

theorem parse_single {type : Text} (hends : endsWithBracket type.chars = false) (lenient : Bool)
    (text : Text) : parse lenient type text = parseSingle lenient type text := by
  rw [parse, if_neg (by rw [hends]; exact Bool.false_ne_true)]

theorem parse_array {type : Text} {inner : List Letter} (hends : endsWithBracket type.chars = true)
    (hinner : beforeLastBracket? type.letters = some inner) (lenient : Bool) (text : Text) :
    parse lenient type text = do
      let items ← splitArray text
      return .list (← items.mapM (parse lenient (.ofLetters inner))) := by
  rw [parse, if_pos hends]
  split
  · rename_i hnone
    rw [hinner] at hnone
    cases hnone
  · rename_i inner' hinner'
    rw [hinner] at hinner'
    cases hinner'
    rfl

/-- How a text is read as a value of a type that is not an array, by the type's characters. -/
inductive Reads (text : Text) : List Char → Datum → Prop
  | int {type : List Char} {n : Int}
    (htype : beginsWith type "uint".toList = true ∨ beginsWith type "int".toList = true)
    (h : lenientInt? text.chars = some n) : Reads text type (.int n)
  | bool {b : Bool}
    (h : Text.lower (Text.strip text.chars) = (if b then "true" else "false").toList) :
    Reads text "bool".toList (.bool b)
  | address {a : Address}
    (h : addressOf? (if beginsWith text.chars ['0', 'x'] then text.chars
      else '0' :: 'x' :: text.chars) = some a) :
    Reads text "address".toList (.address a)
  | bytes {type : List Char} {bytes : Bytes} (htype : beginsWith type "bytes".toList = true)
    (h : Hex.decode text = .ok bytes) : Reads text type (.bytes bytes)
  | string : Reads text "string".toList (.string text)

theorem reads_of_parseSingle {type text : Text} {value : Datum}
    (h : parseSingle true type text = .ok value) : Reads text type.chars value := by
  unfold parseSingle at h
  generalize type.chars = name at h ⊢
  simp only [Bool.not_true, Bool.false_eq_true, false_and, if_false, if_true] at h
  split_ifs at h
  · rename_i hint
    split at h
    · rename_i n hn
      cases h
      exact .int hint hn
    · cases h
  · rename_i hbool htrue
    subst hbool
    cases h
    exact .bool htrue
  · rename_i hbool _ hfalse
    subst hbool
    cases h
    exact .bool hfalse
  -- addresses, with a mark and without
  · rename_i haddress hmarked
    subst haddress
    split at h
    · rename_i a ha
      cases h
      exact .address (by rwa [if_pos hmarked])
    · cases h
  · rename_i haddress hmarked
    subst haddress
    split at h
    · rename_i a ha
      cases h
      exact .address (by rwa [if_neg hmarked])
    · cases h
  · rename_i hbytes
    split at h
    · rename_i bytes hread
      cases h
      exact .bytes hbytes hread
    · cases h
  · rename_i hstring
    subst hstring
    cases h
    exact .string

theorem Reads.parseSingle {type text : Text} {value : Datum} (h : Reads text type.chars value) :
    parseSingle true type text = .ok value := by
  unfold Abi.parseSingle
  generalize type.chars = name at h ⊢
  have hbegins {start : List Char} : beginsWith name start = true → ∃ rest, name = start ++ rest :=
    fun h => (List.isPrefixOf_iff_prefix.1 h).imp fun _ => Eq.symm
  cases h with
  | int htype h =>
    have htuple : ¬beginsWith name ['('] = true := by
      rcases htype with htype | htype
      · obtain ⟨rest, rfl⟩ := hbegins htype
        exact Bool.false_ne_true
      · obtain ⟨rest, rfl⟩ := hbegins htype
        exact Bool.false_ne_true
    simp only [if_neg htuple, if_pos htype, if_true, h]
  | @bool b h =>
    simp only [h]
    cases b <;> rfl
  | address h =>
    simp only [Bool.not_true, Bool.false_eq_true, false_and, if_false, h]
    rfl
  | bytes htype h =>
    obtain ⟨rest, rfl⟩ := hbegins htype
    simp only [h]
    rfl
  | string => rfl

theorem Spells.of_reads {type : Text} {text : List Char} {value : Datum}
    (hends : endsWithBracket type.chars = false)
    (htext : (Shown.ofDatum type.chars value).spelled = .ofChars text)
    (h : Reads (.ofChars text) type.chars value) (neat : Neat text) : Spells type value := by
  have hchars : (Shown.ofDatum type.chars value).spelled.chars = text := by
    rw [htext, Text.chars_ofChars]
  refine ⟨?_, by rw [hchars, htext], by rwa [hchars]⟩
  rw [ReadsBack, htext, parse_single hends]
  exact h.parseSingle

theorem reads_checksum (a : Address) :
    Reads (Derivation.checksum a) "address".toList (.address a) := by
  have hmarked : beginsWith (Derivation.checksum a).toList ['0', 'x'] = true := by
    rw [Derivation.checksum, String.toList_ofList]
    rfl
  refine .address ?_
  rw [Text.chars_plain, if_pos hmarked, addressOf?_checksum]

theorem Reads.spells {type text : Text} {value : Datum} {fitting : AbiType}
    (h : Reads text type.chars value) (hends : endsWithBracket type.chars = false)
    (hstring : type.chars ≠ "string".toList) (fits : Fits fitting value) (proper : fitting.Proper) :
    Spells type (settled fitting value) := by
  generalize hname : type.chars = name at h
  cases h with
  | int htype =>
    have hn := hasText_of_fits fits proper
    rw [← hname] at htype
    have hread {n : Int} (hn : Decimal.hasText n = true) :
        Reads (.ofChars (Decimal.intChars n)) type.chars (.int n) :=
      .int htype (by rw [Text.chars_ofChars, lenientInt?_intChars hn])
    cases fits <;> exact .of_reads hends rfl (hread hn) (neat_intChars _)
  | @bool b =>
    have hread : Reads (.plain (if b then "true" else "false")) type.chars (.bool b) := by
      rw [hname]
      exact .bool (by cases b <;> rfl)
    have hshown : (Shown.ofDatum type.chars (.bool b)).spelled =
        .plain (if b then "true" else "false") := by
      rw [hname]
      cases b <;> rfl
    rw [← Text.ofChars_toList] at hread hshown
    cases fits
    refine .of_reads hends hshown hread ?_
    cases b
    · exact .plain (by decide) (List.all_eq_true.1 rfl)
    · exact .plain (by decide) (List.all_eq_true.1 rfl)
  | @address a =>
    have hread := reads_checksum a
    rw [← Text.ofChars_toList, ← hname] at hread
    cases fits
    exact .of_reads hends (Text.ofChars_toList _).symm hread (neat_checksum a)
  | bytes htype =>
    have hread (bytes : Bytes) :
        Reads (.ofChars (Hex.encode bytes).toList) type.chars (.bytes bytes) := by
      rw [hname, Text.ofChars_toList]
      exact .bytes htype (Hex.decode_encode bytes)
    cases fits <;> exact .of_reads hends (Text.ofChars_toList _).symm (hread _) (neat_encode _)
  | string => exact absurd hname hstring

/-! ## Lists -/

theorem Fits.members {type : AbiType} {items : List Datum} (h : Fits type (.list items))
    (proper : type.Proper) :
    ∃ types, Abi.settled type (.list items) = .list (settledMembers types items) ∧
      List.Forall₂ Fits types items ∧ ∀ member ∈ types, member.Proper := by
  cases h with
  | @array item size _ hsize hitems =>
    cases proper with
    | array hitem =>
      refine ⟨List.replicate items.length item, rfl, (forall₂_replicate rfl).2 hitems, ?_⟩
      intro member hmember
      rw [List.eq_of_mem_replicate hmember]
      exact hitem
  | @tuple types _ hlength hitems =>
    cases proper with
    | tuple hcomponents => exact ⟨types, rfl, forall₂_of_zip hlength hitems, hcomponents⟩

theorem exists_of_mem_settledMembers {types : List AbiType} {items : List Datum} {value : Datum}
    (h : value ∈ settledMembers types items) :
    ∃ pair ∈ types.zip items, value = settled pair.1 pair.2 := by
  induction types generalizing items with
  | nil => simp [settledMembers] at h
  | cons type types ih =>
    cases items with
    | nil => simp [settledMembers] at h
    | cons item rest =>
      rw [settledMembers] at h
      rcases List.mem_cons.1 h with rfl | h
      · exact ⟨(type, item), List.mem_cons_self, rfl⟩
      · obtain ⟨pair, hpair, hvalue⟩ := ih h
        exact ⟨pair, List.mem_cons_of_mem _ hpair, hvalue⟩

theorem spelled_list {type inner : List Char} (hends : endsWithBracket type = true)
    (hinner : beforeLastBracket? type = some inner) {items : List Datum}
    (h : ∀ item ∈ items, (Shown.ofDatum inner item).spelled =
      .ofChars (Shown.ofDatum inner item).spelled.chars) :
    (Shown.ofDatum type (.list items)).spelled =
      .ofChars (bracketed (items.map fun item => (Shown.ofDatum inner item).spelled.chars)) := by
  have hitems : items.map (Shown.spelled ∘ Shown.ofDatum inner) =
      (items.map fun item => (Shown.ofDatum inner item).spelled.chars).map Text.ofChars := by
    rw [List.map_map]
    exact List.map_congr_left h
  rw [Shown.ofDatum, if_pos hends, hinner, Option.getD_some, Shown.ofItems_eq_map, Shown.spelled,
    Shown.spelledItems_eq_map, List.map_map, hitems, TypeText.separated_ofChars,
    ← Text.ofLetters_chars, bracketed, List.map_append, List.map_cons, List.map_singleton]

theorem spells_list {type : Text} {inner : List Letter} (hends : endsWithBracket type.chars = true)
    (hinner : beforeLastBracket? type.letters = some inner) {items : List Datum}
    (h : ∀ item ∈ items, Spells (.ofLetters inner) item) : Spells type (.list items) := by
  have hspelled := spelled_list hends (beforeLastBracket?_ofLetters hinner) fun item hitem => (h item hitem).plain
  generalize htexts : (items.map fun item =>
    (Shown.ofDatum (Text.ofLetters inner).chars item).spelled.chars) = texts at hspelled
  have hneat : ∀ text ∈ texts, Neat text := by
    rw [← htexts]
    intro text htext
    obtain ⟨item, hitem, rfl⟩ := List.mem_map.1 htext
    exact (h item hitem).neat
  have hitems : (texts.map Text.ofChars).mapM (parse true (.ofLetters inner)) = .ok items := by
    rw [mapM_eq_ok_iff, ← htexts, List.map_map, List.forall₂_map_left_iff, List.forall₂_same]
    intro item hitem
    have hread := (h item hitem).read
    rwa [ReadsBack, (h item hitem).plain] at hread
  refine ⟨?_, by rw [hspelled, Text.chars_ofChars], ?_⟩
  · rw [ReadsBack, hspelled, parse_array hends hinner, splitArray_bracketed hneat]
    simp only [bind, Except.bind, hitems]
    rfl
  · rw [hspelled, Text.chars_ofChars]
    exact .bracketed hneat

theorem prefix_of_beforeLastBracket? {type inner : List Char}
    (hinner : beforeLastBracket? type = some inner) : inner <+: type := by
  unfold beforeLastBracket? at hinner
  split at hinner
  · rename_i c rest heq
    have hsuffix : rest <:+ type.reverse :=
      (List.suffix_cons c rest).trans (heq ▸ List.dropWhile_suffix _)
    rw [← Option.some.inj hinner, ← List.reverse_reverse type]
    exact List.reverse_prefix.2 hsuffix
  · cases hinner

theorem beginsWith_inner {type inner start : List Char}
    (hinner : beforeLastBracket? type = some inner) (h : beginsWith type start = false) :
    beginsWith inner start = false := by
  rw [beginsWith, Bool.eq_false_iff, Ne, List.isPrefixOf_iff_prefix] at h ⊢
  exact fun hstart => h (hstart.trans (prefix_of_beforeLastBracket? hinner))

/-- A value that a text was read as, as it comes back from its encoding, is read back from the text of
what it shows. -/
theorem spells_of_parse {type text : Text} {value : Datum} {fitting : AbiType}
    (h : parse true type text = .ok value) (hstring : beginsWith type.chars "string".toList = false)
    (fits : Fits fitting value) (proper : fitting.Proper) : Spells type (settled fitting value) := by
  cases hends : endsWithBracket type.chars with
  | false =>
    rw [parse_single hends] at h
    refine (reads_of_parseSingle h).spells hends (fun hname => ?_) fits proper
    rw [hname] at hstring
    exact nomatch hstring
  | true =>
    cases hinner : beforeLastBracket? type.letters with
    | none =>
      rw [parse, if_pos hends] at h
      split at h
      · cases h
      · rename_i hsome
        rw [hinner] at hsome
        cases hsome
    | some inner =>
      rw [parse_array hends hinner] at h
      obtain ⟨texts, -, h⟩ := bind_eq_ok_iff.1 h
      obtain ⟨items, hitems, hvalue⟩ := bind_eq_ok_iff.1 h
      cases hvalue
      -- an array's items and a tuple's members settle alike, so the type need not be an array here
      obtain ⟨types, hsettled, hfits, hproper⟩ := fits.members proper
      rw [hsettled]
      refine spells_list hends hinner fun item hitem => ?_
      obtain ⟨pair, hpair, rfl⟩ := exists_of_mem_settledMembers hitem
      obtain ⟨hmember, hdatum⟩ := List.of_mem_zip hpair
      obtain ⟨text, -, hread⟩ := exists_of_mem_right (mapM_eq_ok_iff.1 hitems) hdatum
      exact spells_of_parse hread (beginsWith_inner (beforeLastBracket?_ofLetters hinner) hstring)
        ((List.forall₂_iff_zip.1 hfits).2 hpair) (hproper _ hmember)
termination_by type.letters.length
decreasing_by
  rw [Text.letters_ofLetters]
  exact length_beforeLastBracket hinner

end Abi

end ContractHost
