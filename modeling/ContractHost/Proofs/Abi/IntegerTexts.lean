import ContractHost.Proofs.Literals

/-!
# Integers in text

Integers are given as literals: in lenient reading decimal ones, or hexadecimal ones with a mark, and in
strict reading hexadecimal ones. Each text spells one integer at most, and that is the integer that is
read, but for the large ones that strict reading takes for words of negative integers.

* `LenientInt`, `StrictInt`: the integer that a text spells.
* `lenientInt?_eq_some_iff`, `strictInt?_eq_some_iff`: what is read.
-/

namespace ContractHost.Abi

open Text (Sign Signed Numeral HexNumeral MarkedNumeral asciiDigit)

/-! ## Lenient reading -/

/-- The integers that a text spells in lenient reading: decimal ones with any sign, and hexadecimal ones
with a mark and no plus. -/
inductive LenientInt (text : List Char) : Int → Prop
  | decimal {i : Int} (h : Signed (Numeral 10) (Text.strip text) i) : LenientInt text i
  | marked {sign number : List Char} {unit : Int} {n : Nat} (hsign : Sign sign unit)
    (hplus : sign ≠ ['+']) (hnumber : MarkedNumeral '0' number n)
    (htext : Text.strip text = sign ++ number) : LenientInt text (unit * n)

theorem bare_strip (text : List Char) : Bare Text.isIntegerBlank (Text.strip text) :=
  (bare_trimBy Text.isBlank text).integer

theorem small_beyond {c : Char} (h : ¬ c.toNat < 128) : Text.small c = c ∨ Text.small c = 'k' := by
  unfold Text.small
  split
  · exact .inr rfl
  · refine .inl (dif_neg fun hcapital => ?_)
    have hlast : c.toNat ≤ 90 := hcapital.2
    omega

theorem small_eq_iff {c : Char} : (Text.small c = '-' ↔ c = '-') ∧ (Text.small c = '0' ↔ c = '0') ∧
    (Text.small c = 'x' ↔ c = 'x' ∨ c = 'X') := by
  by_cases hascii : c.toNat < 128
  · exact ascii_forall (P := fun c => (Text.small c = '-' ↔ c = '-') ∧
      (Text.small c = '0' ↔ c = '0') ∧ (Text.small c = 'x' ↔ c = 'x' ∨ c = 'X')) (by decide) hascii
  · obtain ⟨hminus, hzero, hx, hcapital⟩ : c ≠ '-' ∧ c ≠ '0' ∧ c ≠ 'x' ∧ c ≠ 'X' := by
      refine ⟨?_, ?_, ?_, ?_⟩ <;> rintro rfl <;> exact hascii (by decide)
    rcases small_beyond hascii with h | h <;> simp [h, hminus, hzero, hx, hcapital]

theorem beginsWith_mark_iff {text : List Char} : beginsWith (Text.lower text) ['0', 'x'] = true ↔
    ∃ letter rest, (letter = 'x' ∨ letter = 'X') ∧ text = '0' :: letter :: rest := by
  rw [beginsWith, List.isPrefixOf_iff_prefix]
  constructor
  · rintro ⟨rest, hrest⟩
    obtain ⟨zero, more, rfl, hzero, hmore⟩ := List.map_eq_cons_iff.1 hrest.symm
    obtain ⟨letter, rest, rfl, hletter, -⟩ := List.map_eq_cons_iff.1 hmore
    exact ⟨letter, rest, small_eq_iff.2.2.1 hletter, by rw [small_eq_iff.2.1.1 hzero]⟩
  · rintro ⟨letter, rest, hletter, rfl⟩
    refine ⟨Text.lower rest, ?_⟩
    show _ = Text.small '0' :: Text.small letter :: Text.lower rest
    rw [small_eq_iff.2.2.2 hletter]
    rfl

/-- Behind a sign that is no plus, the mark decides in which base a number is read. -/
theorem marked_iff {base : Nat} {sign number : List Char} {unit : Int} {n : Nat}
    (hsign : Sign sign unit) (hread : Text.numeral? base (number.map asciiDigit) = some n) :
    beginsWith ((Text.lower (sign ++ number)).dropWhile (· = '-')) ['0', 'x'] = true ↔
      sign ≠ ['+'] ∧ ∃ letter rest, (letter = 'x' ∨ letter = 'X') ∧ number = '0' :: letter :: rest := by
  have hunsigned : (Text.lower number).dropWhile (· = '-') = Text.lower number := by
    refine dropWhile_of_startsOutside fun c hc => decide_eq_false ?_
    rintro rfl
    obtain ⟨more, hmore⟩ := List.head?_eq_some_iff.1 hc
    obtain ⟨c, rest, rfl, hminus, -⟩ := List.map_eq_cons_iff.1 hmore
    rw [small_eq_iff.1.1 hminus, List.map_cons] at hread
    rw [show asciiDigit '-' = '-' from rfl, Text.numeral?_sign (.inl rfl)] at hread
    cases hread
  rw [← beginsWith_mark_iff]
  cases hsign with
  | none => simp [hunsigned]
  | plus => simp [Text.lower, show Text.small '+' = '+' from rfl, beginsWith]
  | minus =>
    have hcons : Text.lower (['-'] ++ number) = '-' :: Text.lower number := rfl
    rw [hcons, List.dropWhile_cons_of_pos rfl, hunsigned]
    simp

theorem numeral?_zero_of_mark {letter : Char} (hletter : letter = 'x' ∨ letter = 'X')
    (rest : List Char) : Text.numeral? 0 (('0' :: letter :: rest).map asciiDigit) =
      Text.numeral?.marked 16 (rest.map asciiDigit) := by
  rcases hletter with rfl | rfl <;> rfl

theorem lenientInt?_eq_some_iff {text : List Char} {i : Int} :
    lenientInt? text = some i ↔ LenientInt text i := by
  have hbare := bare_strip text
  simp only [lenientInt?]
  constructor
  · intro h
    split at h
    · rename_i hmarked
      obtain ⟨sign, unit, number, n, hsign, hread, htext, rfl⟩ :=
        (Text.integer?_eq_some_iff hbare).1 h
      rw [htext, marked_iff hsign hread] at hmarked
      obtain ⟨hplus, letter, rest, hletter, rfl⟩ := hmarked
      rw [numeral?_zero_of_mark hletter, Text.marked_eq_some_iff '0' hletter] at hread
      exact .marked hsign hplus hread htext
    · exact .decimal ((Text.integer?_ten hbare).1 h)
  · intro h
    cases h with
    | decimal h =>
      obtain ⟨sign, unit, number, n, hsign, ⟨digits, hdigits, hcount, hn⟩, htext, hi⟩ := h
      have hread : Text.numeral? 10 (number.map asciiDigit) = some n :=
        Text.plain_eq_some_iff.2 ⟨digits, hdigits, hcount, hn⟩
      rw [htext] at hbare ⊢
      rw [if_neg, hi]
      · exact Text.integer?_of_sign hbare hsign hread
      · rw [marked_iff hsign hread]
        rintro ⟨-, letter, rest, hletter, rfl⟩
        exact hdigits.unmarked hletter
    | @marked sign number unit n hsign hplus hnumber htext =>
      obtain ⟨letter, rest, hletter, rfl⟩ := hnumber.eq_cons
      have hread : Text.numeral? 0 (('0' :: letter :: rest).map asciiDigit) = some n := by
        rw [numeral?_zero_of_mark hletter]
        exact (Text.marked_eq_some_iff '0' hletter).2 hnumber
      rw [htext] at hbare ⊢
      rw [if_pos ((marked_iff hsign hread).2 ⟨hplus, letter, rest, hletter, rfl⟩)]
      exact Text.integer?_of_sign hbare hsign hread

/-- A text spells one integer at most. -/
theorem LenientInt.unique {text : List Char} {i j : Int} (h : LenientInt text i)
    (h' : LenientInt text j) : i = j :=
  Option.some.inj ((lenientInt?_eq_some_iff.2 h).symm.trans (lenientInt?_eq_some_iff.2 h'))

/-! ## Strict reading -/

/-- The integers that a text spells in strict reading: hexadecimal ones with any sign. -/
def StrictInt (text : List Char) (i : Int) : Prop := Signed HexNumeral (Text.strip text) i

theorem StrictInt.unique {text : List Char} {i j : Int} (h : StrictInt text i)
    (h' : StrictInt text j) : i = j := by
  have hread := Text.integer?_sixteen (bare_strip text) (i := i)
  have hread' := Text.integer?_sixteen (bare_strip text) (i := j)
  exact Option.some.inj ((hread.2 h).symm.trans (hread'.2 h'))

/-- What strict reading takes an integer in text for. -/
def taken (signed : Bool) (h : Int) : Int :=
  if signed ∧ twoTo 255 ≤ h then h - twoTo 256 else h

theorem strictInt?_eq_some_iff {signed : Bool} {text : List Char} {i : Int} :
    strictInt? signed text = some i ↔ ∃ h, StrictInt text h ∧ i = taken signed h := by
  simp only [strictInt?, Option.bind_eq_bind, Option.bind_eq_some_iff,
    Text.integer?_sixteen (bare_strip text)]
  exact exists_congr fun h => and_congr_right fun _ => ⟨fun heq => (Option.some.inj heq).symm,
    fun heq => congrArg some heq.symm⟩

end ContractHost.Abi
