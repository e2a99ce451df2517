import ContractHost.Proofs.Abi.Items
import Mathlib.Data.Nat.Digits.Defs

/-!
# The grammar of integer literals

What an integer literal is, said without a reader: a sign, a mark of base sixteen, and digits with single
underscores between them. Readers take the literals of the grammar, all of them and for their numbers.

* `Numeral`, `MarkedNumeral`, `HexNumeral`: numbers in digits, without a sign.
* `Signed`: numbers behind a sign.
* `integer?_ten`, `integer?_sixteen`: what is read in base ten, and in base sixteen.
-/

namespace ContractHost.Text

/-! ## Digits -/

/-- A digit of a base, of any script, and its value. -/
def IsDigit (base : Nat) (c : Char) (d : Nat) : Prop := digitIn? base (asciiDigit c) = some d

/-- Digits of a base with single underscores between them, and the values of the digits. -/
inductive Digits (base : Nat) : List Char → List Nat → Prop
  | one {c : Char} {d : Nat} (h : IsDigit base c d) : Digits base [c] [d]
  | next {c : Char} {d : Nat} {text : List Char} {digits : List Nat} (h : IsDigit base c d)
    (hrest : Digits base text digits) : Digits base (c :: text) (d :: digits)
  | underscore {c : Char} {d : Nat} {text : List Char} {digits : List Nat} (h : IsDigit base c d)
    (hrest : Digits base text digits) : Digits base (c :: '_' :: text) (d :: digits)

theorem decimalValue?_lt {c : Char} {n : Nat} (h : decimalValue? c = some n) : n < 10 := by
  obtain ⟨first, hfirst, rfl⟩ := Option.map_eq_some_iff.1 h
  have hrange := List.find?_some hfirst
  simp only [Bool.and_eq_true, decide_eq_true_eq] at hrange
  omega

/-- Of the ASCII characters, only digits stand for digits of other scripts. -/
theorem asciiDigit_eq_iff {c d : Char} (hascii : d.toNat < 0x80) (hdigit : d.isDigit = false) :
    asciiDigit c = d ↔ c = d := by
  unfold asciiDigit
  split
  · rfl
  · rename_i hbeyond
    have hne : c ≠ d := by
      rintro rfl
      exact hbeyond hascii
    refine ⟨fun h => ?_, fun h => absurd h hne⟩
    split at h
    · rename_i n hn
      have hall : ∀ n < 10, (Char.ofNat (48 + n)).isDigit = true := by decide
      rw [← h, hall n (decimalValue?_lt hn)] at hdigit
      cases hdigit
    · exact h

/-- The characters of signs and marks are no digits. -/
theorem not_isDigit {base d : Nat} {c : Char} (hc : c ∈ ['_', '-', '+', 'x', 'X']) :
    ¬ IsDigit base c d := by
  have hnone : Hex.digitValue? (asciiDigit c) = none := by
    simp only [List.mem_cons, List.not_mem_nil, or_false] at hc
    rcases hc with rfl | rfl | rfl | rfl | rfl <;> rfl
  rw [IsDigit, digitIn?, hnone]
  exact nofun

theorem Digits.head {base : Nat} {text : List Char} {digits : List Nat} (h : Digits base text digits) :
    ∃ c rest d, text = c :: rest ∧ IsDigit base c d := by
  cases h with
  | one h | next h _ | underscore h _ => exact ⟨_, _, _, rfl, h⟩

theorem Digits.ne_of_head {base : Nat} {c : Char} {rest : List Char} {digits : List Nat}
    (h : Digits base (c :: rest) digits) : c ∉ ['_', '-', '+', 'x', 'X'] := by
  obtain ⟨_, _, d, heq, hdigit⟩ := h.head
  cases heq
  exact fun hc => not_isDigit hc hdigit

/-- A digit is not followed by the letter of a mark. -/
theorem Digits.unmarked {base : Nat} {c letter : Char} {rest : List Char} {digits : List Nat}
    (h : Digits base (c :: letter :: rest) digits) : ¬(letter = 'x' ∨ letter = 'X') := by
  rintro hletter
  cases h with
  | next _ hrest => exact hrest.ne_of_head (by rcases hletter with rfl | rfl <;> decide)
  | underscore => rcases hletter with h | h <;> cases h

/-- Decimal digits spell their values. -/
theorem isDigit_ten {c : Char} (h : c.isDigit = true) : IsDigit 10 c (Decimal.digitValue c) := by
  obtain ⟨hlow, hhigh⟩ : '0' ≤ c ∧ c ≤ '9' := by
    simpa [Char.isDigit, Char.le_def, ge_iff_le, UInt32.le_iff_toNat_le] using h
  have hnine : c.toNat ≤ 57 := hhigh
  have hascii : asciiDigit c = c := if_pos (show c.toNat < 0x80 by omega)
  have hvalue : Hex.digitValue? c = some (Decimal.digitValue c) := if_pos ⟨hlow, hhigh⟩
  have hsmall : Decimal.digitValue c < 10 := by
    show c.toNat - 48 < 10
    omega
  rw [IsDigit, hascii, digitIn?, hvalue, Option.filter_some, if_pos (by simpa using hsmall)]

theorem digits_ten {text : List Char} (hsome : text ≠ []) (h : ∀ c ∈ text, c.isDigit = true) :
    Digits 10 text (text.map Decimal.digitValue) := by
  induction text with
  | nil => exact absurd rfl hsome
  | cons c rest ih =>
    obtain ⟨hc, hrest⟩ := List.forall_mem_cons.1 h
    cases rest with
    | nil => exact .one (isDigit_ten hc)
    | cons next rest => exact .next (isDigit_ten hc) (ih (List.cons_ne_nil next rest) hrest)

/-- The digits that are read are those of the grammar. -/
theorem numeralDigits?_eq_some_iff {base : Nat} {text : List Char} {digits : List Nat} :
    numeralDigits? base (text.map asciiDigit) = some digits ↔ Digits base text digits := by
  induction text using numeralDigits?.induct generalizing digits with
  | case1 => exact ⟨nofun, fun h => nomatch h⟩
  | case2 c =>
    simp only [List.map_cons, List.map_nil, numeralDigits?, Option.map_eq_some_iff]
    constructor
    · rintro ⟨d, hd, rfl⟩
      exact .one hd
    · intro h
      cases h with
      | one h => exact ⟨_, h, rfl⟩
      | next _ hrest => cases hrest
  | case3 c rest ih =>
    have hmap : ('_' :: rest).map asciiDigit = '_' :: rest.map asciiDigit := rfl
    rw [List.map_cons, hmap, numeralDigits?]
    simp only [Option.bind_eq_bind, Option.bind_eq_some_iff, ih]
    constructor
    · rintro ⟨d, hd, more, hmore, heq⟩
      cases heq
      exact .underscore hd hmore
    · intro h
      cases h with
      | next _ hrest => exact absurd (by decide) hrest.ne_of_head
      | underscore h hrest => exact ⟨_, h, _, hrest, rfl⟩
  | case4 c rest hone hunderscore ih =>
    have hone' : rest.map asciiDigit ≠ [] := fun h => hone (List.map_eq_nil_iff.1 h)
    have hunderscore' : ∀ more, rest.map asciiDigit ≠ '_' :: more := by
      intro more h
      obtain ⟨next, rest', rfl, hnext, -⟩ := List.map_eq_cons_iff.1 h
      rw [(asciiDigit_eq_iff (by decide) (by decide)).1 hnext] at hunderscore
      exact hunderscore _ rfl
    rw [List.map_cons, numeralDigits?]
    · simp only [Option.bind_eq_bind, Option.bind_eq_some_iff, ih]
      constructor
      · rintro ⟨d, hd, more, hmore, heq⟩
        cases heq
        exact .next hd hmore
      · intro h
        cases h with
        | one => exact absurd rfl hone
        | next h hrest => exact ⟨_, h, _, hrest, rfl⟩
        | underscore => exact absurd rfl (hunderscore _)
    · exact hone'
    · exact hunderscore'

/-! ## Numbers -/

/-- A number in digits of a base. Decimal digits are limited in number. -/
def Numeral (base : Nat) (text : List Char) (n : Nat) : Prop :=
  ∃ digits, Digits base text digits ∧ (base = 10 → digits.length ≤ 4300) ∧
    n = Nat.ofDigits base digits.reverse

/-- The mark of base sixteen, given its zero, with an underscore that may stand behind it. -/
inductive Mark (zero : Char) : List Char → Prop
  | bare {letter : Char} (h : letter = 'x' ∨ letter = 'X') : Mark zero [zero, letter]
  | underscore {letter : Char} (h : letter = 'x' ∨ letter = 'X') : Mark zero [zero, letter, '_']

/-- A number in base sixteen with its mark. -/
def MarkedNumeral (zero : Char) (text : List Char) (n : Nat) : Prop :=
  ∃ mark digits, Mark zero mark ∧ Numeral 16 digits n ∧ text = mark ++ digits

/-- A number in base sixteen, with or without a mark. The zero of the mark may be of any script. -/
def HexNumeral (text : List Char) (n : Nat) : Prop :=
  Numeral 16 text n ∨ ∃ zero, IsDigit 10 zero 0 ∧ MarkedNumeral zero text n

theorem ofDigitValues_eq (base : Nat) (digits : List Nat) :
    ofDigitValues base digits = Nat.ofDigits base digits.reverse := by
  rw [ofDigitValues, Nat.ofDigits_eq_foldr, List.foldr_reverse]
  congr
  funext n d
  rw [Nat.mul_comm, Nat.add_comm]
  rfl

/-- A number is spelled by its own digits. -/
theorem numeral_digits {n : Nat} (h : Decimal.length n ≤ 4300) : Numeral 10 (Decimal.digits n) n := by
  refine ⟨_, digits_ten (Decimal.digits_ne_nil n) fun _ => Decimal.isDigit_of_mem_digits,
    fun _ => (List.length_map _).trans_le h, ?_⟩
  rw [← ofDigitValues_eq, ofDigitValues, List.foldl_map]
  exact (Decimal.ofDigits_digits n).symm

theorem plain_eq_some_iff {base : Nat} {text : List Char} {n : Nat} :
    numeral?.plain base (text.map asciiDigit) = some n ↔ Numeral base text n := by
  simp only [numeral?.plain, Option.bind_eq_bind, Option.bind_eq_some_iff, numeralDigits?_eq_some_iff,
    Numeral, ofDigitValues_eq]
  refine exists_congr fun digits => and_congr_right fun _ => ?_
  by_cases hmany : base = 10 ∧ maxDecimalDigits < digits.length
  · rw [if_pos hmany]
    exact ⟨nofun, fun h => absurd (h.1 hmany.1) (Nat.not_le.2 hmany.2)⟩
  · rw [if_neg hmany]
    refine ⟨fun h => ⟨fun hbase => ?_, (Option.some.inj h).symm⟩, fun h => congrArg some h.2.symm⟩
    exact Nat.le_of_not_lt fun hlt => hmany ⟨hbase, hlt⟩

theorem isDigit_zero_iff {c : Char} : IsDigit 10 c 0 ↔ asciiDigit c = '0' := by
  refine ⟨fun h => ?_, fun h => by rw [IsDigit, h]; rfl⟩
  obtain ⟨hvalue, -⟩ := Option.filter_eq_some_iff.1 h
  generalize asciiDigit c = c at hvalue
  unfold Hex.digitValue? at hvalue
  split at hvalue
  · rename_i hrange
    have hlow : 48 ≤ c.toNat := hrange.1
    have hzero : c.toNat - 48 = 0 := Option.some.inj hvalue
    refine Char.toNat_inj.1 ?_
    show c.toNat = 48
    omega
  · split at hvalue
    · exact absurd (Option.some.inj hvalue) (Nat.succ_ne_zero _)
    · split at hvalue
      · exact absurd (Option.some.inj hvalue) (Nat.succ_ne_zero _)
      · cases hvalue

theorem afterMark_eq {text : List Char} (h : ∀ rest, text ≠ '_' :: rest) :
    afterMark (text.map asciiDigit) = text.map asciiDigit := by
  unfold afterMark
  split
  · rename_i heq
    obtain ⟨c, rest, rfl, hc, -⟩ := List.map_eq_cons_iff.1 heq
    exact absurd (congrArg (· :: rest) ((asciiDigit_eq_iff (by decide) (by decide)).1 hc)) (h rest)
  · rfl

/-- Behind a mark, an underscore may stand before the digits. -/
theorem marked_eq_some_iff (zero : Char) {letter : Char} {rest : List Char} {n : Nat}
    (hletter : letter = 'x' ∨ letter = 'X') :
    numeral?.marked 16 (rest.map asciiDigit) = some n ↔
      MarkedNumeral zero (zero :: letter :: rest) n := by
  constructor
  · intro h
    by_cases hunderscore : ∃ more, rest = '_' :: more
    · obtain ⟨more, rfl⟩ := hunderscore
      exact ⟨_, more, .underscore hletter, plain_eq_some_iff.1 h, rfl⟩
    · have hplain := afterMark_eq fun more hmore => hunderscore ⟨more, hmore⟩
      rw [numeral?.marked, hplain] at h
      exact ⟨_, rest, .bare hletter, plain_eq_some_iff.1 h, rfl⟩
  · rintro ⟨mark, digits, hmark, hdigits, htext⟩
    cases hmark with
    | bare =>
      cases htext
      have hplain : afterMark (digits.map asciiDigit) = digits.map asciiDigit := by
        refine afterMark_eq fun more hmore => ?_
        subst hmore
        obtain ⟨_, hread, -⟩ := hdigits
        exact absurd (by decide) hread.ne_of_head
      show numeral?.plain 16 (afterMark (digits.map asciiDigit)) = some n
      rw [hplain]
      exact plain_eq_some_iff.2 hdigits
    | underscore =>
      cases htext
      exact plain_eq_some_iff.2 hdigits

theorem MarkedNumeral.eq_cons {zero : Char} {text : List Char} {n : Nat}
    (h : MarkedNumeral zero text n) :
    ∃ letter rest, (letter = 'x' ∨ letter = 'X') ∧ text = zero :: letter :: rest := by
  obtain ⟨mark, digits, hmark, -, rfl⟩ := h
  cases hmark with
  | bare hletter | underscore hletter => exact ⟨_, _, hletter, rfl⟩

theorem numeral?_of_mark {zero letter : Char} (hzero : asciiDigit zero = '0')
    (hletter : letter = 'x' ∨ letter = 'X') (rest : List Char) :
    numeral? 16 ((zero :: letter :: rest).map asciiDigit) =
      numeral?.marked 16 (rest.map asciiDigit) := by
  rw [List.map_cons, List.map_cons, hzero]
  rcases hletter with rfl | rfl <;> rfl

/-- Without a mark, the digits are read as they are. -/
theorem numeral?_of_unmarked {text : List Char}
    (h : ∀ zero letter rest, text = zero :: letter :: rest → asciiDigit zero = '0' →
      ¬(letter = 'x' ∨ letter = 'X')) :
    numeral? 16 (text.map asciiDigit) = numeral?.plain 16 (text.map asciiDigit) := by
  have hmarked {mark : Char} {rest : List Char} (hmark : mark = 'x' ∨ mark = 'X')
      (heq : text.map asciiDigit = '0' :: mark :: rest) : False := by
    obtain ⟨zero, more, rfl, hzero, hmore⟩ := List.map_eq_cons_iff.1 heq
    obtain ⟨letter, rest, rfl, hletter, -⟩ := List.map_eq_cons_iff.1 hmore
    refine h zero letter rest rfl hzero ?_
    rcases hmark with rfl | rfl
    · exact .inl ((asciiDigit_eq_iff (by decide) (by decide)).1 hletter)
    · exact .inr ((asciiDigit_eq_iff (by decide) (by decide)).1 hletter)
  unfold numeral?
  split
  · rename_i heq
    exact (hmarked (.inl rfl) heq).elim
  · rename_i heq
    exact (hmarked (.inr rfl) heq).elim
  · rename_i hbase _
    cases hbase
  · rename_i hbase _
    cases hbase
  · rfl

theorem numeral?_sixteen {text : List Char} {n : Nat} :
    numeral? 16 (text.map asciiDigit) = some n ↔ HexNumeral text n := by
  by_cases hmarked : ∃ zero letter rest, text = zero :: letter :: rest ∧ asciiDigit zero = '0' ∧
      (letter = 'x' ∨ letter = 'X')
  · obtain ⟨zero, letter, rest, rfl, hzero, hletter⟩ := hmarked
    rw [numeral?_of_mark hzero hletter, marked_eq_some_iff zero hletter]
    refine ⟨fun h => .inr ⟨zero, isDigit_zero_iff.2 hzero, h⟩, ?_⟩
    rintro (⟨digits, hdigits, -⟩ | ⟨zero', -, h⟩)
    · exact absurd hletter hdigits.unmarked
    · obtain ⟨_, _, -, heq⟩ := h.eq_cons
      cases heq
      exact h
  · have hplain := numeral?_of_unmarked fun zero letter rest htext hzero hletter =>
      hmarked ⟨zero, letter, rest, htext, hzero, hletter⟩
    rw [hplain, plain_eq_some_iff]
    refine ⟨.inl, ?_⟩
    rintro (h | ⟨zero, hzero, h⟩)
    · exact h
    · obtain ⟨letter, rest, hletter, rfl⟩ := h.eq_cons
      exact absurd ⟨zero, letter, rest, rfl, isDigit_zero_iff.1 hzero, hletter⟩ hmarked

/-! ## Signs -/

/-- What stands before a number, and what the number is multiplied by. -/
inductive Sign : List Char → Int → Prop
  | none : Sign [] 1
  | plus : Sign ['+'] 1
  | minus : Sign ['-'] (-1)

/-- An integer: a number of a class, behind a sign. -/
def Signed (IsNumber : List Char → Nat → Prop) (text : List Char) (i : Int) : Prop :=
  ∃ sign unit number n, Sign sign unit ∧ IsNumber number n ∧ text = sign ++ number ∧ i = unit * n

theorem signed_intChars {n : Int} (h : Decimal.hasText n = true) :
    Signed (Numeral 10) (Decimal.intChars n) n := by
  have hnumber := numeral_digits (of_decide_eq_true h)
  cases n with
  | ofNat n => exact ⟨[], 1, _, n, .none, hnumber, rfl, (one_mul _).symm⟩
  | negSucc n =>
    have hunit : Int.negSucc n = -1 * (n + 1 : Nat) := (neg_one_mul ((n + 1 : Nat) : Int)).symm
    exact ⟨['-'], -1, _, n + 1, .minus, hnumber, rfl, hunit⟩

/-- No number begins with a sign. -/
theorem numeral?_sign {base : Nat} {c : Char} (hc : c = '-' ∨ c = '+') (rest : List Char) :
    numeral? base (c :: rest) = none := by
  have hdigits (base : Nat) : numeral?.plain base (c :: rest) = none := by
    have hnone : digitIn? base c = none := by
      rcases hc with rfl | rfl <;> rfl
    have hread : numeralDigits? base (c :: rest) = none := by
      unfold numeralDigits?
      split
      · rfl
      all_goals
        rename_i heq
        cases heq
        rw [hnone]
        rfl
    rw [numeral?.plain, hread]
    rfl
  have hzero : c ≠ '0' := by
    rcases hc with rfl | rfl <;> decide
  unfold numeral?
  split
  · rename_i heq
    exact absurd (List.cons.inj heq).1 hzero
  · rename_i heq
    exact absurd (List.cons.inj heq).1 hzero
  · rename_i heq
    exact absurd (List.cons.inj heq).1 hzero
  · exact hdigits 10
  · exact hdigits _

theorem integer?_of_sign {base : Nat} {sign number : List Char} {unit : Int} {n : Nat}
    (hbare : Abi.Bare isIntegerBlank (sign ++ number)) (hsign : Sign sign unit)
    (h : numeral? base (number.map asciiDigit) = some n) :
    integer? base (sign ++ number) = some (unit * n) := by
  unfold integer?
  rw [hbare.trimBy]
  cases hsign with
  | none =>
    rw [one_mul, List.nil_append]
    split
    · rename_i heq
      rw [heq, numeral?_sign (.inl rfl)] at h
      cases h
    · rename_i heq
      rw [heq, numeral?_sign (.inr rfl)] at h
      cases h
    · rw [h]
      rfl
  | plus =>
    show Option.map _ (numeral? base (number.map asciiDigit) >>= _) = _
    rw [h, one_mul]
    rfl
  | minus =>
    show Option.map _ (numeral? base (number.map asciiDigit) >>= _) = _
    rw [h, neg_one_mul]
    rfl

/-- The integers that are read are those whose numbers are. -/
theorem integer?_eq_some_iff {base : Nat} {text : List Char} (hbare : Abi.Bare isIntegerBlank text)
    {i : Int} : integer? base text = some i ↔
      Signed (fun number n => numeral? base (number.map asciiDigit) = some n) text i := by
  constructor
  · intro h
    unfold integer? at h
    rw [hbare.trimBy] at h
    split at h
    all_goals
      rename_i heq
      obtain ⟨_, hread, rfl⟩ := Option.map_eq_some_iff.1 h
      obtain ⟨n, hn, heq'⟩ := Option.bind_eq_some_iff.1 hread
      cases heq'
    · obtain ⟨c, number, rfl, hc, rfl⟩ := List.map_eq_cons_iff.1 heq
      rw [(asciiDigit_eq_iff (by decide) (by decide)).1 hc]
      exact ⟨_, _, number, n, .minus, hn, rfl, (neg_one_mul _).symm⟩
    · obtain ⟨c, number, rfl, hc, rfl⟩ := List.map_eq_cons_iff.1 heq
      rw [(asciiDigit_eq_iff (by decide) (by decide)).1 hc]
      exact ⟨_, _, number, n, .plus, hn, rfl, (one_mul _).symm⟩
    · exact ⟨_, _, text, n, .none, hn, rfl, (one_mul _).symm⟩
  · rintro ⟨sign, unit, number, n, hsign, hn, rfl, rfl⟩
    exact integer?_of_sign hbare hsign hn

theorem integer?_ten {text : List Char} (hbare : Abi.Bare isIntegerBlank text) {i : Int} :
    integer? 10 text = some i ↔ Signed (Numeral 10) text i := by
  rw [integer?_eq_some_iff hbare]
  simp only [Signed, show ∀ m, numeral? 10 m = numeral?.plain 10 m from fun _ => rfl,
    plain_eq_some_iff]

theorem integer?_sixteen {text : List Char} (hbare : Abi.Bare isIntegerBlank text) {i : Int} :
    integer? 16 text = some i ↔ Signed HexNumeral text i := by
  simp only [integer?_eq_some_iff hbare, Signed, numeral?_sixteen]

end ContractHost.Text
