import ContractHost.Decimal.Binary64
import ContractHost.Text.Integer

/-!
# Numbers that have a text

A number has a text if it has at most 4300 digits. Readers of numerals stop at so many digits, and the
whole part of a number of double precision has far fewer.

* `hasText_of_digits`: a number that so many digits spell.
* `Text.hasText_integer?`: an integer literal.
* `Binary64.small_ofDecimal`, `Binary64.hasText_truncate?`: what a decimal fraction is rounded to, and
  the integer that this is cut to.
-/

namespace ContractHost

/-! ## Digits -/

theorem Decimal.length_le_iff {n count : Nat} (hcount : 0 < count) :
    length n ≤ count ↔ n < tenTo count :=
  Nat.length_toDigits_le_iff (by decide) hcount

/-- A number has a text if it is below the least number of 4301 digits. -/
theorem Decimal.hasText_iff {n : Int} : hasText n = true ↔ n.natAbs < tenTo 4300 := by
  have hpositive : 0 < 4300 := by decide
  rw [← length_le_iff hpositive]
  exact decide_eq_true_iff

theorem Decimal.hasText_of_lt {n : Int} {count : Nat} (hcount : count ≤ 4300)
    (h : n.natAbs < tenTo count) : hasText n = true := by
  rw [hasText_iff]
  generalize 4300 = most at hcount ⊢
  have hle : tenTo count ≤ tenTo most := Nat.pow_le_pow_right (by decide) hcount
  omega

/-- So many digits spell a number below so high a power of ten. -/
theorem foldl_digits_lt {digits : List Nat} (h : ∀ d ∈ digits, d < 10) {start n : Nat}
    (hstart : start < tenTo n) :
    digits.foldl (fun n d => n * 10 + d) start < tenTo (n + digits.length) := by
  induction digits generalizing start n with
  | nil => exact hstart
  | cons d rest ih =>
    have hd : d < 10 := h d List.mem_cons_self
    have hnext : start * 10 + d < tenTo (n + 1) := by
      rw [tenTo_succ]
      omega
    have hrest := ih (fun d' hd' => h d' (List.mem_cons_of_mem d hd')) hnext
    rw [List.length_cons, show n + (rest.length + 1) = n + 1 + rest.length by omega]
    exact hrest

theorem hasText_of_digits {digits : List Nat} (h : ∀ d ∈ digits, d < 10)
    (hcount : digits.length ≤ 4300) {n : Int}
    (hn : n.natAbs = digits.foldl (fun n d => n * 10 + d) 0) : Decimal.hasText n = true := by
  have hlt : digits.foldl (fun n d => n * 10 + d) 0 < tenTo (0 + digits.length) :=
    foldl_digits_lt h (by decide)
  rw [Nat.zero_add] at hlt
  exact Decimal.hasText_of_lt hcount (hn ▸ hlt)

/-! ## Integer literals -/

namespace Text

theorem lt_of_digitIn? {base : Nat} {c : Char} {n : Nat} (h : digitIn? base c = some n) :
    n < base := by
  obtain ⟨-, hlt⟩ := Option.filter_eq_some_iff.1 h
  exact of_decide_eq_true hlt

theorem lt_of_numeralDigits? {base : Nat} {text : List Char} {digits : List Nat}
    (h : numeralDigits? base text = some digits) : ∀ d ∈ digits, d < base := by
  induction text using numeralDigits?.induct generalizing digits with
  | case1 => cases h
  | case2 c =>
    obtain ⟨n, hn, rfl⟩ := Option.map_eq_some_iff.1 h
    intro d hd
    rw [List.mem_singleton.1 hd]
    exact lt_of_digitIn? hn
  | case3 c rest ih =>
    rw [numeralDigits?] at h
    obtain ⟨n, hn, hrest⟩ := Option.bind_eq_some_iff.1 h
    obtain ⟨more, hmore, heq⟩ := Option.bind_eq_some_iff.1 hrest
    cases heq
    intro d hd
    rcases List.mem_cons.1 hd with rfl | hd
    · exact lt_of_digitIn? hn
    · exact ih hmore d hd
  | case4 c rest hone hunderscore ih =>
    rw [numeralDigits?] at h
    · obtain ⟨n, hn, hrest⟩ := Option.bind_eq_some_iff.1 h
      obtain ⟨more, hmore, heq⟩ := Option.bind_eq_some_iff.1 hrest
      cases heq
      intro d hd
      rcases List.mem_cons.1 hd with rfl | hd
      · exact lt_of_digitIn? hn
      · exact ih hmore d hd
    · exact hone
    · exact hunderscore

theorem hasText_numeral? {text : List Char} {k : Nat} (h : numeral? 10 text = some k) :
    Decimal.hasText k = true ∧ Decimal.hasText (-k) = true := by
  obtain ⟨digits, hdigits, hk⟩ := Option.bind_eq_some_iff.1
    (show numeral?.plain 10 text = some k from h)
  have hlt := lt_of_numeralDigits? hdigits
  split at hk
  · cases hk
  · rename_i hcount
    have hcount : digits.length ≤ 4300 := by
      have hle : ¬ maxDecimalDigits < digits.length := fun hmany => hcount ⟨rfl, hmany⟩
      exact Nat.le_of_not_lt hle
    cases hk
    exact ⟨hasText_of_digits hlt hcount (Int.natAbs_natCast _),
      hasText_of_digits hlt hcount ((Int.natAbs_neg _).trans (Int.natAbs_natCast _))⟩

theorem hasText_integer? {text : List Char} {n : Int} (h : integer? 10 text = some n) :
    Decimal.hasText n = true := by
  unfold integer? at h
  split at h
  all_goals
    obtain ⟨i, hi, rfl⟩ := Option.map_eq_some_iff.1 h
    obtain ⟨k, hk, heq⟩ := Option.bind_eq_some_iff.1 hi
    cases heq
  · exact (hasText_numeral? hk).2
  · exact (hasText_numeral? hk).1
  · exact (hasText_numeral? hk).1

end Text

/-! ## Numbers of double precision -/

namespace Binary64

theorem roundDiv_le (num den : Nat) : roundDiv num den ≤ num / den + 1 := by
  simp only [roundDiv]
  split
  · omega
  · split
    · omega
    · split <;> omega

/-- From one below the guess on, an exponent leaves a mantissa of few bits. -/
theorem scaled_lt {num den : Nat} (hden : den ≠ 0) {exponent : Int}
    (h : (Nat.log2 num : Int) - Nat.log2 den - 53 ≤ exponent) :
    (scaled num den exponent).1 < twoTo 54 * (scaled num den exponent).2 := by
  have hnum : num < twoTo (num.log2 + 1) := Nat.lt_log2_self
  have hden : twoTo den.log2 ≤ den := Nat.log2_self_le hden
  unfold scaled
  split
  · rename_i hexponent
    have hbits : num.log2 + 1 ≤ 54 + (den.log2 + exponent.toNat) := by omega
    calc num
      _ < twoTo (num.log2 + 1) := hnum
      _ ≤ twoTo (54 + (den.log2 + exponent.toNat)) := Nat.pow_le_pow_right (by decide) hbits
      _ = twoTo 54 * (twoTo den.log2 * twoTo exponent.toNat) := by rw [twoTo_add, twoTo_add]
      _ ≤ twoTo 54 * (den * twoTo exponent.toNat) :=
        Nat.mul_le_mul_left _ (Nat.mul_le_mul_right _ hden)
  · rename_i hexponent
    have hbits : num.log2 + 1 + (-exponent).toNat ≤ 54 + den.log2 := by omega
    calc num * twoTo (-exponent).toNat
      _ < twoTo (num.log2 + 1) * twoTo (-exponent).toNat :=
        Nat.mul_lt_mul_of_pos_right hnum (twoTo_pos _)
      _ = twoTo (num.log2 + 1 + (-exponent).toNat) := (twoTo_add ..).symm
      _ ≤ twoTo (54 + den.log2) := Nat.pow_le_pow_right (by decide) hbits
      _ = twoTo 54 * twoTo den.log2 := twoTo_add ..
      _ ≤ twoTo 54 * den := Nat.mul_le_mul_left _ hden

/-- A finite number whose mantissa and exponent are in range, with some room. -/
def Small : Binary64 → Prop
  | .finite _ mantissa exponent => mantissa ≤ twoTo 54 ∧ exponent ≤ greatestExponent
  | _ => True

theorem small_zero (negative : Bool) : (zero negative).Small :=
  ⟨Nat.zero_le _, by decide⟩

theorem small_ofQuotient {den : Nat} (hden : den ≠ 0) (negative : Bool) (num : Nat) :
    (ofQuotient negative num den).Small := by
  simp only [ofQuotient]
  generalize hguess : (Nat.log2 num : Int) - Nat.log2 den - 52 = guess
  generalize hexponent : max leastExponent _ = exponent
  have hlow : guess - 1 ≤ exponent := by
    rw [← hexponent]
    split <;> omega
  have hscaled : (scaled num den exponent).1 < twoTo 54 * (scaled num den exponent).2 :=
    scaled_lt hden (by omega)
  generalize (scaled num den exponent).1 = n at hscaled ⊢
  generalize (scaled num den exponent).2 = d at hscaled ⊢
  have hquotient : n / d < twoTo 54 := Nat.div_lt_of_lt_mul (Nat.mul_comm d _ ▸ hscaled)
  have hmantissa : roundDiv n d ≤ twoTo 54 := by
    have hround := roundDiv_le n d
    omega
  split
  · split
    · trivial
    · rename_i hsmall
      have htop : twoTo 52 ≤ twoTo 54 := by decide
      exact ⟨htop, by omega⟩
  · split
    · trivial
    · rename_i hsmall
      exact ⟨hmantissa, by omega⟩

theorem small_ofDecimal (negative : Bool) (digits : Nat) (exponent : Int) :
    (ofDecimal negative digits exponent).Small := by
  have hzero : (zero negative).Small := small_zero negative
  simp only [ofDecimal]
  split
  · exact hzero
  split
  · trivial
  split
  · exact hzero
  split
  · exact small_ofQuotient (by decide) negative _
  · exact small_ofQuotient (Nat.ne_of_gt (tenTo_pos _)) negative _

theorem wholePart_le {mantissa : Nat} {exponent : Int} (hmantissa : mantissa ≤ twoTo 54)
    (hexponent : exponent ≤ greatestExponent) :
    wholePart mantissa exponent ≤ twoTo (54 + greatestExponent.toNat) := by
  have hle : exponent.toNat ≤ greatestExponent.toNat := by omega
  generalize greatestExponent.toNat = most at hle ⊢
  rw [twoTo_add]
  unfold wholePart
  split
  · exact Nat.mul_le_mul hmantissa (Nat.pow_le_pow_right (by decide) hle)
  · calc mantissa / twoTo (-exponent).toNat
      _ ≤ mantissa := Nat.div_le_self ..
      _ ≤ twoTo 54 := hmantissa
      _ ≤ twoTo 54 * twoTo most :=
        Nat.le_mul_of_pos_right _ (twoTo_pos _)

/-- The integer that a number of double precision is cut to has a text. -/
theorem hasText_truncate? {x : Binary64} (small : x.Small) {n : Int} (h : x.truncate? = some n) :
    Decimal.hasText n = true := by
  cases x with
  | nan => cases h
  | infinite negative => cases h
  | finite negative mantissa exponent =>
    obtain ⟨count, hcount, hbound⟩ : ∃ count, count + 1 ≤ 4300 ∧
        wholePart mantissa exponent ≤ twoTo count := ⟨_, by decide, wholePart_le small.1 small.2⟩
    have habs : n.natAbs = wholePart mantissa exponent := by
      cases h
      cases negative
      · exact Int.natAbs_natCast _
      · exact (Int.natAbs_neg _).trans (Int.natAbs_natCast _)
    rw [← habs] at hbound
    refine Decimal.hasText_of_lt hcount ?_
    calc n.natAbs
      _ ≤ twoTo count := hbound
      _ < twoTo (count + 1) := Nat.pow_lt_pow_succ (by decide)
      _ ≤ tenTo (count + 1) := Nat.pow_le_pow_left (by decide) _

end Binary64

end ContractHost
