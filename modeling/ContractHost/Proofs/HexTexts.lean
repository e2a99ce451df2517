import ContractHost.Proofs.Abi.Spelling

/-!
# Hexadecimal texts

A text spells a string of bytes if it has the digits of the bytes, in either case and with or without a
mark. The bytes of a fixed number are read from exactly these texts, and the texts that are checked to be
an address are exactly those that spell one.

* `FixedBytes.SpelledBy`: the texts of a byte string.
* `ofHex_eq_ok_iff`: what is read.
* `isDigits_iff`: what is an address.
-/

namespace ContractHost

namespace Hex

/-- A character is a digit if its small form is one of the sixteen that are written. -/
theorem digit_cases (c : Char) :
    (∃ n : Fin 16, digitValue? c = some n.val ∧ c.toLower = digit n) ∨
      digitValue? c = none ∧ ∀ n : Fin 16, c.toLower ≠ digit n := by
  by_cases hascii : c.toNat < 128
  · exact Abi.ascii_forall (P := fun c =>
      (∃ n : Fin 16, digitValue? c = some n.val ∧ c.toLower = digit n) ∨
        digitValue? c = none ∧ ∀ n : Fin 16, c.toLower ≠ digit n) (by decide +kernel) hascii
  · have hbeyond : ∀ d : Char, d.toNat < 128 → ¬c ≤ d := fun d hd hle =>
      hascii (Nat.lt_of_le_of_lt hle hd)
    have hlower : c.toLower = c := dif_neg fun hcapital => by
      have hlast : c.toNat ≤ 90 := hcapital.2
      omega
    refine .inr ⟨?_, fun n hn => ?_⟩
    · simp [digitValue?, hbeyond '9' (by decide), hbeyond 'f' (by decide), hbeyond 'F' (by decide)]
    · rw [hlower] at hn
      exact hascii (hn ▸ digit_ascii n n.isLt)

theorem digit_inj {m n : Fin 16} : digit m = digit n ↔ m = n := by
  revert m n
  decide

theorem digitValue?_eq_some_iff {c : Char} {n : Nat} :
    digitValue? c = some n ↔ n < 16 ∧ c.toLower = digit n := by
  rcases digit_cases c with ⟨m, hvalue, hdigit⟩ | ⟨hnone, hno⟩
  · rw [hvalue, hdigit, Option.some.injEq]
    constructor
    · rintro rfl
      exact ⟨m.isLt, rfl⟩
    · rintro ⟨hn, heq⟩
      exact congrArg Fin.val (digit_inj (n := ⟨n, hn⟩).1 heq)
  · rw [hnone]
    exact ⟨nofun, fun ⟨hn, heq⟩ => absurd heq (hno ⟨n, hn⟩)⟩

theorem digits_cons (byte : UInt8) (bytes : Bytes) :
    digits (byte :: bytes) =
      digit (byte.toNat / 16) :: digit (byte.toNat % 16) :: digits bytes := rfl

/-- The bytes are told by the small forms of the digits. -/
theorem ofPairs?_eq_some_iff {text : List Char} {bytes : Bytes} :
    ofPairs? text = some bytes ↔ text.map Char.toLower = digits bytes := by
  induction text using ofPairs?.induct generalizing bytes with
  | case1 =>
    cases bytes with
    | nil => exact iff_of_true rfl rfl
    | cons byte bytes => simp [ofPairs?, digits_cons]
  | case2 c =>
    cases bytes with
    | nil => simp [ofPairs?, digits]
    | cons byte bytes => simp [ofPairs?, digits_cons]
  | case3 high low rest ih =>
    cases bytes with
    | nil => simp [ofPairs?, digits, Option.bind_eq_some_iff]
    | cons byte bytes =>
      have hbyte := byte.toNat_lt
      rw [digits_cons, List.map_cons, List.map_cons, List.cons.injEq, List.cons.injEq, ← ih, ofPairs?]
      simp only [bind, Option.bind_eq_some_iff, digitValue?_eq_some_iff]
      constructor
      · rintro ⟨h, ⟨hlt, hhigh⟩, l, ⟨hlt', hlow⟩, more, hmore, hsome⟩
        obtain ⟨hfirst, rfl⟩ := List.cons.inj (Option.some.inj hsome)
        have hvalue : byte.toNat = 16 * h + l := by
          rw [← hfirst, UInt8.toNat_ofNat']
          omega
        have hdiv : byte.toNat / 16 = h := by omega
        have hmod : byte.toNat % 16 = l := by omega
        exact ⟨hdiv ▸ hhigh, hmod ▸ hlow, hmore⟩
      · rintro ⟨hhigh, hlow, hmore⟩
        refine ⟨_, ⟨by omega, hhigh⟩, _, ⟨by omega, hlow⟩, bytes, hmore, ?_⟩
        rw [Nat.div_add_mod, UInt8.ofNat_toNat]
        rfl

theorem isSome_of_mem {text : List Char} {bytes : Bytes} (h : text.map Char.toLower = digits bytes)
    {c : Char} (hc : c ∈ text) : (digitValue? c).isSome = true := by
  obtain ⟨n, hn⟩ := exists_of_mem_digits (h ▸ List.mem_map_of_mem hc : c.toLower ∈ digits bytes)
  rw [digitValue?_eq_some_iff.2 ⟨n.isLt, hn⟩]
  rfl

theorem ascii_of_isSome {c : Char} (h : (digitValue? c).isSome = true) : c.toNat < 128 := by
  unfold digitValue? at h
  split at h
  · rename_i hdigit
    exact Nat.lt_of_le_of_lt hdigit.2 (by decide)
  · split at h
    · rename_i hdigit
      exact Nat.lt_of_le_of_lt hdigit.2 (by decide)
    · split at h
      · rename_i hdigit
        exact Nat.lt_of_le_of_lt hdigit.2 (by decide)
      · cases h

/-- So many pairs of digits spell so many bytes. -/
theorem exists_ofPairs? {text : List Char} {count : Nat} (hlength : text.length = 2 * count)
    (h : ∀ c ∈ text, (digitValue? c).isSome = true) :
    ∃ bytes, ofPairs? text = some bytes ∧ bytes.length = count := by
  induction count generalizing text with
  | zero =>
    obtain rfl := List.length_eq_zero_iff.1 hlength
    exact ⟨[], rfl, rfl⟩
  | succ count ih =>
    match text, hlength with
    | high :: low :: rest, hlength =>
      obtain ⟨hhigh, hmore⟩ := List.forall_mem_cons.1 h
      obtain ⟨hlow, hrest⟩ := List.forall_mem_cons.1 hmore
      simp only [List.length_cons] at hlength
      obtain ⟨bytes, hbytes, hcount⟩ := ih (by omega) hrest
      obtain ⟨m, hm⟩ := Option.isSome_iff_exists.1 hhigh
      obtain ⟨n, hn⟩ := Option.isSome_iff_exists.1 hlow
      exact ⟨UInt8.ofNat (16 * m + n) :: bytes, by simp [ofPairs?, hm, hn, hbytes], by simp [hcount]⟩

end Hex

namespace FixedBytes

variable {width : Width}

/-- A text with the digits of a byte string, in either case and with or without a mark. -/
def SpelledBy (b : FixedBytes width) (text : Text) : Prop :=
  (Hex.withoutMark text.chars).map Char.toLower = Hex.digits b.bytes

instance (b : FixedBytes width) (text : Text) : Decidable (b.SpelledBy text) :=
  inferInstanceAs (Decidable (_ = _))

theorem ofHex_eq_ok_iff {text : Text} {b : FixedBytes width} :
    ofHex text = .ok b ↔ b.SpelledBy text := by
  rw [ofHex, Hex.decode, Hex.decodeChars, SpelledBy, ← Hex.ofPairs?_eq_some_iff]
  constructor
  · intro h
    split at h
    · rename_i bytes hdecode
      split at hdecode
      · split at hdecode
        · rename_i found hpairs
          cases hdecode
          unfold ofBytes at h
          split at h
          · cases h
            exact hpairs
          · cases h
        · cases hdecode
      · cases hdecode
    · cases h
  · intro h
    have hascii : (Hex.withoutMark text.chars).all (fun c => c.toNat < 128) = true :=
      List.all_eq_true.2 fun c hc => decide_eq_true
        (Hex.ascii_of_isSome (Hex.isSome_of_mem (Hex.ofPairs?_eq_some_iff.1 h) hc))
    simp only [hascii, h, if_true, ofBytes_bytes]

/-- The texts that are checked to be bytes of a width spell some. -/
theorem isDigits_iff {text : Text} :
    Hex.isDigits (2 * width.size) text.chars = true ↔ ∃ b : FixedBytes width, b.SpelledBy text := by
  rw [Hex.isDigits, Bool.and_eq_true, beq_iff_eq, List.all_eq_true]
  constructor
  · rintro ⟨hlength, hdigits⟩
    obtain ⟨bytes, hbytes, hcount⟩ := Hex.exists_ofPairs? hlength hdigits
    exact ⟨⟨bytes, hcount⟩, Hex.ofPairs?_eq_some_iff.1 hbytes⟩
  · rintro ⟨b, hb⟩
    refine ⟨?_, fun c hc => Hex.isSome_of_mem hb hc⟩
    have hlength := congrArg List.length hb
    rwa [List.length_map, Hex.length_digits, b.length_bytes] at hlength

end FixedBytes

end ContractHost
