import ContractHost.Bytes.BigEndian
import ContractHost.Text.Basic
import ContractHost.Text.Hex

/-!
# UTF-8

A character is written on one to four bytes, as few as its number needs. Reading accepts exactly what
writing produces: no longer form of a character, no half of a pair and nothing beyond the last
character. A text with a half that stands alone cannot be written.

* `decode?_ofChars`: a text reads back from its bytes.
-/

namespace ContractHost.Utf8

/-- A byte that goes on with a character: the six bits from a position on. -/
def tailByte (n shift : Nat) : UInt8 := UInt8.ofNat (0x80 + n / twoTo shift % 64)

/-- The bytes of a character. -/
def ofChar (c : Char) : Bytes :=
  let n := c.toNat
  if n < 0x80 then [UInt8.ofNat n]
  else if n < 0x800 then [UInt8.ofNat (0xc0 + n / twoTo 6), tailByte n 0]
  else if n < 0x10000 then [UInt8.ofNat (0xe0 + n / twoTo 12), tailByte n 6, tailByte n 0]
  else [UInt8.ofNat (0xf0 + n / twoTo 18), tailByte n 12, tailByte n 6, tailByte n 0]

/-- The bytes of characters. -/
def ofChars (text : List Char) : Bytes := text.flatMap ofChar

/-- The bytes of a text, if it has no half. -/
def encode? : Text → Option Bytes
  | .plain s => some (ofChars s.toList)
  | .halved .. => none

/-- The six bits of a byte that goes on with a character. -/
def tailBits? (byte : UInt8) : Option Nat :=
  if 0x80 ≤ byte.toNat ∧ byte.toNat < 0xc0 then some (byte.toNat - 0x80) else none

/-- The character of a number within bounds that is no half. -/
def charWithin? (least most n : Nat) : Option Char :=
  if least ≤ n ∧ n ≤ most ∧ ¬ (0xd800 ≤ n ∧ n < 0xe000) then some (Char.ofNat n) else none

/-- The text that bytes spell. -/
def decode? : Bytes → Option (List Char)
  | [] => some []
  | a :: rest =>
    let n := a.toNat
    if n < 0x80 then do
      let text ← decode? rest
      return Char.ofNat n :: text
    else if n < 0xc0 then none
    else if n < 0xe0 then
      match rest with
      | b :: rest => do
        let b ← tailBits? b
        let c ← charWithin? 0x80 0x7ff ((n - 0xc0) * 64 + b)
        let text ← decode? rest
        return c :: text
      | _ => none
    else if n < 0xf0 then
      match rest with
      | b :: c :: rest => do
        let b ← tailBits? b
        let c ← tailBits? c
        let c ← charWithin? 0x800 0xffff (((n - 0xe0) * 64 + b) * 64 + c)
        let text ← decode? rest
        return c :: text
      | _ => none
    else if n < 0xf8 then
      match rest with
      | b :: c :: d :: rest => do
        let b ← tailBits? b
        let c ← tailBits? c
        let d ← tailBits? d
        let c ← charWithin? 0x10000 0x10ffff ((((n - 0xf0) * 64 + b) * 64 + c) * 64 + d)
        let text ← decode? rest
        return c :: text
      | _ => none
    else none

theorem toNat_ofNat_byte {n : Nat} (h : n < 256) : (UInt8.ofNat n).toNat = n :=
  UInt8.toNat_ofNat_of_lt' h

theorem tailBits?_tailByte (n shift : Nat) :
    tailBits? (tailByte n shift) = some (n / twoTo shift % 64) := by
  have hbits : n / twoTo shift % 64 < 64 := Nat.mod_lt _ (by decide)
  have hbyte : (tailByte n shift).toNat = 0x80 + n / twoTo shift % 64 := toNat_ofNat_byte (by omega)
  have hwithin : 0x80 ≤ 0x80 + n / twoTo shift % 64 ∧ 0x80 + n / twoTo shift % 64 < 0xc0 := by omega
  unfold tailBits?
  rw [hbyte, if_pos hwithin, Nat.add_sub_cancel_left]

theorem charWithin?_toNat {c : Char} {least most : Nat} (h : least ≤ c.toNat ∧ c.toNat ≤ most) :
    charWithin? least most c.toNat = some c := by
  have hvalid : c.toNat < 0xd800 ∨ 0xdfff < c.toNat ∧ c.toNat < 0x110000 := c.valid
  unfold charWithin?
  rw [if_pos ⟨h.1, h.2, by omega⟩, Char.ofNat_toNat]

/-- A character is read back from the bytes that it is written on. -/
theorem decode?_ofChar_append (c : Char) (rest : Bytes) :
    decode? (ofChar c ++ rest) = (decode? rest).map (c :: ·) := by
  have hvalid : c.toNat < 0xd800 ∨ 0xdfff < c.toNat ∧ c.toNat < 0x110000 := c.valid
  have h0 : twoTo 0 = 1 := rfl
  have h6 : twoTo 6 = 64 := rfl
  have h12 : twoTo 12 = 4096 := rfl
  have h18 : twoTo 18 = 262144 := rfl
  have hdone : ∀ x : Option (List Char), (x >>= fun text => pure (c :: text)) = x.map (c :: ·) := by
    intro x
    cases x <;> rfl
  unfold ofChar
  by_cases hone : c.toNat < 0x80
  · have hbyte : (UInt8.ofNat c.toNat).toNat = c.toNat := toNat_ofNat_byte (by omega)
    simp only [if_pos hone, List.singleton_append]
    rw [decode?.eq_def]
    simp only [hbyte, if_pos hone, Char.ofNat_toNat]
    exact hdone _
  by_cases htwo : c.toNat < 0x800
  · have hbyte : (UInt8.ofNat (0xc0 + c.toNat / twoTo 6)).toNat = 0xc0 + c.toNat / 64 := by
      rw [h6]
      exact toNat_ofNat_byte (by omega)
    have hchar : (0xc0 + c.toNat / 64 - 0xc0) * 64 + c.toNat / twoTo 0 % 64 = c.toNat := by
      rw [h0]
      omega
    have hread : charWithin? 0x80 0x7ff c.toNat = some c := charWithin?_toNat (by omega)
    simp only [if_neg hone, if_pos htwo, List.cons_append, List.nil_append]
    rw [decode?.eq_def]
    simp only [hbyte, tailBits?_tailByte]
    rw [if_neg (by omega), if_neg (by omega), if_pos (by omega)]
    simp only [bind, Option.bind, hchar, hread]
    exact hdone _
  by_cases hthree : c.toNat < 0x10000
  · have hbyte : (UInt8.ofNat (0xe0 + c.toNat / twoTo 12)).toNat = 0xe0 + c.toNat / 4096 := by
      rw [h12]
      exact toNat_ofNat_byte (by omega)
    have hchar : ((0xe0 + c.toNat / 4096 - 0xe0) * 64 + c.toNat / twoTo 6 % 64) * 64 +
        c.toNat / twoTo 0 % 64 = c.toNat := by
      rw [h0, h6]
      omega
    have hread : charWithin? 0x800 0xffff c.toNat = some c := charWithin?_toNat (by omega)
    simp only [if_neg hone, if_neg htwo, if_pos hthree, List.cons_append, List.nil_append]
    rw [decode?.eq_def]
    simp only [hbyte, tailBits?_tailByte]
    rw [if_neg (by omega), if_neg (by omega), if_neg (by omega), if_pos (by omega)]
    simp only [bind, Option.bind, hchar, hread]
    exact hdone _
  · have hbyte : (UInt8.ofNat (0xf0 + c.toNat / twoTo 18)).toNat = 0xf0 + c.toNat / 262144 := by
      rw [h18]
      exact toNat_ofNat_byte (by omega)
    have hchar : (((0xf0 + c.toNat / 262144 - 0xf0) * 64 + c.toNat / twoTo 12 % 64) * 64 +
        c.toNat / twoTo 6 % 64) * 64 + c.toNat / twoTo 0 % 64 = c.toNat := by
      rw [h0, h6, h12]
      omega
    have hread : charWithin? 0x10000 0x10ffff c.toNat = some c := charWithin?_toNat (by omega)
    simp only [if_neg hone, if_neg htwo, if_neg hthree, List.cons_append, List.nil_append]
    rw [decode?.eq_def]
    simp only [hbyte, tailBits?_tailByte]
    rw [if_neg (by omega), if_neg (by omega), if_neg (by omega), if_neg (by omega),
      if_pos (by omega)]
    simp only [bind, Option.bind, hchar, hread]
    exact hdone _
/-- A text is read back from its bytes. -/
theorem decode?_ofChars (text : List Char) : decode? (ofChars text) = some text := by
  induction text with
  | nil => rfl
  | cons c rest ih =>
    have hchars : ofChars (c :: rest) = ofChar c ++ ofChars rest := List.flatMap_cons
    rw [hchars, decode?_ofChar_append, ih]
    rfl

/-! ## Bytes that are no text -/

/-- The character in front and what follows it. -/
def first? (bytes : Bytes) : Option (List Char × Bytes) :=
  [1, 2, 3, 4].findSome? fun n =>
    if (bytes.take n).length < n then none
    else (decode? (bytes.take n)).map fun text => (text, bytes.drop n)

theorem length_first {bytes rest : Bytes} {text : List Char}
    (h : first? bytes = some (text, rest)) : rest.length < bytes.length := by
  obtain ⟨n, hn, hsome⟩ := List.exists_of_findSome?_eq_some h
  have hpos : 1 ≤ n := by
    simp only [List.mem_cons, List.not_mem_nil, or_false] at hn
    omega
  split at hsome
  · exact absurd hsome (by simp)
  · rename_i hlen
    obtain ⟨_, _, hrest⟩ := Option.map_eq_some_iff.1 hsome
    rw [← (Prod.mk.inj hrest).2, List.length_drop]
    rw [List.length_take] at hlen
    omega

/-- The text of bytes, those that are no text by number. -/
def visible (bytes : Bytes) : List Char :=
  match bytes with
  | [] => []
  | byte :: more =>
    match _h : first? (byte :: more) with
    | some (text, rest) => text ++ visible rest
    | none => '\\' :: 'x' :: Hex.byteDigits byte ++ visible more
termination_by bytes.length
decreasing_by
  · exact length_first _h
  · simp

end ContractHost.Utf8
