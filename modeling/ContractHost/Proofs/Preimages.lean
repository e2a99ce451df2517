import ContractHost.Derivation
import Mathlib.Data.Nat.Log

/-!
# What addresses are derived from

A string of bytes is hashed for each new address, and it tells what the address is derived from: the
creator and its count of creations, however large, or the creator, the salt and the hash of the code. No
string is of both kinds. So two derivations with one address are alike or are a collision of the hash.

The codes are told apart by their lengths. A longer payload has a longer code, so equal codes have
payloads of one length behind headers of one length, and no header is ever read.

* `Rlp.eq_of_header_append`: a payload is told by its code.
* `Rlp.string_injective`, `Rlp.nat_injective`: so are strings and numbers.
* `Origin.preimage_injective`: what is hashed tells what the address is derived from.
* `address_eq_iff`: when two derivations give one address.
-/

namespace ContractHost

/-! ## Numbers on as few bytes as they need -/

namespace Bytes

theorem length_minimal (n : Nat) : (minimal n).length = if n = 0 then 0 else n.log2 / 8 + 1 := by
  unfold minimal
  split
  · rfl
  · exact length_ofNat _ _

theorem length_minimal_mono {m n : Nat} (h : m ≤ n) : (minimal m).length ≤ (minimal n).length := by
  rw [length_minimal, length_minimal]
  by_cases hm : m = 0
  · rw [if_pos hm]
    exact Nat.zero_le _
  · have hn : n ≠ 0 := by omega
    have hlog : m.log2 ≤ n.log2 := by
      rw [Nat.log2_eq_log_two, Nat.log2_eq_log_two]
      exact Nat.log_mono_right h
    rw [if_neg hm, if_neg hn]
    omega

/-- The bytes of a number spell it. -/
theorem toNat_minimal (n : Nat) : toNat (minimal n) = n := by
  unfold minimal
  split
  · rename_i hzero
    exact hzero.symm
  · have hbits : n.log2 + 1 ≤ 8 * (n.log2 / 8 + 1) := by omega
    have hlt : n < twoTo (8 * (n.log2 / 8 + 1)) :=
      Nat.lt_of_lt_of_le Nat.lt_log2_self (Nat.pow_le_pow_right (by decide) hbits)
    rw [toNat_ofNat, Nat.mod_eq_of_lt hlt]

end Bytes

/-! ## Codes -/

namespace Rlp

variable {offset : UInt8}

theorem length_header (offset : UInt8) (length : Nat) :
    (header offset length).length = if length < 56 then 1 else (Bytes.minimal length).length + 1 := by
  unfold header
  split <;> rfl

theorem length_header_mono {m n : Nat} (h : m ≤ n) :
    (header offset m).length ≤ (header offset n).length := by
  have hminimal := Bytes.length_minimal_mono h
  rw [length_header, length_header]
  split <;> split <;> omega

/-- A payload is told by its code. -/
theorem eq_of_header_append {a b : Bytes}
    (h : header offset a.length ++ a = header offset b.length ++ b) : a = b := by
  have hlength : (header offset a.length).length + a.length =
      (header offset b.length).length + b.length := by
    simpa using congrArg List.length h
  -- the header grows with the payload, so the lengths are equal one by one
  have hpayload : a.length = b.length := by
    rcases Nat.le_total a.length b.length with hle | hle
    · have hheader : _ ≤ (header offset b.length).length := length_header_mono hle
      omega
    · have hheader : _ ≤ (header offset a.length).length := length_header_mono hle
      omega
  rw [hpayload] at h
  exact List.append_cancel_left h

theorem list_flatten {items items' : List Bytes} (h : list items = list items') :
    items.flatten = items'.flatten := eq_of_header_append h

/-- A single byte below `0x80`, which is its own code. -/
def Bare (bytes : Bytes) : Prop := ∃ byte, bytes = [byte] ∧ byte < 0x80

theorem string_of_bare {bytes : Bytes} (h : Bare bytes) : string bytes = bytes := by
  obtain ⟨byte, rfl, hbyte⟩ := h
  exact if_pos hbyte

theorem string_of_not_bare {bytes : Bytes} (h : ¬Bare bytes) :
    string bytes = header 0x80 bytes.length ++ bytes := by
  unfold string
  split
  · rename_i byte
    exact if_neg fun hbyte => h ⟨byte, rfl, hbyte⟩
  · rfl

/-- A byte that is its own code is no header. -/
theorem string_ne_of_bare {a b : Bytes} (ha : Bare a) (hb : ¬Bare b) : string a ≠ string b := by
  rw [string_of_bare ha, string_of_not_bare hb]
  obtain ⟨byte, rfl, hbyte⟩ := ha
  intro h
  have hlength := congrArg List.length h
  rw [List.length_append, length_header, List.length_singleton] at hlength
  have hempty : b = [] := by
    rw [← List.length_eq_zero_iff]
    split at hlength <;> omega
  subst hempty
  obtain ⟨rfl, -⟩ := List.cons.inj h
  exact absurd hbyte (by decide)

theorem string_injective : Function.Injective string := by
  intro a b h
  by_cases ha : Bare a
  · by_cases hb : Bare b
    · rwa [string_of_bare ha, string_of_bare hb] at h
    · exact absurd h (string_ne_of_bare ha hb)
  · by_cases hb : Bare b
    · exact absurd h.symm (string_ne_of_bare hb ha)
    · rw [string_of_not_bare ha, string_of_not_bare hb] at h
      exact eq_of_header_append h

theorem nat_injective : Function.Injective nat := by
  intro m n h
  rw [← Bytes.toNat_minimal m, ← Bytes.toNat_minimal n, string_injective h]

end Rlp

/-! ## What is hashed -/

namespace Derivation

/-- What an address is derived from. -/
inductive Origin
  /-- The creator and its count of creations. -/
  | plain (sender : Address) (nonce : Nat)
  /-- The creator, a salt and the hash of the code. -/
  | salted (sender : Address) (salt codeHash : Bytes32)

/-- What is hashed for it. -/
def Origin.preimage : Origin → Bytes
  | plain sender nonce => Derivation.preimage sender nonce
  | salted sender salt codeHash => saltedPreimage sender salt codeHash

theorem length_string_address (a : Address) : (Rlp.string a.bytes).length = 21 := by
  have hlength : a.bytes.length = 20 := a.length_bytes
  have hbare : ¬Rlp.Bare a.bytes := by
    rintro ⟨byte, hbytes, -⟩
    rw [hbytes] at hlength
    cases hlength
  rw [Rlp.string_of_not_bare hbare, List.length_append, hlength]
  rfl

theorem preimage_inj {sender sender' : Address} {nonce nonce' : Nat}
    (h : preimage sender nonce = preimage sender' nonce') : sender = sender' ∧ nonce = nonce' := by
  have hpayload := Rlp.list_flatten h
  simp only [List.flatten_cons, List.flatten_nil, List.append_nil] at hpayload
  have hlength : (Rlp.string sender.bytes).length = (Rlp.string sender'.bytes).length := by
    rw [length_string_address, length_string_address]
  obtain ⟨hsender, hnonce⟩ := List.append_inj hpayload hlength
  exact ⟨FixedBytes.ext (Rlp.string_injective hsender), Rlp.nat_injective hnonce⟩

theorem saltedPreimage_inj {sender sender' : Address} {salt salt' codeHash codeHash' : Bytes32}
    (h : saltedPreimage sender salt codeHash = saltedPreimage sender' salt' codeHash') :
    sender = sender' ∧ salt = salt' ∧ codeHash = codeHash' := by
  obtain ⟨-, h⟩ := List.cons.inj h
  have hlength {width : Width} (a b : FixedBytes width) : a.bytes.length = b.bytes.length :=
    a.length_bytes.trans b.length_bytes.symm
  obtain ⟨hfront, hcode⟩ := List.append_inj' h (hlength codeHash codeHash')
  obtain ⟨hsender, hsalt⟩ := List.append_inj hfront (hlength sender sender')
  exact ⟨FixedBytes.ext hsender, FixedBytes.ext hsalt, FixedBytes.ext hcode⟩

theorem length_saltedPreimage (sender : Address) (salt codeHash : Bytes32) :
    (saltedPreimage sender salt codeHash).length = 85 := by
  simp [saltedPreimage, FixedBytes.length_bytes, Width.size]

/-- A list with a code of 85 bytes has a header of two bytes, and that does not begin with `0xff`. -/
theorem head?_list {items : List Bytes} (h : (Rlp.list items).length = 85) :
    (Rlp.list items).head? = some 0xf8 := by
  rw [Rlp.list, List.length_append] at h
  have hlong : ¬items.flatten.length < 56 := by
    intro hshort
    rw [Rlp.length_header, if_pos hshort] at h
    omega
  rw [Rlp.length_header, if_neg hlong] at h
  have hsize : (Bytes.minimal items.flatten.length).length = 1 := by
    rw [Bytes.length_minimal, if_neg (by omega)] at h ⊢
    have hlog : items.flatten.length.log2 < 8 :=
      (Nat.log2_lt (by omega)).2 (Nat.lt_of_lt_of_le (by omega) (show 85 ≤ 2 ^ 8 by decide))
    omega
  have hheader : Rlp.header 0xc0 items.flatten.length = 0xf8 :: Bytes.minimal items.flatten.length := by
    simp only [Rlp.header, if_neg hlong, hsize]
    rfl
  rw [Rlp.list, hheader]
  rfl

theorem preimage_ne_saltedPreimage (sender sender' : Address) (nonce : Nat)
    (salt codeHash : Bytes32) : preimage sender nonce ≠ saltedPreimage sender' salt codeHash := by
  intro h
  have hlength : (preimage sender nonce).length = 85 := by rw [h, length_saltedPreimage]
  have hhead := head?_list hlength
  rw [← preimage, h] at hhead
  exact absurd (Option.some.inj hhead) (by decide)

/-- What is hashed tells what the address is derived from. -/
theorem Origin.preimage_injective : Function.Injective Origin.preimage := by
  intro a b h
  cases a with
  | plain sender nonce =>
    cases b with
    | plain sender' nonce' =>
      obtain ⟨rfl, rfl⟩ := preimage_inj h
      rfl
    | salted sender' salt codeHash => exact (preimage_ne_saltedPreimage _ _ _ _ _ h).elim
  | salted sender salt codeHash =>
    cases b with
    | plain sender' nonce => exact (preimage_ne_saltedPreimage _ _ _ _ _ h.symm).elim
    | salted sender' salt' codeHash' =>
      obtain ⟨rfl, rfl, rfl⟩ := saltedPreimage_inj h
      rfl

/-! ## Addresses -/

/-- A creation, by what its address is asked for with. -/
inductive Creation
  /-- A plain creation. -/
  | plain (sender : Address) (nonce : Nat)
  /-- A salted creation. -/
  | salted (sender : Address) (salt : Bytes32) (code : Bytes)

namespace Creation

/-- The address. -/
def address : Creation → Except Fault Address
  | plain sender nonce => create sender nonce
  | salted sender salt code => .ok (createSalted sender salt code)

/-- What the address is derived from. -/
def origin : Creation → Origin
  | plain sender nonce => .plain sender nonce
  | salted sender salt code => .salted sender salt (Keccak.hash code)

theorem address_eq (c : Creation) :
    c.address = .ok (addressOfHash (Keccak.hash c.origin.preimage)) := by
  cases c with
  | plain sender nonce =>
    have hnonce : ¬(nonce : Int) < 0 := Int.not_lt.2 (Int.natCast_nonneg nonce)
    rw [address, create, if_neg hnonce]
    rfl
  | salted sender salt code => rfl

end Creation

/-- Two strings of bytes whose hashes end alike. -/
def Collision (a b : Bytes) : Prop :=
  a ≠ b ∧ addressOfHash (Keccak.hash a) = addressOfHash (Keccak.hash b)

/-- Every creation has an address, the end of the hash of a string that tells the creator and its count
of creations, or the creator, the salt and the hash of the code. Two creations have one address if and
only if they agree in these or their strings are a collision. -/
theorem address_eq_iff :
    (∀ c : Creation, c.address = .ok (addressOfHash (Keccak.hash c.origin.preimage))) ∧
      Function.Injective Origin.preimage ∧
      ∀ c d : Creation, c.address = d.address ↔
        c.origin = d.origin ∨ Collision c.origin.preimage d.origin.preimage := by
  refine ⟨Creation.address_eq, Origin.preimage_injective, fun c d => ?_⟩
  rw [c.address_eq, d.address_eq, Except.ok.injEq]
  constructor
  · intro haddress
    by_cases horigin : c.origin = d.origin
    · exact .inl horigin
    · exact .inr ⟨fun h => horigin (Origin.preimage_injective h), haddress⟩
  · rintro (horigin | hcollision)
    · rw [horigin]
    · exact hcollision.2

end Derivation

end ContractHost
