import ContractHost.Fault
import ContractHost.Text.Hex

/-!
# Byte strings of a fixed size

`FixedBytes w` is a string of exactly `w.size` bytes. It is made from bytes, from hexadecimal text or,
for numbers, from an integer; each of these refuses what has another size.

* `toInt_ofInt`: a number that fits is read back from its bytes.
* `ofHex_toHex`: the hexadecimal text of a byte string reads back as the same.
-/

namespace ContractHost

/-- A string of exactly as many bytes as its width says. -/
@[ext]
structure FixedBytes (width : Width) where
  /-- The bytes. -/
  bytes : Bytes
  /-- There are as many as the width says. -/
  length_bytes : bytes.length = width.size
  deriving DecidableEq

/-- The address of an account. -/
abbrev Address := FixedBytes .address

/-- A word of thirty-two bytes. -/
abbrev Bytes32 := FixedBytes .bytes32

/-- A number below `2 ^ 256` on thirty-two bytes. -/
abbrev Uint256 := FixedBytes .uint256

/-- The fault of a text that is not hexadecimal. -/
def Hex.Error.fault : Hex.Error → Fault
  | .nonAscii => .nonAscii
  | .malformed => .malformedHex

namespace FixedBytes

variable {width : Width}

/-- The string of zeros. -/
def zero : FixedBytes width :=
  ⟨List.replicate width.size 0, List.length_replicate⟩

instance : Inhabited (FixedBytes width) := ⟨zero⟩

/-- Bytes of the right number. -/
def ofBytes (bytes : Bytes) : Except Fault (FixedBytes width) :=
  if h : bytes.length = width.size then .ok ⟨bytes, h⟩ else .error (.width width bytes.length)

/-- The bytes that a hexadecimal text spells, if they are of the right number. -/
def ofHex (text : Text) : Except Fault (FixedBytes width) :=
  match Hex.decode text with
  | .ok bytes => ofBytes bytes
  | .error e => .error e.fault

/-- The last bytes of a natural number. -/
def ofNat (n : Nat) : FixedBytes width :=
  ⟨Bytes.ofNat width.size n, Bytes.length_ofNat ..⟩

/-- An integer of at most 256 bits. -/
def ofInt (n : Int) : Except Fault Uint256 :=
  if 0 ≤ n ∧ n < twoTo 256 then .ok (ofNat n.toNat) else .error (.wide n)

/-- The number that the bytes spell. -/
def toNat (b : FixedBytes width) : Nat := Bytes.toNat b.bytes

/-- The bytes as hexadecimal text. -/
def toHex (b : FixedBytes width) : String := Hex.encode b.bytes

/-- Whether all bytes are zero. -/
def isZero (b : FixedBytes width) : Bool := b.bytes.all (· == 0)

/-- The bytes with the name of their width. -/
def display (b : FixedBytes width) : String := s!"{width.name}({b.toHex})"

/-- The last twenty bytes of a natural number. -/
def addressOfNat (n : Nat) : Address := ofNat n

/-- A word seen as a number. -/
def asUint256 (b : Bytes32) : Uint256 := ⟨b.bytes, b.length_bytes⟩

theorem ofBytes_bytes (b : FixedBytes width) : ofBytes b.bytes = .ok b := by
  simp [ofBytes, b.length_bytes]

theorem ofHex_toHex (b : FixedBytes width) : ofHex b.toHex = .ok b := by
  simp [ofHex, toHex, Hex.decode_encode, ofBytes_bytes]

theorem toNat_ofNat (n : Nat) : (ofNat n : FixedBytes width).toNat = n % twoTo (8 * width.size) :=
  Bytes.toNat_ofNat ..

theorem toInt_ofInt {n : Int} {b : Uint256} (h : ofInt n = .ok b) : (b.toNat : Int) = n := by
  simp only [ofInt] at h
  split at h
  · rename_i hn
    rw [← Except.ok.inj h, toNat_ofNat]
    have hlt : n.toNat < twoTo (8 * Width.uint256.size) := (Int.toNat_lt hn.1).2 hn.2
    rw [Nat.mod_eq_of_lt hlt]
    exact Int.toNat_of_nonneg hn.1
  · exact absurd h (by simp)

end FixedBytes

end ContractHost
