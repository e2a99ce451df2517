import ContractHost.Power

/-!
# Big-endian numbers

A string of bytes is read as a number with the most significant byte first, and a number is written
that way either on a fixed number of bytes or on as few as it needs.

* `Bytes.toNat_ofNat`: writing on `width` bytes and reading back gives the number modulo
  `2 ^ (8 * width)`.
* `Bytes.length_ofNat`: a number is written on exactly the bytes asked for.
-/

namespace ContractHost

/-- A string of bytes. -/
abbrev Bytes := List UInt8

namespace Bytes

/-- The number a string of bytes spells, most significant byte first. -/
def toNat (bytes : Bytes) : Nat :=
  bytes.foldl (fun n byte => n * 256 + byte.toNat) 0

/-- The last `width` base-256 digits of a number, most significant first. -/
def ofNat : (width : Nat) → Nat → Bytes
  | 0, _ => []
  | width + 1, n => ofNat width (n / 256) ++ [UInt8.ofNat n]

/-- The base-256 digits of a number without leading zeros; zero has none. -/
def minimal (n : Nat) : Bytes :=
  if n = 0 then [] else ofNat (Nat.log2 n / 8 + 1) n

/-- Zeros appended up to a length; a longer string stays as it is. -/
def padRight (size : Nat) (bytes : Bytes) : Bytes :=
  bytes ++ List.replicate (size - bytes.length) 0

@[simp]
theorem length_ofNat (width n : Nat) : (ofNat width n).length = width := by
  induction width generalizing n with
  | zero => rfl
  | succ width ih => simp [ofNat, ih]

@[simp]
theorem toNat_nil : toNat [] = 0 := rfl

@[simp]
theorem toNat_append_singleton (bytes : Bytes) (byte : UInt8) :
    toNat (bytes ++ [byte]) = toNat bytes * 256 + byte.toNat := by
  simp [toNat, List.foldl_append]

theorem toNat_ofNat (width n : Nat) : toNat (ofNat width n) = n % twoTo (8 * width) := by
  induction width generalizing n with
  | zero => exact (Nat.mod_one n).symm
  | succ width ih =>
    have hpow : twoTo (8 * (width + 1)) = 256 * twoTo (8 * width) := by
      rw [Nat.mul_succ, twoTo_add, Nat.mul_comm]
    rw [ofNat, toNat_append_singleton, ih, hpow, Nat.mod_mul]
    simp [UInt8.toNat_ofNat']
    omega

end Bytes

end ContractHost
