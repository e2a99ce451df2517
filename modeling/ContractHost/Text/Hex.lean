import ContractHost.Bytes.BigEndian
import ContractHost.Text.Basic

/-!
# Hexadecimal text

Bytes are written as `0x` and two lower-case digits each. Reading takes one leading `0x` or `0X`
away if there is one, and accepts digits of either case, two for each byte, and nothing else.

* `decode_encode`: what was written reads back.
-/

namespace ContractHost.Hex

/-- Why a text is not a string of bytes. -/
inductive Error
  /-- The text has a character beyond ASCII. -/
  | nonAscii
  /-- The text is not pairs of hexadecimal digits. -/
  | malformed
  deriving DecidableEq, Repr

/-- The lower-case digit of a number below sixteen. -/
def digit (n : Nat) : Char :=
  if n < 10 then Char.ofNat ('0'.toNat + n) else Char.ofNat ('a'.toNat + (n - 10))

/-- The value of a hexadecimal digit of either case. -/
def digitValue? (c : Char) : Option Nat :=
  if '0' ≤ c ∧ c ≤ '9' then some (c.toNat - '0'.toNat)
  else if 'a' ≤ c ∧ c ≤ 'f' then some (c.toNat - 'a'.toNat + 10)
  else if 'A' ≤ c ∧ c ≤ 'F' then some (c.toNat - 'A'.toNat + 10)
  else none

/-- The two digits of a byte. -/
def byteDigits (byte : UInt8) : List Char :=
  [digit (byte.toNat / 16), digit (byte.toNat % 16)]

/-- The digits of a string of bytes. -/
def digits (bytes : Bytes) : List Char :=
  bytes.flatMap byteDigits

/-- Bytes as `0x` and their digits. -/
def encode (bytes : Bytes) : String :=
  String.ofList ('0' :: 'x' :: digits bytes)

/-- A number as `0x` and its digits, as few as there are. -/
def ofNat (n : Nat) : String :=
  String.ofList ('0' :: 'x' :: Nat.toDigits 16 n)

/-- The text after one leading `0x` or `0X`. -/
def withoutMark : List Char → List Char
  | '0' :: 'x' :: rest => rest
  | '0' :: 'X' :: rest => rest
  | text => text

/-- Whether a text is the given number of digits of either case, with or without a mark. -/
def isDigits (count : Nat) (text : List Char) : Bool :=
  let digits := withoutMark text
  digits.length == count && digits.all fun c => (digitValue? c).isSome

/-- The bytes that pairs of digits spell. -/
def ofPairs? : List Char → Option Bytes
  | [] => some []
  | [_] => none
  | high :: low :: rest => do
    let high ← digitValue? high
    let low ← digitValue? low
    let rest ← ofPairs? rest
    return UInt8.ofNat (16 * high + low) :: rest

/-- The bytes a list of characters spells. -/
def decodeChars (text : List Char) : Except Error Bytes :=
  let text := withoutMark text
  if text.all (fun c => c.toNat < 128) then
    match ofPairs? text with
    | some bytes => .ok bytes
    | none => .error .malformed
  else .error .nonAscii

/-- The bytes a text spells. -/
def decode (text : Text) : Except Error Bytes :=
  decodeChars text.chars

theorem digitValue?_digit (n : Nat) (hn : n < 16) : digitValue? (digit n) = some n := by
  have h : ∀ m : Fin 16, digitValue? (digit m) = some m.val := by decide
  exact h ⟨n, hn⟩

theorem digit_ascii (n : Nat) (hn : n < 16) : (digit n).toNat < 128 := by
  have h : ∀ m : Fin 16, (digit m).toNat < 128 := by decide
  exact h ⟨n, hn⟩

theorem ofPairs?_digits (bytes : Bytes) : ofPairs? (digits bytes) = some bytes := by
  induction bytes with
  | nil => rfl
  | cons byte rest ih =>
    have hbyte := byte.toNat_lt
    change ofPairs? (digit _ :: digit _ :: digits rest) = _
    rw [ofPairs?, digitValue?_digit _ (by omega), digitValue?_digit _ (by omega), ih]
    have hsum : 16 * (byte.toNat / 16) + byte.toNat % 16 = byte.toNat := by omega
    change some (UInt8.ofNat (16 * (byte.toNat / 16) + byte.toNat % 16) :: rest) = _
    rw [hsum, UInt8.ofNat_toNat]

theorem digits_ascii (bytes : Bytes) : (digits bytes).all (fun c => c.toNat < 128) = true := by
  induction bytes with
  | nil => rfl
  | cons byte rest ih =>
    have hbyte := byte.toNat_lt
    change (digit _ :: digit _ :: digits rest).all _ = true
    simp [digit_ascii _ (show byte.toNat / 16 < 16 by omega),
      digit_ascii _ (show byte.toNat % 16 < 16 by omega)]
    simpa using ih

theorem decodeChars_digits (bytes : Bytes) :
    decodeChars ('0' :: 'x' :: digits bytes) = .ok bytes := by
  simp [decodeChars, withoutMark, digits_ascii, ofPairs?_digits]

theorem decode_encode (bytes : Bytes) : decode (encode bytes) = .ok bytes := by
  simp [decode, encode, decodeChars_digits]

end ContractHost.Hex
