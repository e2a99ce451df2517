import ContractHost.Bytes.BigEndian

/-!
# Recursive length codes

A string of bytes is written behind a header that gives its length, a list behind a header that gives
the length of its written items. A single byte below `0x80` is its own code, and a number is the
string of its digits without leading zeros.
-/

namespace ContractHost.Rlp

/-- The header of a payload: one byte for less than 56 bytes, and the length's own bytes for more. -/
def header (offset : UInt8) (length : Nat) : Bytes :=
  if length < 56 then [offset + UInt8.ofNat length]
  else
    let size := Bytes.minimal length
    (offset + 55 + UInt8.ofNat size.length) :: size

/-- The code of a string of bytes. -/
def string (bytes : Bytes) : Bytes :=
  match bytes with
  | [byte] => if byte < 0x80 then [byte] else header 0x80 1 ++ [byte]
  | _ => header 0x80 bytes.length ++ bytes

/-- The code of a natural number. -/
def nat (n : Nat) : Bytes := string (Bytes.minimal n)

/-- The code of a list, given the codes of its items. -/
def list (items : List Bytes) : Bytes :=
  header 0xc0 items.flatten.length ++ items.flatten

end ContractHost.Rlp
