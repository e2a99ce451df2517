import ContractHost.Hash.Keccak
import ContractHost.Hash.Rlp

/-!
# Addresses of created contracts

A contract's address is the end of a hash. For a plain creation the hash covers the creator and its
count of creations so far; for a salted one the creator, the salt and the hash of the creation code.
The hashed strings have definitions of their own, `preimage` and `saltedPreimage`.

An address has a second text, in which the case of each letter is a bit of a check sum.
-/

namespace ContractHost.Derivation

/-- The last twenty bytes of a hash. -/
def addressOfHash (hash : Bytes32) : Address :=
  ⟨hash.bytes.drop 12, by simp [hash.length_bytes, Width.size]⟩

/-- What is hashed for a plain creation. -/
def preimage (sender : Address) (nonce : Nat) : Bytes :=
  Rlp.list [Rlp.string sender.bytes, Rlp.nat nonce]

/-- What is hashed last for a salted creation. -/
def saltedPreimage (sender : Address) (salt codeHash : Bytes32) : Bytes :=
  0xff :: sender.bytes ++ salt.bytes ++ codeHash.bytes

/-- The address of a plain creation. A negative count has no code. -/
def create (sender : Address) (nonce : Int) : Except Fault Address :=
  if nonce < 0 then .error .wrongType
  else .ok (addressOfHash (Keccak.hash (preimage sender nonce.toNat)))

/-- The address of a salted creation. -/
def createSalted (sender : Address) (salt : Bytes32) (code : Bytes) : Address :=
  addressOfHash (Keccak.hash (saltedPreimage sender salt (Keccak.hash code)))

/-- The letters of a text, upper case where the digit of the hash in the same place is at least
eight. -/
def checkedDigits (digits hash : List Char) : List Char :=
  List.zipWith (fun c h => if 8 ≤ (Hex.digitValue? h).getD 0 then c.toUpper else c) digits hash

/-- The text of an address with its check sum. -/
def checksum (address : Address) : String :=
  let digits := Hex.digits address.bytes
  let hash := Keccak.hash (digits.map fun c => UInt8.ofNat c.toNat)
  String.ofList ('0' :: 'x' :: checkedDigits digits (Hex.digits hash.bytes))

end ContractHost.Derivation
