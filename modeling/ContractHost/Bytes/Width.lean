/-!
# Fixed widths

The three kinds of byte strings of a fixed size: addresses of twenty bytes, words of thirty-two, and
numbers on thirty-two.
-/

namespace ContractHost

/-- A kind of byte string of a fixed size. -/
inductive Width
  /-- An account's address. -/
  | address
  /-- A word. -/
  | bytes32
  /-- A number, most significant byte first. -/
  | uint256
  deriving DecidableEq, Repr

namespace Width

/-- The number of bytes. -/
def size : Width → Nat
  | address => 20
  | bytes32 => 32
  | uint256 => 32

/-- The name that messages use. -/
def name : Width → String
  | address => "Address"
  | bytes32 => "Bytes32"
  | uint256 => "Uint256"

end Width

end ContractHost
