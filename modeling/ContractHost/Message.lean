import ContractHost.TxContext

/-!
# Messages

A message asks for a call or a creation. Across the native boundary its numbers have fixed sizes, so a
message whose numbers do not fit cannot be sent.
-/

namespace ContractHost

/-- The kinds of calls. -/
inductive CallKind
  | call | delegateCall | callCode | create | create2
  deriving DecidableEq, Repr

namespace CallKind

/-- All kinds. -/
def all : List CallKind := [call, delegateCall, callCode, create, create2]

/-- The name of a kind. -/
def name : CallKind → String
  | call => "CALL"
  | delegateCall => "DELEGATECALL"
  | callCode => "CALLCODE"
  | create => "CREATE"
  | create2 => "CREATE2"

/-- The number of a kind. -/
def code : CallKind → Nat
  | call => 0
  | delegateCall => 1
  | callCode => 2
  | create => 3
  | create2 => 4

/-- The kind with a number. -/
def ofCode? (code : Int) : Option CallKind := all.find? fun kind => (kind.code : Int) = code

/-- The kind with a name. -/
def ofName? (name : String) : Option CallKind := all.find? (·.name = name)

/-- Whether a kind creates a contract. -/
def isCreate : CallKind → Bool
  | create => true
  | create2 => true
  | _ => false

end CallKind

/-- The set of flags that a number stands for, as bits. A negative number stands for the bits of its
complement to the next power of two, where minus two is within the one flag there is. -/
def flagBits (n : Int) : Nat :=
  if 0 ≤ n then n.toNat
  else if n = -2 then 0
  else (twoTo (Nat.log2 n.natAbs + 1) + n).toNat

/-- A request for a call or a creation. -/
structure Message where
  kind : CallKind := .call
  flags : Nat := 0
  depth : Int := 0
  gas : Int := 0
  destination : Address := .zero
  sender : Address := .zero
  input : Bytes := []
  value : Uint256 := .zero
  salt : Bytes32 := .zero
  deriving DecidableEq

/-- Whether a message forbids changes. -/
def Message.isStatic (message : Message) : Bool := message.flags % 2 = 1

/-- A message as it crosses the native boundary. -/
structure RawMessage where
  kind : UInt32
  flags : UInt32
  depth : Int32
  gas : Int64
  destination : Address
  sender : Address
  input : Bytes
  value : Uint256
  salt : Bytes32
  deriving DecidableEq

/-- A message for the native side. -/
def Message.toRaw (message : Message) : Except Fault RawMessage := do
  let flags ← fitting (uint32? message.flags)
  let depth ← fitting (int32? message.depth)
  let gas ← fitting (int64? message.gas)
  return {
    kind := UInt32.ofNat message.kind.code, flags, depth, gas
    destination := message.destination, sender := message.sender, input := message.input
    value := message.value, salt := message.salt }

/-- A message from the native side, whose kind may be unknown. -/
def RawMessage.toMessage (raw : RawMessage) : Except Fault Message :=
  match CallKind.ofCode? raw.kind.toNat with
  | none => .error .badValue
  | some kind => .ok {
      kind, flags := raw.flags.toNat, depth := raw.depth.toInt, gas := raw.gas.toInt
      destination := raw.destination, sender := raw.sender, input := raw.input
      value := raw.value, salt := raw.salt }

end ContractHost
