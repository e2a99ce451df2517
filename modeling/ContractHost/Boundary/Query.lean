import ContractHost.Outcome

/-!
# Questions to a host

An interpreter reaches the state only by asking its host: twelve questions, each with its own kind of
answer. Questions and answers cross the native boundary, so their numbers have fixed sizes. When a
question fails the interpreter gets the neutral answer to it.
-/

namespace ContractHost

/-- An outcome as it crosses the native boundary. An output is lent to the receiver, who names the
ticket when giving it back. -/
structure RawOutcome where
  status : StatusCode
  gasLeft : Int64
  output : Bytes
  createAddress : Address
  ticket : Option Nat
  deriving DecidableEq

/-- An outcome from the native side, copied. -/
def RawOutcome.toOutcome (raw : RawOutcome) : Outcome where
  status := raw.status
  gasLeft := raw.gasLeft.toInt
  output := raw.output
  createAddress := raw.createAddress

/-- A question to a host. -/
inductive Query
  | txContext
  | accountExists (address : Address)
  | getStorage (address : Address) (key : Bytes32)
  | setStorage (address : Address) (key value : Bytes32)
  | getBalance (address : Address)
  | getCodeSize (address : Address)
  | getCodeHash (address : Address)
  | copyCode (address : Address) (offset size : UInt64)
  | selfdestruct (address beneficiary : Address)
  | call (message : RawMessage)
  | getBlockHash (number : Int64)
  | emitLog (address : Address) (data : Bytes) (topics : List Bytes32)
  deriving DecidableEq

namespace Query

/-- The kind of answer to a question. -/
abbrev Answer : Query → Type
  | txContext => RawTxContext
  | accountExists _ => Bool
  | getStorage .. => Bytes32
  | setStorage .. => StorageStatus
  | getBalance _ => Uint256
  | getCodeSize _ => Nat
  | getCodeHash _ => Bytes32
  | copyCode .. => Bytes
  | selfdestruct .. => Unit
  | call _ => RawOutcome
  | getBlockHash _ => Bytes32
  | emitLog .. => Unit

/-- The answer to a failed question. -/
def neutral : (q : Query) → q.Answer
  | txContext => .zero
  | accountExists _ => false
  | getStorage .. => .zero
  | setStorage .. => .unchanged
  | getBalance _ => .zero
  | getCodeSize _ => (0 : Nat)
  | getCodeHash _ => .zero
  | copyCode .. => ([] : Bytes)
  | selfdestruct .. => ()
  | call _ => ⟨.internalError, 0, [], .zero, none⟩
  | getBlockHash _ => .zero
  | emitLog .. => ()

/-- The name of the function that a question is put to. -/
def function : Query → String
  | txContext => "get_tx_context"
  | accountExists _ => "account_exists"
  | getStorage .. => "get_storage"
  | setStorage .. => "set_storage"
  | getBalance _ => "get_balance"
  | getCodeSize _ => "get_code_size"
  | getCodeHash _ => "get_code_hash"
  | copyCode .. => "copy_code"
  | selfdestruct .. => "selfdestruct"
  | call _ => "call"
  | getBlockHash _ => "get_block_hash"
  | emitLog .. => "emit_log"

end Query

end ContractHost
