import ContractHost.Bytes.Fixed

/-!
# The transaction's context

What an interpreter may ask about the transaction and the block. It stays the same for a whole
execution. Across the native boundary three of the numbers have 64 bits with a sign.
-/

namespace ContractHost

/-- A number that fits in 64 bits with a sign. -/
def int64? (n : Int) : Option Int64 :=
  if -twoTo 63 ≤ n ∧ n < twoTo 63 then some (Int64.ofInt n) else none

/-- A number that fits in 32 bits with a sign. -/
def int32? (n : Int) : Option Int32 :=
  if -twoTo 31 ≤ n ∧ n < twoTo 31 then some (Int32.ofInt n) else none

/-- A number that fits in 32 bits without a sign. -/
def uint32? (n : Nat) : Option UInt32 :=
  if n < twoTo 32 then some (UInt32.ofNat n) else none

/-- A number that fits in 64 bits without a sign. -/
def uint64? (n : Int) : Option UInt64 :=
  if 0 ≤ n ∧ n < twoTo 64 then some (UInt64.ofNat n.toNat) else none

/-- A number for a field, or the fault of one that does not fit. -/
def fitting {α : Type} : Option α → Except Fault α
  | some value => .ok value
  | none => .error .outOfRange

/-- Metadata of a transaction and its block. -/
structure TxContext where
  gasPrice : Uint256 := .zero
  origin : Address := .zero
  coinbase : Address := .zero
  blockNumber : Int := 0
  blockTimestamp : Int := 0
  blockGasLimit : Int := 0
  blockDifficulty : Uint256 := .zero
  chainId : Uint256 := .zero
  deriving DecidableEq

/-- A transaction's context as it crosses the native boundary. -/
structure RawTxContext where
  gasPrice : Uint256
  origin : Address
  coinbase : Address
  blockNumber : Int64
  blockTimestamp : Int64
  blockGasLimit : Int64
  blockDifficulty : Uint256
  chainId : Uint256
  deriving DecidableEq

/-- A context for the native side. -/
def TxContext.toRaw (tx : TxContext) : Except Fault RawTxContext := do
  let blockNumber ← fitting (int64? tx.blockNumber)
  let blockTimestamp ← fitting (int64? tx.blockTimestamp)
  let blockGasLimit ← fitting (int64? tx.blockGasLimit)
  return {
    gasPrice := tx.gasPrice, origin := tx.origin, coinbase := tx.coinbase
    blockNumber, blockTimestamp, blockGasLimit
    blockDifficulty := tx.blockDifficulty, chainId := tx.chainId }

/-- The context without anything set. -/
def RawTxContext.zero : RawTxContext :=
  ⟨.zero, .zero, .zero, 0, 0, 0, .zero, .zero⟩

/-- A context from the native side. -/
def RawTxContext.toContext (raw : RawTxContext) : TxContext where
  gasPrice := raw.gasPrice
  origin := raw.origin
  coinbase := raw.coinbase
  blockNumber := raw.blockNumber.toInt
  blockTimestamp := raw.blockTimestamp.toInt
  blockGasLimit := raw.blockGasLimit.toInt
  blockDifficulty := raw.blockDifficulty
  chainId := raw.chainId

end ContractHost
