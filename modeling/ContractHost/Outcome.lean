import ContractHost.Message

/-!
# Outcomes

How a call or a creation ended: a status, the gas left, the output, and the address of the callee.
-/

namespace ContractHost

/-- How an execution ended. -/
inductive StatusCode
  | success | failure | revert | outOfGas | invalidInstruction | undefinedInstruction
  | stackOverflow | stackUnderflow | badJumpDestination | invalidMemoryAccess | callDepthExceeded
  | staticModeViolation | precompileFailure | contractValidationFailure | argumentOutOfRange
  | wasmUnreachableInstruction | wasmTrap | internalError | rejected | outOfMemory
  deriving DecidableEq, Repr

namespace StatusCode

/-- All statuses with their numbers and names. -/
def table : List (StatusCode × Int × String) :=
  [(success, 0, "SUCCESS"), (failure, 1, "FAILURE"), (revert, 2, "REVERT"),
   (outOfGas, 3, "OUT_OF_GAS"), (invalidInstruction, 4, "INVALID_INSTRUCTION"),
   (undefinedInstruction, 5, "UNDEFINED_INSTRUCTION"), (stackOverflow, 6, "STACK_OVERFLOW"),
   (stackUnderflow, 7, "STACK_UNDERFLOW"), (badJumpDestination, 8, "BAD_JUMP_DESTINATION"),
   (invalidMemoryAccess, 9, "INVALID_MEMORY_ACCESS"),
   (callDepthExceeded, 10, "CALL_DEPTH_EXCEEDED"),
   (staticModeViolation, 11, "STATIC_MODE_VIOLATION"),
   (precompileFailure, 12, "PRECOMPILE_FAILURE"),
   (contractValidationFailure, 13, "CONTRACT_VALIDATION_FAILURE"),
   (argumentOutOfRange, 14, "ARGUMENT_OUT_OF_RANGE"),
   (wasmUnreachableInstruction, 15, "WASM_UNREACHABLE_INSTRUCTION"), (wasmTrap, 16, "WASM_TRAP"),
   (internalError, -1, "INTERNAL_ERROR"), (rejected, -2, "REJECTED"),
   (outOfMemory, -3, "OUT_OF_MEMORY")]

/-- The name of a status. -/
def name (status : StatusCode) : String :=
  ((table.find? (·.1 = status)).map (·.2.2)).getD ""

/-- The number of a status. -/
def code (status : StatusCode) : Int :=
  ((table.find? (·.1 = status)).map (·.2.1)).getD 0

/-- The status with a number. -/
def ofCode? (code : Int) : Option StatusCode := (table.find? (·.2.1 = code)).map (·.1)

/-- The status with a name. -/
def ofName? (name : String) : Option StatusCode := (table.find? (·.2.2 = name)).map (·.1)

end StatusCode

/-- What a write to a storage slot did. -/
inductive StorageStatus
  | unchanged | modified | modifiedAgain | added | deleted
  deriving DecidableEq, Repr

namespace StorageStatus

/-- All statuses. -/
def all : List StorageStatus := [unchanged, modified, modifiedAgain, added, deleted]

/-- The name of a status. -/
def name : StorageStatus → String
  | unchanged => "UNCHANGED"
  | modified => "MODIFIED"
  | modifiedAgain => "MODIFIED_AGAIN"
  | added => "ADDED"
  | deleted => "DELETED"

/-- The number of a status. -/
def code : StorageStatus → Int
  | unchanged => 0
  | modified => 1
  | modifiedAgain => 2
  | added => 3
  | deleted => 4

/-- The status with a number. -/
def ofCode? (code : Int) : Option StorageStatus := all.find? (·.code = code)

end StorageStatus

/-- The outcome of an execution. -/
structure Outcome where
  status : StatusCode := .success
  gasLeft : Int := 0
  output : Bytes := []
  createAddress : Address := .zero
  deriving DecidableEq

namespace Outcome

/-- Whether an execution succeeded. -/
def isSuccess (outcome : Outcome) : Bool := outcome.status = .success

/-- The outcome of an execution that failed without leaving anything. -/
def failed (status : StatusCode) : Outcome := { status }

end Outcome

end ContractHost
