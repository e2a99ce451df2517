import ContractHost.Bytes.BigEndian

/-!
# Instructions

Code is a list of instructions, each with its position. The bytes behind a push are its operand; the
code may end before them, and then zeros stand for the rest. There are no jumps, so instructions run
in the order of the code.

* `decode_positions`: positions increase, by one and the size of the operand.
-/

namespace ContractHost.Interpreter

/-- What one byte of code asks for. -/
inductive Instruction
  | stop
  | add
  | address
  | balance
  | caller
  | callDataLoad
  | callDataSize
  | callDataCopy
  | codeCopy
  | extCodeSize
  | extCodeCopy
  | extCodeHash
  | blockHash
  | number
  | chainId
  | pop
  | load
  | store
  | storageLoad
  | storageStore
  | push (value : Nat)
  | dup (depth : Nat)
  | swap
  | log (topics : Nat)
  | create (salted : Bool)
  | call
  | ret
  | revert
  | selfdestruct
  | undefined
  deriving DecidableEq, Repr

/-- The size of the operand behind a byte of code. -/
def operandSize (op : UInt8) : Nat :=
  if 0x60 ≤ op ∧ op ≤ 0x7f then op.toNat - 0x5f else 0

/-- The instruction of a byte of code and the bytes behind it. -/
def Instruction.ofByte (op : UInt8) (rest : Bytes) : Instruction :=
  if 0x60 ≤ op ∧ op ≤ 0x7f then
    let size := operandSize op
    .push (Bytes.toNat (Bytes.padRight size (rest.take size)))
  else if 0x80 ≤ op ∧ op ≤ 0x8f then .dup (op.toNat - 0x7f)
  else if 0xa0 ≤ op ∧ op ≤ 0xa4 then .log (op.toNat - 0xa0)
  else match op with
    | 0x00 => .stop
    | 0x01 => .add
    | 0x30 => .address
    | 0x31 => .balance
    | 0x33 => .caller
    | 0x35 => .callDataLoad
    | 0x36 => .callDataSize
    | 0x37 => .callDataCopy
    | 0x39 => .codeCopy
    | 0x3b => .extCodeSize
    | 0x3c => .extCodeCopy
    | 0x3f => .extCodeHash
    | 0x40 => .blockHash
    | 0x43 => .number
    | 0x46 => .chainId
    | 0x50 => .pop
    | 0x51 => .load
    | 0x52 => .store
    | 0x54 => .storageLoad
    | 0x55 => .storageStore
    | 0x90 => .swap
    | 0xf0 => .create false
    | 0xf1 => .call
    | 0xf3 => .ret
    | 0xf5 => .create true
    | 0xfd => .revert
    | 0xff => .selfdestruct
    | _ => .undefined

/-- The instructions of code from a position on, after as many bytes as are still to be skipped. -/
def decodeFrom : (position : Nat) → (skip : Nat) → Bytes → List (Nat × Instruction)
  | _, _, [] => []
  | position, skip + 1, _ :: rest => decodeFrom (position + 1) skip rest
  | position, 0, op :: rest =>
    (position, .ofByte op rest) :: decodeFrom (position + 1) (operandSize op) rest

/-- The instructions of code with their positions. -/
def decode (code : Bytes) : List (Nat × Instruction) := decodeFrom 0 0 code

theorem le_of_mem_decodeFrom {position skip : Nat} {code : Bytes} {item : Nat × Instruction}
    (h : item ∈ decodeFrom position skip code) : position + skip ≤ item.1 := by
  induction code generalizing position skip with
  | nil => simp [decodeFrom] at h
  | cons op rest ih =>
    cases skip with
    | succ skip =>
      have := ih h
      omega
    | zero =>
      rcases List.mem_cons.1 h with rfl | h
      · exact Nat.le_refl _
      · have := ih h
        omega

theorem decode_positions (position skip : Nat) (code : Bytes) :
    ((decodeFrom position skip code).map Prod.fst).Pairwise (· < ·) := by
  induction code generalizing position skip with
  | nil => simp [decodeFrom]
  | cons op rest ih =>
    cases skip with
    | succ skip => exact ih ..
    | zero =>
      rw [decodeFrom, List.map_cons, List.pairwise_cons]
      refine ⟨fun p hp => ?_, ih ..⟩
      obtain ⟨item, hitem, rfl⟩ := List.mem_map.1 hp
      have := le_of_mem_decodeFrom hitem
      omega

end ContractHost.Interpreter
