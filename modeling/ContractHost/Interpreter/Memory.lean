import ContractHost.Bytes.Room
import ContractHost.Bytes.Slice

/-!
# The interpreter's memory

Memory is a string of bytes that grows, filled with zeros, up to the last byte touched. A string of no
bytes touches nothing. Positions and sizes are integers: a guest can bring in a negative number as the
block's number, and then positions count from the end as in every slice.

* `Memory.touch`: how memory grows, for `Memory.read` and `Memory.write`.
-/

namespace ContractHost

/-- The memory of one execution. -/
abbrev Memory := Bytes

namespace Memory

variable [Room]

/-- The memory grown to hold `size` bytes from a position on. -/
def touch (memory : Memory) (offset size : Int) : Except Fault Memory :=
  if size ≠ 0 ∧ (memory.length : Int) < offset + size then do
    return memory ++ (← zeroBytes (offset + size - memory.length))
  else .ok memory

/-- The bytes from a position on, and the memory grown to hold them. -/
def read (memory : Memory) (offset size : Int) : Except Fault (Bytes × Memory) := do
  let memory ← memory.touch offset size
  return (slice memory offset (offset + size), memory)

/-- The memory with bytes put in from a position on. -/
def write (memory : Memory) (offset : Int) (bytes : Bytes) : Except Fault Memory := do
  let memory ← memory.touch offset bytes.length
  return splice memory offset (offset + bytes.length) bytes

end Memory

end ContractHost
