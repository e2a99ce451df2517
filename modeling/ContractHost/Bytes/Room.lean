import ContractHost.Bytes.BigEndian
import ContractHost.Fault

/-!
# Room for buffers

A buffer is made only if there is room for it. How much room there is depends on the machine that the
program runs on, and on nothing that the program says; no machine has as many as `2 ^ 63` bytes.

* `Room`: how large buffers can be.
* `checkRoom`: the check before a buffer is made.
* `zeroBytes`, `padTo`: buffers.
-/

namespace ContractHost

/-- The number of bytes that no buffer can have. -/
def unaddressable : Int := twoTo 63

/-- How large the buffers of a machine can be. -/
class Room where
  /-- The number of bytes of the largest buffer. -/
  limit : Int
  limit_pos : 0 < limit
  limit_lt : limit < unaddressable

/-- Room for buffers of 64 MiB. -/
@[reducible]
def Room.usual : Room where
  limit := twoTo 26
  limit_pos := by decide
  limit_lt := by decide

section

variable [Room]

/-- Checks that there is room for so many bytes. -/
def checkRoom (size : Int) : Except Fault Unit :=
  if unaddressable ≤ size then .error .outOfRange
  else if Room.limit < size then .error .outOfMemory
  else .ok ()

/-- Zero bytes, if there is room for as many. -/
def zeroBytes (size : Int) : Except Fault Bytes := do
  checkRoom size
  return List.replicate size.toNat 0

/-- Bytes with zeros up to a size. -/
def padTo (size : Int) (bytes : Bytes) : Except Fault Bytes := do
  checkRoom size
  return Bytes.padRight size.toNat bytes

end

end ContractHost
