import ContractHost.Boundary.Dispatch

/-!
# Buffers

Code is copied through the native boundary into a buffer of the interpreter, which says how much of the
buffer may be written. Of what the host gives, as much is copied as there is room for, and the bytes
behind it stay as they were.

* `copyCode`: code copied into a buffer.
-/

namespace ContractHost

/-- A buffer, of which so many bytes may be written. -/
structure Buffer where
  bytes : Bytes
  size : UInt64
  /-- There are as many. -/
  size_le : size.toNat ≤ bytes.length

/-- How many bytes of an answer are written to a buffer, and what it holds then. -/
def Buffer.fill (buffer : Buffer) (answer : Bytes) : Nat × Bytes :=
  let written := min answer.length buffer.size.toNat
  (written, overwrite buffer.bytes (answer.take written))

/-- Copies code from an offset on into a buffer, through the boundary. -/
def copyCode (methods : Methods) (handle : Handle) (address : Address) (offset : UInt64)
    (buffer : Buffer) (session : Session) : (Nat × Bytes) × Session :=
  let (code, session) := dispatch methods handle (.copyCode address offset buffer.size) session
  (buffer.fill code, session)

end ContractHost
