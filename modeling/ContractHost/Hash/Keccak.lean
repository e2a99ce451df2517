import ContractHost.Bytes.Fixed

/-!
# The Keccak hash

Keccak with a capacity of 512 bits and the padding that starts with the bit one: the hash that
addresses, selectors and event topics are made with. The state has twenty-five lanes of 64 bits; lane
`(x, y)` stands at place `x + 5 * y`.
-/

namespace ContractHost.Keccak

/-- The lanes of the sponge. -/
abbrev State := Vector UInt64 25

/-- The lane at a place, counted round. -/
def State.lane (s : State) (place : Nat) : UInt64 :=
  s.get ⟨place % 25, Nat.mod_lt _ (by decide)⟩

/-- A word rotated to the left. -/
def rotate (x : UInt64) (amount : Nat) : UInt64 :=
  if amount = 0 then x
  else (x <<< UInt64.ofNat amount) ||| (x >>> UInt64.ofNat (64 - amount))

/-- How far each lane is rotated. -/
def rotations : List Nat :=
  [0, 1, 62, 28, 27, 36, 44, 6, 55, 20, 3, 10, 43, 25, 39, 41, 45, 15, 21, 8, 18, 2, 61, 56, 14]

/-- The constants that the rounds add to the first lane. -/
def roundConstants : List UInt64 :=
  [0x0000000000000001, 0x0000000000008082, 0x800000000000808A, 0x8000000080008000,
   0x000000000000808B, 0x0000000080000001, 0x8000000080008081, 0x8000000000008009,
   0x000000000000008A, 0x0000000000000088, 0x0000000080008009, 0x000000008000000A,
   0x000000008000808B, 0x800000000000008B, 0x8000000000008089, 0x8000000000008003,
   0x8000000000008002, 0x8000000000000080, 0x000000000000800A, 0x800000008000000A,
   0x8000000080008081, 0x8000000000008080, 0x0000000080000001, 0x8000000080008008]

/-- The sum of a column. -/
def column (s : State) (x : Nat) : UInt64 :=
  s.lane x ^^^ s.lane (x + 5) ^^^ s.lane (x + 10) ^^^ s.lane (x + 15) ^^^ s.lane (x + 20)

/-- Each lane takes in the two columns beside it. -/
def mixColumns (s : State) : State :=
  let sums : Vector UInt64 5 := Vector.ofFn fun x => column s x
  let effect : Vector UInt64 5 := Vector.ofFn fun x =>
    sums.get ⟨(x.val + 4) % 5, Nat.mod_lt _ (by decide)⟩ ^^^
      rotate (sums.get ⟨(x.val + 1) % 5, Nat.mod_lt _ (by decide)⟩) 1
  Vector.ofFn fun i => s[i] ^^^ effect.get ⟨i.val % 5, Nat.mod_lt _ (by decide)⟩

/-- Each lane is rotated and moved to its new place. -/
def moveLanes (s : State) : State :=
  Vector.ofFn fun i =>
    let x := i.val % 5
    let y := i.val / 5
    let place := (x + 3 * y) % 5 + 5 * x
    rotate (s.lane place) (rotations.getD place 0)

/-- Each lane takes in the two lanes after it in its row, not linearly. -/
def mixRows (s : State) : State :=
  Vector.ofFn fun i =>
    let row := 5 * (i.val / 5)
    s[i] ^^^ (~~~ s.lane (row + (i.val + 1) % 5) &&& s.lane (row + (i.val + 2) % 5))

/-- One round. -/
def round (s : State) (constant : UInt64) : State :=
  let mixed := mixRows (moveLanes (mixColumns s))
  mixed.set 0 (mixed.lane 0 ^^^ constant)

/-- The permutation of the state. -/
def permute (s : State) : State := roundConstants.foldl round s

/-- The number of bytes taken in at a time. -/
def rate : Nat := 136

/-- The message with a one bit, zeros and a last one bit, up to a whole number of blocks. -/
def pad (message : Bytes) : Bytes :=
  let room := rate - message.length % rate
  if room = 1 then message ++ [0x81]
  else message ++ 0x01 :: List.replicate (room - 2) 0 ++ [0x80]

/-- The word that eight bytes spell, least significant first. -/
def word (bytes : Bytes) : UInt64 := UInt64.ofNat (Bytes.toNat bytes.reverse)

/-- The bytes of a word, least significant first. -/
def wordBytes (x : UInt64) : Bytes := (Bytes.ofNat 8 x.toNat).reverse

/-- A block added to the first lanes. -/
def addBlock (s : State) (block : Bytes) : State :=
  Vector.ofFn fun i =>
    if i.val < rate / 8 then s[i] ^^^ word ((block.drop (8 * i.val)).take 8) else s[i]

/-- The state after the given number of blocks. -/
def absorb : Nat → State → Bytes → State
  | 0, s, _ => s
  | n + 1, s, bytes => absorb n (permute (addBlock s (bytes.take rate))) (bytes.drop rate)

/-- The hash as thirty-two bytes. -/
def hash (message : Bytes) : Bytes32 :=
  let padded := pad message
  let s := absorb (padded.length / rate) (Vector.replicate 25 0) padded
  ⟨wordBytes (s.lane 0) ++ wordBytes (s.lane 1) ++ wordBytes (s.lane 2) ++ wordBytes (s.lane 3), by
    simp [wordBytes, Width.size]⟩

end ContractHost.Keccak
