import ContractHost.Abi.Datum
import ContractHost.Text.Utf8

/-!
# Decoding

Values are read from words of thirty-two bytes at given positions. Reading is strict: what a word does
not need has to be zero, or the sign of a negative number. Before the members of a tuple or the items
of an array are read, a first pass looks at all their offsets: each has to lead behind the head and
into the data. The first pass over a tuple also reads the members that stand in the head.

* `decode`: the value at a position and the position after it.
* `decodeAll`: the values of a list of types.
-/

namespace ContractHost.Abi

/-- What is read, and the position after it. -/
abbrev Read := Except Fault (Datum × Nat)

/-- The word at a position. -/
def wordAt (data : Bytes) (position : Nat) : Except Fault Bytes :=
  let word := (data.drop position).take 32
  if word.length = 32 then .ok word else .error .shortData

/-- The number at a position. -/
def numberAt (data : Bytes) (position : Nat) : Except Fault Nat := do
  return Bytes.toNat (← wordAt data position)

/-- A number read as two's complement on so many bits. -/
def signed (bits n : Nat) : Int := if n < twoTo (bits - 1) then n else (n : Int) - twoTo bits

/-! ## Values in one word -/

/-- A natural number on so many bits. -/
def unsignedAt (data : Bytes) (bits position : Nat) : Except Fault Nat := do
  let n ← numberAt data position
  if n < twoTo bits then return n else .error .dirtyPadding

/-- An integer on so many bits. -/
def signedAt (data : Bytes) (bits position : Nat) : Except Fault Int := do
  let n ← numberAt data position
  let value := signed bits (n % twoTo bits)
  if signed 256 n = value then return value else .error .dirtyPadding

/-- Bytes of a fixed number. -/
def fixedBytesAt (data : Bytes) (size position : Nat) : Except Fault Bytes := do
  let word ← wordAt data position
  if (word.drop size).all (· == 0) then return word.take size else .error .dirtyPadding

/-- The address that a number is. -/
def addressAt (data : Bytes) (position : Nat) : Except Fault Address := do
  return .addressOfNat (← unsignedAt data 160 position)

/-- A truth value. -/
def boolAt (data : Bytes) (position : Nat) : Except Fault Bool := do
  return (← unsignedAt data 1 position) = 1

/-! ## Values behind their length -/

/-- Bytes behind their number, with zeros up to a whole number of words. -/
def bytesAt (data : Bytes) (position : Nat) : Except Fault Bytes := do
  let size ← numberAt data position
  let padded := (size + 31) / 32 * 32
  if greatestSize < padded then .error .outOfRange
  else
    let block := (data.drop (position + 32)).take padded
    if block.length < padded then .error .shortData
    else if (block.drop size).all (· == 0) then return block.take size
    else .error .dirtyPadding

/-- The position after bytes behind their number. -/
def afterBytes (position size : Nat) : Nat := position + 32 + (size + 31) / 32 * 32

/-- Text behind the number of its bytes. -/
def stringAt (data : Bytes) (position : Nat) : Except Fault (List Char × Nat) := do
  let bytes ← bytesAt data position
  match Utf8.decode? bytes with
  | some text => return (text, afterBytes position bytes.length)
  | none => .error .notUtf8

/-! ## Offsets -/

/-- Checks the offset of a member: from the start it leads behind the head and into the data. -/
def checkOffset (data : Bytes) (start slots offset : Nat) : Except Fault Unit :=
  if 32 * slots ≤ offset ∧ start + offset < data.length then .ok () else .error .badPointer

/-- Checks so many offsets that stand one after another. -/
def checkOffsets (data : Bytes) (start slots : Nat) :
    (count : Nat) → (position : Nat) → Except Fault Unit
  | 0, _ => .ok ()
  | count + 1, position => do
    checkOffset data start slots (← numberAt data position)
    checkOffsets data start slots count (position + 32)

/-- Reads a value that stands at an offset from the start. -/
def readTail (data : Bytes) (start : Nat) (read : Nat → Read) (position : Nat) : Read := do
  let offset ← numberAt data position
  let (value, _) ← read (start + offset)
  return (value, position + 32)

/-- Reads so many values one after another. -/
def readItems (read : Nat → Read) :
    (count : Nat) → (position : Nat) → Except Fault (List Datum × Nat)
  | 0, position => .ok ([], position)
  | count + 1, position => do
    let (item, position) ← read position
    let (items, position) ← readItems read count position
    return (item :: items, position)

/-- Reads the items of an array that starts at a position. -/
def readArray (data : Bytes) (dynamic : Bool) (read : Nat → Read) (count start : Nat) : Read := do
  if dynamic then
    checkOffsets data start count count start
    let (items, next) ← readItems (readTail data start read) count start
    return (.list items, next)
  else
    let (items, next) ← readItems read count start
    return (.list items, next)

/-! ## All types -/

/-- How many words the head of a tuple counts for. -/
def slots : List AbiType → Nat
  | [] => 0
  | type :: rest => type.headSlots + slots rest

mutual

/-- The value at a position and the position after it. -/
def decode (data : Bytes) : AbiType → (position : Nat) → Read
  | .uint bits, position => do return (.int (← unsignedAt data bits position), position + 32)
  | .int bits, position => do return (.int (← signedAt data bits position), position + 32)
  | .bool, position => do return (.bool (← boolAt data position), position + 32)
  | .address, position => do return (.address (← addressAt data position), position + 32)
  | .ufixed bits places, position => do
    return (.fraction (← unsignedAt data bits position) places, position + 32)
  | .fixed bits places, position => do
    return (.fraction (← signedAt data bits position) places, position + 32)
  | .bytesN size, position => do return (.bytes (← fixedBytesAt data size position), position + 32)
  | .bytes, position => do
    let bytes ← bytesAt data position
    return (.bytes bytes, afterBytes position bytes.length)
  | .string, position => do
    let (text, next) ← stringAt data position
    return (.string (.ofChars text), next)
  | .array item none, position => do
    let count ← numberAt data position
    readArray data item.isDynamic (decode data item) count (position + 32)
  | .array item (some size), position =>
    readArray data item.isDynamic (decode data item) size position
  | .tuple types, position => do
    scanHead data position (slots types) types position
    let (items, next) ← decodeMembers data position types position
    return (.list items, next)

/-- The first pass over the members of a tuple. -/
def scanHead (data : Bytes) (start slots : Nat) :
    List AbiType → (position : Nat) → Except Fault Unit
  | [], _ => .ok ()
  | type :: types, position => do
    if type.isDynamic then
      checkOffset data start slots (← numberAt data position)
      scanHead data start slots types (position + 32)
    else
      let (_, position) ← decode data type position
      scanHead data start slots types position

/-- The members of a tuple, from a position on. -/
def decodeMembers (data : Bytes) (start : Nat) :
    List AbiType → (position : Nat) → Except Fault (List Datum × Nat)
  | [], position => .ok ([], position)
  | type :: types, position => do
    let (item, position) ←
      if type.isDynamic then readTail data start (decode data type) position
      else decode data type position
    let (items, position) ← decodeMembers data start types position
    return (item :: items, position)

end

/-- The values of a list of types. What follows them in the data is of no interest. -/
def decodeAll (types : List AbiType) (data : Bytes) : Except Fault (List Datum) := do
  scanHead data 0 (slots types) types 0
  let (items, _) ← decodeMembers data 0 types 0
  return items

end ContractHost.Abi
