import ContractHost.Abi.Datum
import ContractHost.Text.Utf8

/-!
# Encoding

A value is written on words of thirty-two bytes. A list of values is written as a head and a tail:
values of a fixed length stand in the head, and the others in the tail with their distance from the
start of the head in their place. All values are checked before anything is written.

* `check`: whether a value fits its type.
* `encode`: the bytes of a value.
* `encodeAll`: the bytes of a list of values.
-/

namespace ContractHost.Abi

/-- A number on one word. -/
def numberWord (n : Nat) : Bytes := Bytes.ofNat 32 n

/-- An integer on one word, in two's complement. -/
def intWord (n : Int) : Bytes := numberWord (n % twoTo 256).toNat

/-- Bytes with zeros up to a whole number of words. -/
def padToWords (bytes : Bytes) : Bytes :=
  Bytes.padRight ((bytes.length + 31) / 32 * 32) bytes

/-- Bytes behind their number. -/
def counted (bytes : Bytes) : Bytes := numberWord bytes.length ++ padToWords bytes

/-! ## Heads and tails -/

/-- The bytes of a member, and whether they stand in the tail. -/
structure Part where
  dynamic : Bool
  bytes : Bytes

/-- How many bytes of the head a member takes. -/
def Part.headSize (part : Part) : Nat := if part.dynamic then 32 else part.bytes.length

/-- The head, given where the next dynamic member begins. -/
def headOf : (next : Nat) → List Part → Bytes
  | _, [] => []
  | next, part :: rest =>
    if part.dynamic then numberWord next ++ headOf (next + part.bytes.length) rest
    else part.bytes ++ headOf next rest

/-- The tail. -/
def tailOf (parts : List Part) : Bytes :=
  (parts.filter (·.dynamic)).flatMap (·.bytes)

/-- The size of the head. -/
def headSize : List Part → Nat
  | [] => 0
  | part :: rest => part.headSize + headSize rest

/-- The head and the tail. -/
def join (parts : List Part) : Bytes := headOf (headSize parts) parts ++ tailOf parts

/-! ## Checks -/

/-- A check that a condition holds. -/
def require (condition : Bool) (fault : Fault) : Except Fault Unit :=
  if condition then .ok () else .error fault

/-- Whether a natural number has so many bits. -/
def fitsUnsigned (bits : Nat) (n : Int) : Bool := 0 ≤ n && n < twoTo bits

/-- Whether an integer has so many bits with its sign. -/
def fitsSigned (bits : Nat) (n : Int) : Bool := -twoTo (bits - 1) ≤ n && n < twoTo (bits - 1)

mutual

/-- Checks that a value fits its type. -/
def check : AbiType → Datum → Except Fault Unit
  | .uint bits, .int n => require (fitsUnsigned bits n) .valueBounds
  | .int bits, .int n => require (fitsSigned bits n) .valueBounds
  | .ufixed bits places, .fraction n p =>
    require (p = places && fitsUnsigned bits n) .valueBounds
  | .fixed bits places, .fraction n p => require (p = places && fitsSigned bits n) .valueBounds
  | .bool, .bool _ => .ok ()
  | .address, .address _ => .ok ()
  | .bytesN size, .bytes bytes => require (bytes.length ≤ size) .valueBounds
  | .bytes, .bytes _ => .ok ()
  | .string, .string _ => .ok ()
  | .array item size, .list items => do
    require (size.all (items.length = ·)) .valueBounds
    checkItems item items
  | .tuple types, .list items => checkMembers types items
  | _, _ => .error .valueKind

/-- Checks that values fit a type. -/
def checkItems (type : AbiType) : List Datum → Except Fault Unit
  | [] => .ok ()
  | item :: rest => do
    check type item
    checkItems type rest

/-- Checks that there is one value for each type, and that it fits. -/
def checkMembers : List AbiType → List Datum → Except Fault Unit
  | [], [] => .ok ()
  | type :: types, item :: items => do
    check type item
    checkMembers types items
  | _, _ => .error .valueBounds

end

/-! ## Encodings -/

mutual

/-- The bytes of a value. Texts with a half that stands alone have none. -/
def encode : AbiType → Datum → Except Fault Bytes
  | _, .int n => .ok (intWord n)
  | _, .fraction n _ => .ok (intWord n)
  | _, .bool b => .ok (numberWord (if b then 1 else 0))
  | _, .address a => .ok (List.replicate 12 0 ++ a.bytes)
  | .bytesN _, .bytes bytes => .ok (Bytes.padRight 32 bytes)
  | _, .bytes bytes => .ok (counted bytes)
  | _, .string text =>
    match Utf8.encode? text with
    | some bytes => .ok (counted bytes)
    | none => .error .nonAscii
  | .array item none, .list items => do
    let parts ← encodeItems item items
    return numberWord items.length ++ join parts
  | .array item (some _), .list items => do return join (← encodeItems item items)
  | .tuple types, .list items => do return join (← encodeMembers types items)
  | _, .list _ => .error .valueKind

/-- The bytes of values of one type. -/
def encodeItems (type : AbiType) : List Datum → Except Fault (List Part)
  | [] => .ok []
  | item :: rest => do
    let bytes ← encode type item
    let parts ← encodeItems type rest
    return { dynamic := type.isDynamic, bytes } :: parts

/-- The bytes of values, each of its type. -/
def encodeMembers : List AbiType → List Datum → Except Fault (List Part)
  | type :: types, item :: items => do
    let bytes ← encode type item
    let parts ← encodeMembers types items
    return { dynamic := type.isDynamic, bytes } :: parts
  | _, _ => .ok []

end

/-- The bytes of a list of values. -/
def encodeAll (types : List AbiType) (values : List Datum) : Except Fault Bytes := do
  checkMembers types values
  let data := join (← encodeMembers types values)
  if greatestSize < data.length then throw .outOfRange
  return data

end ContractHost.Abi
