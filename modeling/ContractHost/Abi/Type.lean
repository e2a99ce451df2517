import ContractHost.Abi.TypeText
import ContractHost.Fault

/-!
# Types of contract values

The types that have an encoding, and the way from a type's text to one of them. A text may follow the
grammar and still be no type: its sizes may be wrong, or no coder may have its name. Of several faults
the order is: a name that no coder has in a type that stands alone, then wrong sizes anywhere, then
unknown names inside arrays and tuples.

* `AbiType.ofText`: the type that a text means.
-/

namespace ContractHost.Abi

/-- A type with an encoding. -/
inductive AbiType
  /-- Natural numbers on so many bits. -/
  | uint (bits : Nat)
  /-- Integers in two's complement on so many bits. -/
  | int (bits : Nat)
  /-- Truth values. -/
  | bool
  /-- Addresses. -/
  | address
  /-- Natural numbers on so many bits, divided by a power of ten. -/
  | ufixed (bits places : Nat)
  /-- Integers on so many bits, divided by a power of ten. -/
  | fixed (bits places : Nat)
  /-- Bytes of a fixed number. -/
  | bytesN (size : Nat)
  /-- Bytes of any number. -/
  | bytes
  /-- Text. -/
  | string
  /-- Lists of one type, of a fixed length if there is one. -/
  | array (item : AbiType) (size : Option Nat)
  /-- Lists of one value of each type. -/
  | tuple (components : List AbiType)

namespace AbiType

mutual

/-- Whether values of a type differ in the length of their encoding. -/
def isDynamic : AbiType → Bool
  | bytes => true
  | string => true
  | array _ none => true
  | array item (some _) => item.isDynamic
  | tuple components => anyDynamic components
  | _ => false

/-- Whether one of some types is dynamic. -/
def anyDynamic : List AbiType → Bool
  | [] => false
  | type :: rest => type.isDynamic || anyDynamic rest

end

/-- How many words a member counts for in the head of a tuple: an array of a fixed size as many as it
has items, however large they are. -/
def headSlots : AbiType → Nat
  | array item (some size) => if item.isDynamic then 1 else size
  | _ => 1

end AbiType

namespace TypeText

/-- The names that coders have. -/
def knownNames : List String :=
  ["uint", "int", "address", "bool", "ufixed", "fixed", "bytes", "function", "string"]

/-- Whether a size is a number of whole bytes up to 256 bits. -/
def isBitSize (bits : Nat) : Bool := 8 ≤ bits && bits ≤ 256 && bits % 8 == 0

/-- Whether what follows a name makes sense. Names that no coder has are not looked at, but for
`hash`. -/
def fits (name : String) (suffix : Suffix) : Bool :=
  match name, suffix with
  | "string", suffix => suffix == .none
  | "address", suffix => suffix == .none
  | "bytes", .none => true
  | "bytes", .one size => size ≤ 32
  | "bytes", .two .. => false
  | "int", .one bits => isBitSize bits
  | "int", _ => false
  | "uint", .one bits => isBitSize bits
  | "uint", _ => false
  | "fixed", .two bits places => isBitSize bits && 1 ≤ places && places ≤ 80
  | "fixed", _ => false
  | "ufixed", .two bits places => isBitSize bits && 1 ≤ places && places ≤ 80
  | "ufixed", _ => false
  | "hash", .one _ => true
  | "hash", _ => false
  | _, _ => true

mutual

/-- Whether all sizes in a type make sense. -/
def allFit : TypeText → Bool
  | .basic name suffix => fits name suffix
  | .tuple components => allFitIn components
  | .array item _ => item.allFit

/-- Whether all sizes in some types make sense. -/
def allFitIn : List TypeText → Bool
  | [] => true
  | type :: rest => type.allFit && allFitIn rest

end

/-- The type of a name and its suffix, both written out and known to fit. -/
def coderOf (name : String) (suffix : Suffix) : Except Fault AbiType :=
  match name, suffix with
  | "uint", .one bits => .ok (.uint bits)
  | "int", .one bits => .ok (.int bits)
  | "ufixed", .two bits places => .ok (.ufixed bits places)
  | "fixed", .two bits places => .ok (.fixed bits places)
  | "bytes", .one size => .ok (.bytesN size)
  | "bytes", .none => .ok .bytes
  | "string", .none => .ok .string
  | "address", .none => .ok .address
  | "bool", _ => .ok .bool
  | "function", _ => .error .badValue
  | _, _ => .error .typeUnknown

mutual

/-- The type of a text that is written out and known to fit. -/
def coder : TypeText → Except Fault AbiType
  | .basic name suffix => coderOf name suffix
  | .tuple components => do return .tuple (← coders components)
  | .array item size => do return .array (← item.coder) size

/-- The types of texts that are written out and known to fit. -/
def coders : List TypeText → Except Fault (List AbiType)
  | [] => .ok []
  | type :: rest => do
    let type ← type.coder
    let rest ← coders rest
    return type :: rest

end

/-- Whether a type is a name alone that no coder has. -/
def isUnknown : TypeText → Bool
  | .basic name _ => !knownNames.contains name
  | _ => false

/-- The type that a written type means. -/
def resolve (type : TypeText) : Except Fault AbiType :=
  if type.isUnknown then .error .typeUnknown
  else if type.expand.allFit then type.expand.coder
  else .error .typeShape

end TypeText

namespace AbiType

/-- Whether a text has an empty pair of parentheses. -/
def hasEmptyTuple : List Char → Bool
  | '(' :: ')' :: _ => true
  | _ :: rest => hasEmptyTuple rest
  | [] => false

/-- The type that a text means. -/
def ofText (text : List Char) : Except Fault AbiType :=
  match TypeText.read? text with
  | some type => type.resolve
  | none => if hasEmptyTuple text then .error .badValue else .error .typeGrammar

end AbiType

end ContractHost.Abi
