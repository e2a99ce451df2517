import ContractHost.Abi.Type
import ContractHost.Bytes.Fixed

/-!
# Contract values

What a type's encoding carries.
-/

namespace ContractHost.Abi

/-- A contract value. -/
inductive Datum
  /-- An integer of any type. -/
  | int (n : Int)
  /-- An integer divided by a power of ten. -/
  | fraction (n : Int) (places : Nat)
  /-- A truth value. -/
  | bool (b : Bool)
  /-- An address. -/
  | address (a : Address)
  /-- Bytes. -/
  | bytes (bytes : Bytes)
  /-- Text. -/
  | string (text : Text)
  /-- The items of an array or a tuple. -/
  | list (items : List Datum)

instance : Inhabited Datum := ⟨.list []⟩

/-- The greatest number of bytes that there can be in one piece. -/
def greatestSize : Nat := twoTo 63 - 1

end ContractHost.Abi
