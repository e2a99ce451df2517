import ContractHost.Abi.ListText
import ContractHost.Abi.ValueText
import ContractHost.Decimal.Scaled
import ContractHost.Derivation
import ContractHost.Document.Value

/-!
# Decoded values for readers

A decoded value is shown as a truth value, a text, a decimal fraction or a list of these: integers in
decimal, bytes in hexadecimal, addresses with their check sum. The type's text directs how lists are
shown, and tells truth values from others; a truth value under another name is shown as text.

* `Shown.ofDatum`: what a value of a type shows.
* `Shown.toValue?`: the document of what is shown, if it has one.
-/

namespace ContractHost.Abi

/-- A decoded value as readers see it. -/
inductive Shown
  | bool (b : Bool)
  | text (t : Text)
  /-- An integer divided by a power of ten. -/
  | decimal (n : Int) (places : Nat)
  | list (items : List Shown)

instance : Inhabited Shown := ⟨.list []⟩

namespace Shown

mutual

/-- What is shown, as a document. A decimal fraction has no document. -/
def toValue? : Shown → Option Value
  | bool b => some (.bool b)
  | text t => some (.text t)
  | decimal .. => none
  | list items => do return .list (← toValues? items)

/-- What is shown, as documents. -/
def toValues? : List Shown → Option (List Value)
  | [] => some []
  | item :: rest => do
    let item ← item.toValue?
    let rest ← toValues? rest
    return item :: rest

end

/-- A value of a type that is neither an array nor a tuple. -/
def single (type : List Char) : Datum → Shown
  | .int n => text (Decimal.intText n)
  | .fraction n places => decimal n places
  | .bool b => if type = "bool".toList then bool b else text (Value.boolText b)
  | .address a => text (Derivation.checksum a)
  | .bytes bytes => text (Hex.encode bytes)
  | .string t => text t
  | .list _ => list []

/-- The text between the first parenthesis that opens and the last one that closes. -/
def insideTuple (type : List Char) : List Char :=
  let inner := (type.dropWhile (· ≠ '(')).drop 1
  ((inner.reverse.dropWhile (· ≠ ')')).drop 1).reverse

mutual

/-- What a value shows under a type's text. -/
def ofDatum (type : List Char) : Datum → Shown
  | .list items =>
    if endsWithBracket type then list (ofItems ((beforeLastBracket? type).getD []) items)
    else list (ofMembers (splitItems (insideTuple type)) items)
  | .int n => single type (.int n)
  | .fraction n places => single type (.fraction n places)
  | .bool b => single type (.bool b)
  | .address a => single type (.address a)
  | .bytes bytes => single type (.bytes bytes)
  | .string s => single type (.string s)

/-- What the items of an array show. -/
def ofItems (type : List Char) : List Datum → List Shown
  | [] => []
  | item :: rest => ofDatum type item :: ofItems type rest

/-- What the members of a tuple show, as far as there are types. -/
def ofMembers : List (List Char) → List Datum → List Shown
  | type :: types, item :: items => ofDatum type item :: ofMembers types items
  | _, _ => []

end

end Shown

end ContractHost.Abi
