import ContractHost.Decimal.Shortest
import ContractHost.Document.Moment
import ContractHost.OrderedMap
import ContractHost.Text.Quoted

/-!
# Values of documents

What a document holds: nothing, truth values, numbers, texts, moments, lists, and tables whose fields
keep their order. `Value.display` is the form in which a message shows a value.
-/

namespace ContractHost

/-- A value of a document. -/
inductive Value
  | null
  | bool (b : Bool)
  | int (n : Int)
  | float (x : Binary64)
  | text (t : Text)
  | moment (m : Moment)
  | list (items : List Value)
  | table (fields : List (Text × Value))

namespace Value

instance : Inhabited Value := ⟨null⟩

/-- The value of a field. -/
def field? (fields : List (Text × Value)) (name : String) : Option Value :=
  OrderedMap.lookup fields (.plain name)

/-- A field put into a table: in the place of one with its name, or at the end. -/
def setField (fields : List (Text × Value)) (name : Text) (value : Value) :
    List (Text × Value) :=
  OrderedMap.put fields name value

/-- The text of a truth value. -/
def boolText (b : Bool) : String := if b then "True" else "False"

mutual

/-- A value as messages show it. -/
def display : Value → String
  | null => "None"
  | bool b => boolText b
  | int n => Decimal.intText n
  | float x => x.text "nan" "inf"
  | text t => Text.quoted t
  | moment m => m.display
  | list items => "[" ++ String.intercalate ", " (displayItems items) ++ "]"
  | table fields => "\x7b" ++ String.intercalate ", " (displayFields fields) ++ "\x7d"

/-- The items of a list as messages show them. -/
def displayItems : List Value → List String
  | [] => []
  | item :: rest => item.display :: displayItems rest

/-- The fields of a table as messages show them. -/
def displayFields : List (Text × Value) → List String
  | [] => []
  | (name, value) :: rest => (Text.quoted name ++ ": " ++ value.display) :: displayFields rest

end

/-- A value inside a message's text: a text as it is, a moment by its numbers, and others as messages
show them. -/
def plain : Value → Text
  | text t => t
  | moment m => m.iso
  | value => value.display

/-- Whether a value counts as true: neither nothing, nor false, nor zero, nor empty. -/
def truthy : Value → Bool
  | null => false
  | bool b => b
  | int n => n ≠ 0
  | float (.finite _ mantissa _) => mantissa ≠ 0
  | float _ => true
  | text t => t ≠ .plain ""
  | moment _ => true
  | list items => !items.isEmpty
  | table fields => !fields.isEmpty

end Value

end ContractHost
