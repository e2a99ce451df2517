import ContractHost.Document.Value

/-!
# Tables of TOML

A document builds tables within tables, a key leading from one to the next; a list on the way stands
for its last item. Marks on keys say what may no longer be done there.

* `within?`: the fields with a nested table changed.
* `Marks.isFrozen`: whether what is at a key was written out as a value.
-/

namespace ContractHost.Toml

/-- The fields of a table. -/
abbrev Fields := List (Text × Value)

/-- The fields with those of the nested table at a key changed. Tables that are missing are made. A
list stands for its last item if `lists` says so, and any other value is in the way. -/
def within? (lists : Bool) (change : Fields → Option Fields) :
    (key : List String) → Fields → Option Fields
  | [], fields => change fields
  | name :: key, fields =>
    match Value.field? fields name with
    | none => do
      let inner ← within? lists change key []
      return Value.setField fields name (.table inner)
    | some (.table inner) => do
      let inner ← within? lists change key inner
      return Value.setField fields name (.table inner)
    | some (.list items) =>
      match items.getLast? with
      | some (.table inner) =>
        if lists then do
          let inner ← within? lists change key inner
          return Value.setField fields name (.list (items.dropLast ++ [.table inner]))
        else none
      | _ => none
    | some _ => none

/-- The fields with a new one. -/
def addField? (name : String) (value : Value) (fields : Fields) : Option Fields :=
  match Value.field? fields name with
  | none => some (Value.setField fields name value)
  | some _ => none

/-- The fields with an empty table at the end of the list of a name. -/
def addItem? (name : String) (fields : Fields) : Option Fields :=
  match Value.field? fields name with
  | none => some (Value.setField fields name (.list [.table []]))
  | some (.list items) => some (Value.setField fields name (.list (items ++ [.table []])))
  | some _ => none

/-- The table with a value put at a key, where none may be. -/
def putAt? (lists : Bool) (key : List String) (value : Value) (fields : Fields) : Option Fields := do
  let name ← key.getLast?
  within? lists (addField? name value) key.dropLast fields

/-- Whether a value has items or fields of its own. -/
def holdsOthers (value : Value) : Bool :=
  match value with
  | .list _ => true
  | .table _ => true
  | _ => false

/-! ## Marks -/

/-- The marks on the keys of a document. -/
structure Marks where
  /-- Keys of lists and tables that were written out as values. -/
  frozen : List (List String) := []
  /-- Keys of tables that may not be declared again. -/
  declared : List (List String) := []
  /-- Keys that join `declared` where the next table begins. -/
  pending : List (List String) := []

namespace Marks

/-- Whether what is at a key belongs to a value that was written out. -/
def isFrozen (marks : Marks) (key : List String) : Bool := marks.frozen.any (·.isPrefixOf key)

/-- Whether the table at a key may not be declared again. -/
def isDeclared (marks : Marks) (key : List String) : Bool := marks.declared.contains key

/-- The marks with a key that was written out. -/
def freeze (marks : Marks) (key : List String) : Marks :=
  { marks with frozen := key :: marks.frozen }

/-- The marks with the key of a declared table. -/
def declare (marks : Marks) (key : List String) : Marks :=
  { marks with declared := key :: marks.declared }

/-- The marks with a key that joins the declared ones later. -/
def postpone (marks : Marks) (key : List String) : Marks :=
  { marks with pending := key :: marks.pending }

/-- The marks where a new table begins. -/
def settle (marks : Marks) : Marks :=
  { marks with declared := marks.pending ++ marks.declared, pending := [] }

/-- The marks without those on a key and on what is below it. -/
def release (marks : Marks) (key : List String) : Marks :=
  { marks with
    frozen := marks.frozen.filter (!key.isPrefixOf ·)
    declared := marks.declared.filter (!key.isPrefixOf ·) }

end Marks

end ContractHost.Toml
