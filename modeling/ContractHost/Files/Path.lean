import ContractHost.Text.Split

/-!
# Paths

A path is a sequence of names, from the root or from the working directory. Its text may have single
points and repeated or trailing slashes; they say nothing and are dropped. Two points are a name.

* `Path.text_empty`: the text of the path without names is a point.
-/

namespace ContractHost

/-- A path. -/
structure Path where
  /-- The slashes that the path begins with: none, one, or two. -/
  root : String := ""
  /-- The names. -/
  parts : List String := []
  deriving DecidableEq, Repr

namespace Path

instance : Inhabited Path := ⟨{}⟩

/-- The slashes that count as a root: exactly two stay two, any other number is one. -/
def rootOf : List Char → String
  | '/' :: '/' :: '/' :: _ => "/"
  | '/' :: '/' :: _ => "//"
  | '/' :: _ => "/"
  | _ => ""

/-- The path of a text. -/
def ofText (text : String) : Path where
  root := rootOf text.toList
  parts := ((Text.split '/' text.toList).map String.ofList).filter fun part => part ≠ "" && part ≠ "."

/-- The text of a path. -/
def text (path : Path) : String :=
  if path.root = "" ∧ path.parts = [] then "."
  else path.root ++ String.intercalate "/" path.parts

/-- Whether a path begins at the root. -/
def isAbsolute (path : Path) : Bool := path.root ≠ ""

/-- The last name, if there is one. -/
def name (path : Path) : String := path.parts.getLast?.getD ""

/-- The path without its last name. -/
def parent (path : Path) : Path := { path with parts := path.parts.dropLast }

/-- A path seen from another. -/
def join (path other : Path) : Path :=
  if other.isAbsolute then other else { path with parts := path.parts ++ other.parts }

theorem text_empty : ({} : Path).text = "." := rfl

end Path

end ContractHost
