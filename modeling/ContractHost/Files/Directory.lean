import ContractHost.Fault
import ContractHost.Files.Path
import ContractHost.OrderedMap

/-!
# Directories

A directory holds files and directories under names. The files that a program sees are kept as a map
from places, which are lists of names, to what stands there. A path leads to a place name by name, and
each name but the last has to be a directory; two points lead back.

* `Directory.read`, `Directory.write` and `Directory.append` work on the file at a path.
* `Directory.makeDirectories` makes a directory and those above it.
-/

namespace ContractHost

/-- What stands at a place. -/
inductive Entry
  | file (bytes : Bytes)
  | directory
  deriving DecidableEq

/-- A working directory and what is in it. -/
structure Directory where
  entries : OrderedMap (List String) Entry := ∅
  deriving DecidableEq

namespace Directory

instance : Inhabited Directory := ⟨{}⟩

/-- What stands at a place. -/
def find? (d : Directory) (place : List String) : Option Entry :=
  if place = [] then some .directory else d.entries.get? place

/-- The directory with something put at a place. -/
def put (d : Directory) (place : List String) (entry : Entry) : Directory :=
  { d with entries := d.entries.insert place entry }

/-- The greatest number of bytes of a name. -/
def maxNameSize : Nat := 255

/-- The place that names lead to from another. -/
def resolve (d : Directory) (place : List String) : List String → Except Fault (List String)
  | [] => .ok place
  | ".." :: rest => resolve d place.dropLast rest
  | name :: rest =>
    if maxNameSize < name.utf8ByteSize then .error .nameTooLong
    else if rest.isEmpty then .ok (place ++ [name])
    else
      match d.find? (place ++ [name]) with
      | none => .error .noFile
      | some (.file _) => .error .notDirectory
      | some .directory => resolve d (place ++ [name]) rest

/-- The place that a path leads to. A path from the root leads nowhere. -/
def placeOf (d : Directory) (path : Path) : Except Fault (List String) :=
  if path.parts.any (·.contains '\x00') then .error .badValue
  else if path.isAbsolute then .error .noFile
  else d.resolve [] path.parts

/-- What stands at a path, if anything. Some faults only say that there is nothing. -/
def look (d : Directory) (path : Path) : Except Fault (Option Entry) :=
  match d.placeOf path with
  | .ok place => .ok (d.find? place)
  | .error .noFile => .ok none
  | .error .notDirectory => .ok none
  | .error .badValue => .ok none
  | .error fault => .error fault

/-- The bytes of the file at a path. -/
def read (d : Directory) (path : Path) : Except Fault Bytes := do
  match d.find? (← d.placeOf path) with
  | some (.file bytes) => return bytes
  | some .directory => throw .isDirectory
  | none => throw .noFile

/-- The directory with the file at a path changed or made. -/
def change (d : Directory) (path : Path) (f : Bytes → Bytes) : Except Fault Directory := do
  let place ← d.placeOf path
  match d.find? place with
  | some (.file bytes) => return d.put place (.file (f bytes))
  | some .directory => throw .isDirectory
  | none => return d.put place (.file (f []))

/-- The directory with the bytes in the file at a path. -/
def write (d : Directory) (path : Path) (bytes : Bytes) : Except Fault Directory :=
  d.change path fun _ => bytes

/-- The directory with the bytes at the end of the file at a path. -/
def append (d : Directory) (path : Path) (bytes : Bytes) : Except Fault Directory :=
  d.change path fun before => before ++ bytes

/-- The directory with a new directory at a path. -/
def makeDirectory (d : Directory) (path : Path) : Except Fault Directory := do
  let place ← d.placeOf path
  match d.find? place with
  | some _ => throw .fileExists
  | none => return d.put place .directory

/-- Whether a directory stands at a path. -/
def isDirectory (d : Directory) (path : Path) : Bool :=
  match d.look path with
  | .ok (some .directory) => true
  | _ => false

/-- The outcome of making a directory that may already be there. -/
def settle (d : Directory) (path : Path) (fault : Fault) : Except Fault Unit × Directory :=
  if fault ≠ .noFile ∧ d.isDirectory path then (.ok (), d) else (.error fault, d)

/-- Makes the directory at a path whose names are given from the last to the first, and those above
it. What was made before a fault stays. -/
def makeAll (root : String) : (names : List String) → Directory → Except Fault Unit × Directory
  | [], d => (.ok (), d)
  | name :: above, d =>
    let path : Path := { root, parts := (name :: above).reverse }
    match d.makeDirectory path with
    | .ok d => (.ok (), d)
    | .error .noFile =>
      match makeAll root above d with
      | (.ok (), d) =>
        match d.makeDirectory path with
        | .ok d => (.ok (), d)
        | .error fault => d.settle path fault
      | failed => failed
    | .error fault => d.settle path fault

/-- Makes the directory at a path and those above it. -/
def makeDirectories (d : Directory) (path : Path) : Except Fault Unit × Directory :=
  makeAll path.root path.parts.reverse d

end Directory

end ContractHost
