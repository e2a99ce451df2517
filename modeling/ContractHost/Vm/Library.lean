import ContractHost.Environment
import ContractHost.Files.System
import ContractHost.Vm.Instance

/-!
# Libraries of interpreters

An interpreter is in a library, which is a file. A name with a directory is the path of the file. A bare
name is looked for in the directories that a variable of the environment lists, and then in others. The
library has a function that makes an instance; unless its name is given, it follows from that of the
file.

* `findLibrary`: the file of a library.
* `createSymbol`: the name of the function that a library's file stands for.
* `Vm.load`: an instance from a library.
-/

namespace ContractHost

variable {m : Type → Type} [Monad m]

/-- What is in a library that was opened. -/
structure Library where
  /-- The names of its functions. -/
  symbols : List String
  /-- What its functions make. -/
  instance? : Option VmDescription

/-- How an instance fails to be loaded. -/
abbrev VmFailure := WithFault VmError

/-! ## Files -/

/-- The directories where libraries are looked for last. -/
def libraryDirectories : List String := ["/usr/lib", "/usr/local/lib"]

/-- The directories of a list with colons between them. -/
def listedDirectories (text : String) : List String :=
  ((Text.split ':' text.toList).map String.ofList).filter (· ≠ "")

/-- Whether a file is at a path. -/
def isFile (files : FileSystem m) (path : Path) : m (Except Fault Bool) := do
  return (← files.isFile? path).map (· == some true)

/-- The first of the paths that leads to a file. -/
def firstFile (files : FileSystem m) : List Path → m (Except Fault (Option Path))
  | [] => return .ok none
  | path :: rest => do
    match ← isFile files path with
    | .error fault => return .error fault
    | .ok true => return .ok (some path)
    | .ok false => firstFile files rest

/-- The paths where a library may be. -/
def candidates (env : Environment) (name : String) (directories : List String) : List Path :=
  let path := Path.ofText name
  if path.parent = {} then
    let listed := ((env.set? "LD_LIBRARY_PATH").map listedDirectories).getD []
    (listed ++ directories).map fun directory => (Path.ofText directory).join path
  else [path]

/-- The file of a library. -/
def findLibrary (files : FileSystem m) (env : Environment) (name : String)
    (directories : List String) : m (Except VmFailure Path) := do
  match ← firstFile files (candidates env name directories) with
  | .error fault => return .error (.escaped fault)
  | .ok none => return .error (.error (.notFound name))
  | .ok (some path) => return .ok path

/-! ## Names -/

/-- A text without `lib` in front. -/
def withoutLib : List Char → List Char
  | 'l' :: 'i' :: 'b' :: rest => rest
  | text => text

/-- The name of the function that a library's file stands for: that of the file up to its first point,
without `lib` in front. -/
def createSymbol (path : Path) : Except VmError String :=
  let name := withoutLib (path.name.toList.takeWhile (· ≠ '.'))
  if name = [] then .error (.noSymbol path.text)
  else .ok ("evmc_create_" ++ String.ofList (name.map fun c => if c = '-' then '_' else c))

/-- The words that cannot be the name of a function. -/
def reservedWords : List String :=
  ["auto", "break", "case", "char", "const", "continue", "default", "do", "double", "else", "enum",
   "extern", "float", "for", "goto", "if", "inline", "int", "long", "register", "restrict", "return",
   "short", "signed", "sizeof", "static", "struct", "switch", "typedef", "union", "unsigned", "void",
   "volatile", "while"]

/-- Whether a text can be the name of a function: letters, digits and underscores, no digit in
front. -/
def isSymbol (text : String) : Bool :=
  let isLetter (c : Char) : Bool := c.isAlpha || c = '_' || c = '$'
  (match text.toList with
    | c :: rest => isLetter c && rest.all fun c => isLetter c || c.isDigit
    | [] => false) &&
  !reservedWords.contains text

/-! ## Loading -/

/-- The instance that a function of an opened library makes. -/
def Library.create (path : Path) (symbol : String) (opened : Except Fault Library) :
    Except VmError Vm :=
  match opened with
  | .error fault => .error (.notLoaded path.text fault)
  | .ok library =>
    if library.symbols.contains symbol then Vm.ofDescription? library.instance?
    else .error (.notLoaded path.text .noOperation)

/-- An instance from a library, and the path of its file. The name of the function follows from the
file if none is given. -/
def Vm.load (files : FileSystem m) (env : Environment) (openLibrary : Path → Except Fault Library)
    (name symbol : String) : m (Except VmFailure (Vm × Path)) := do
  match ← findLibrary files env name libraryDirectories with
  | .error failure => return .error failure
  | .ok path => return do
    let symbol ← ownError (if symbol = "" then createSymbol path else .ok symbol)
    if isSymbol symbol then
      return (← ownError (Library.create path symbol (openLibrary path)), path)
    else throw (.escaped .notSymbol)

end ContractHost
