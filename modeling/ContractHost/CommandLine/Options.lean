import ContractHost.CommandLine.Error
import ContractHost.Text.Integer

/-!
# Options

An option has names and takes a number of values, none if it is a flag. The values follow its name; the
first may also be part of the same argument, after an equals sign if the name is long, and at once if
it is short. A value may look like an option. Two dashes alone end the options. In a command options and
other arguments may come in any order; before the name of a command the first other argument ends the
options.

* `parse`: the options that are given, and the other arguments.
* `length_parse`: there are no more other arguments than arguments.
-/

namespace ContractHost.CommandLine

/-- What a value of an option has to be. -/
inductive Expectation
  | anything
  | integer
  /-- The path of a file, or one where nothing is. -/
  | noDirectory
  /-- The path of a file. -/
  | file
  deriving DecidableEq, Repr

/-- An option of a command. -/
structure Opt where
  /-- The name that begins with two dashes. -/
  name : String
  /-- The character of the name that begins with one. -/
  short : Option Char := none
  /-- The number of values. -/
  arity : Nat := 1
  expected : Expectation := .anything
  required : Bool := false
  deriving DecidableEq, Repr

/-- An option that is given, and its values. -/
structure Given where
  name : String
  values : List String
  deriving DecidableEq, Repr

/-! ## Reading arguments -/

/-- Whether an argument looks like an option. -/
def looksLikeOption (arg : String) : Bool :=
  match arg.toList with
  | '-' :: _ :: _ => true
  | _ => false

/-- A text up to its first equals sign, and what follows the sign if there is one. -/
def splitEquals (text : List Char) : String × Option String :=
  let name := String.ofList (text.takeWhile (· ≠ '='))
  match text.dropWhile (· ≠ '=') with
  | _ :: value => (name, some (String.ofList value))
  | [] => (name, none)

/-- The option that an argument names, and the value in the same argument. -/
def readName (options : List Opt) (arg : String) : Except UsageError (Opt × Option String) :=
  let (name, attached) := splitEquals arg.toList
  match options.find? (·.name = name), arg.toList with
  | some option, _ => .ok (option, attached)
  | none, '-' :: c :: rest =>
    match options.find? (·.short = some c) with
    | some option => .ok (option, if rest.isEmpty then none else some (String.ofList rest))
    | none => .error (.unknownOption arg)
  | none, _ => .error (.unknownOption arg)

/-- The values of an option, some of them from the arguments that follow it, and how many of these. -/
def takeValues (option : Opt) (attached : Option String) (args : List String) :
    Except UsageError (List String × Nat) :=
  let first := attached.toList
  let count := option.arity - first.length
  if option.arity < first.length then .error (.unexpectedValue option.name)
  else if args.length < count then .error (.missingValue option.name)
  else .ok (first ++ args.take count, count)

/-- The options that are given, and the other arguments. -/
def parse (options : List Opt) (anyOrder : Bool) (args : List String) :
    Except UsageError (List Given × List String) :=
  match args with
  | [] => .ok ([], [])
  | arg :: rest =>
    if arg = "--" then .ok ([], rest)
    else if looksLikeOption arg then do
      let (option, attached) ← readName options arg
      let (values, count) ← takeValues option attached rest
      let (given, others) ← parse options anyOrder (rest.drop count)
      return (⟨option.name, values⟩ :: given, others)
    else if anyOrder then do
      let (given, others) ← parse options anyOrder rest
      return (given, arg :: others)
    else .ok ([], arg :: rest)
termination_by args.length
decreasing_by
  · simp only [List.length_drop, List.length_cons]
    omega
  · simp

/-! ## What is given -/

/-- The options that are given. -/
abbrev Arguments := List Given

namespace Arguments

/-- The values of each time that an option is given. -/
def all (args : Arguments) (name : String) : List (List String) :=
  (args.filter (·.name = name)).map (·.values)

/-- Whether an option is given. -/
def has (args : Arguments) (name : String) : Bool := !(args.all name).isEmpty

/-- The value of an option: of several the last one. -/
def text? (args : Arguments) (name : String) : Option String :=
  (args.all name).getLast?.bind List.head?

/-- The value of an option that says something. -/
def set? (args : Arguments) (name : String) : Option String :=
  (args.text? name).filter (· ≠ "")

/-- The first values of each time that an option is given. -/
def texts (args : Arguments) (name : String) : List Text :=
  ((args.all name).filterMap List.head?).map .plain

/-- The second values of each time that an option is given. -/
def seconds (args : Arguments) (name : String) : List Text :=
  ((args.all name).filterMap (·[1]?)).map .plain

end Arguments

/-! ## Checks -/

variable {m : Type → Type} [Monad m]

/-- Whether a path says in its last part that it leads to a directory. -/
def endsInside (text : String) : Bool :=
  match (Text.split '/' text.toList).getLast? with
  | some part => part.isEmpty || part = ['.']
  | none => true

/-- Whether a value is what it has to be. -/
def Expectation.holds (files : FileSystem m) (value : String) : Expectation → m Bool
  | .anything => return true
  | .integer => return (Text.integer? 10 value.toList).isSome
  | .noDirectory => do
    let found ← files.isFile? (.ofText value)
    return value = "" || !(found matches .ok (some false))
  | .file => do
    let found ← files.isFile? (.ofText value)
    return !endsInside value && found matches .ok (some true)

/-- Whether a value that has to be a path cannot be one at all. -/
def Expectation.excludes (value : String) : Expectation → Bool
  | .anything | .integer => false
  | .noDirectory | .file => value.toList.contains '\x00'

/-- Checks what is given for an option. -/
def checkOption (files : FileSystem m) (args : Arguments) (option : Opt) :
    ExceptT CommandError m Unit := do
  match args.text? option.name with
  | none =>
    if option.required && !args.has option.name then
      throw (.usage (.missingOption option.name))
  | some value =>
    if option.expected.excludes value then throw (.ofFault .badValue)
    let holds ← ExceptT.lift (option.expected.holds files value)
    if !holds then throw (.usage (.badValue option.name value))

/-- The options that a command is given, if they are right. -/
def readArguments (files : FileSystem m) (options : List Opt) (args : List String) :
    ExceptT CommandError m Arguments := do
  match parse options true args with
  | .error error => throw (.usage error)
  | .ok (given, others) =>
    options.forM (checkOption files given)
    match others with
    | [] => return given
    | extra :: _ => throw (.usage (.extraArgument extra))

end ContractHost.CommandLine
