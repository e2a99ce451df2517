import ContractHost.CommandLine.Options

/-!
# Commands

The commands by name and their options. Five work on the state; the others code values for contracts and
stand in groups of their own. The name of a group is followed by the name of a command in it.

* `resolve`: the command that arguments name, and its own arguments.
-/

namespace ContractHost.CommandLine

/-- A command on the state. -/
inductive StateCommand
  | create
  | call
  | list
  | inspect
  | remove
  deriving DecidableEq, Repr

/-- A command that codes values. -/
inductive CodingCommand
  | encodeParams
  | encodeFunction
  | encodeConstructor
  | decodeParams
  | decodeFunction
  | decodeLog
  deriving DecidableEq, Repr

/-- A command. -/
inductive Command
  | state (command : StateCommand)
  | coding (command : CodingCommand)
  deriving DecidableEq, Repr

/-! ## Options -/

/-- The options before the name of a command. -/
def groupOptions : List Opt :=
  [{ name := "--config", short := some 'c', expected := .noDirectory }, { name := "--vm" },
   { name := "--log-level" }]

/-- The option for the state to read. -/
def inputOption : Opt := { name := "--input-storage", expected := .noDirectory }

/-- The options for the states to read and to write. -/
def storageOptions : List Opt :=
  [inputOption, { name := "--output-storage", expected := .noDirectory }]

/-- The option for the amount of gas. -/
def gasOption : Opt := { name := "--gas", expected := .integer }

/-- An option that has to be given. -/
def required (name : String) : Opt := { name, required := true }

/-- The option for the description of a contract. -/
def fileOption : Opt := { name := "--file", expected := .file, required := true }

/-- The option against short forms of values. -/
def strictOption : Opt := { name := "--no-lenient", arity := 0 }

/-- The options of a command. -/
def Command.options : Command → List Opt
  | .state .create => [required "--code", { name := "--address" }, gasOption] ++ storageOptions
  | .state .call =>
    [required "--address", { name := "--input-data" }, { name := "--sender" },
     { name := "--static", arity := 0 }, gasOption] ++ storageOptions
  | .state .list => [inputOption]
  | .state .inspect => [required "--address", inputOption]
  | .state .remove => required "--address" :: storageOptions
  | .coding .encodeParams => [{ name := "--param", arity := 2, required := true }, strictOption]
  | .coding .encodeFunction => [fileOption, required "--name", { name := "--param" }, strictOption]
  | .coding .encodeConstructor =>
    [fileOption, { name := "--code" }, { name := "--param" }, strictOption]
  | .coding .decodeParams => [required "--type", required "--data"]
  | .coding .decodeFunction => [fileOption, required "--name", required "--data"]
  | .coding .decodeLog => [fileOption, required "--event", { name := "--param" }, required "--data"]

/-! ## Names -/

/-- Commands under the names that lead to them. -/
abbrev Commands := List (List String × Command)

/-- All commands. -/
def commands : Commands :=
  [(["create"], .state .create), (["call"], .state .call), (["list"], .state .list),
   (["show"], .state .inspect), (["remove"], .state .remove),
   (["abi", "encode", "params"], .coding .encodeParams),
   (["abi", "encode", "function"], .coding .encodeFunction),
   (["abi", "encode", "constructor"], .coding .encodeConstructor),
   (["abi", "decode", "params"], .coding .decodeParams),
   (["abi", "decode", "function"], .coding .decodeFunction),
   (["abi", "decode", "log"], .coding .decodeLog)]

/-- The commands after a name. -/
def Commands.enter (commands : Commands) (name : String) : Commands :=
  commands.filterMap fun
    | (first :: rest, command) => if first = name then some (rest, command) else none
    | ([], _) => none

/-- The commands after the first of some arguments, and the other arguments. -/
def Commands.enterFirst (commands : Commands) :
    List String → Except UsageError (Commands × List String)
  | [] => .error .missingCommand
  | name :: args =>
    if (commands.enter name).isEmpty then .error (.unknownCommand name)
    else .ok (commands.enter name, args)

/-- The arguments of a group after the end of its options, of which it has none. -/
def afterNoOptions : List String → Except UsageError (List String)
  | [] => .ok []
  | arg :: args =>
    if arg = "--" then .ok args
    else if looksLikeOption arg then .error (.unknownOption arg)
    else .ok (arg :: args)

/-- The command that arguments name after some names, and its own arguments. No command is more than
so many names away. -/
def Commands.resolveWithin : (names : Nat) → Commands → List String →
    Except UsageError (Command × List String)
  | 0, _, _ => .error .missingCommand
  | names + 1, commands, args =>
    match commands.lookup [] with
    | some command => .ok (command, args)
    | none => do
      let (commands, args) ← commands.enterFirst (← afterNoOptions args)
      commands.resolveWithin names args

/-- The command that arguments name after some names, and its own arguments. -/
def Commands.resolve (commands : Commands) (args : List String) :
    Except UsageError (Command × List String) :=
  commands.resolveWithin (args.length + 1) args

end ContractHost.CommandLine
