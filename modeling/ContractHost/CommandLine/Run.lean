import ContractHost.Abi.Call
import ContractHost.CommandLine.Action
import ContractHost.CommandLine.Command
import ContractHost.Log.Setup
import ContractHost.State.Saved
import ContractHost.Vm.Library

/-!
# Running commands

Before the name of a command stand options for all of them. Then the configuration is read and the log
set up, and only then are the command's own arguments looked at. A command on the state reads it from
its file, acts on it, and writes what is to be kept.

* `run`: the report of a list of arguments.
* `runOn`: a command on the state, from file to file.
-/

namespace ContractHost.CommandLine

variable [Room] {m : Type → Type} [Monad m]

/-- What a command works with. -/
structure Surroundings (m : Type → Type) where
  files : FileSystem m
  settings : Settings
  env : Environment
  /-- Finds the interpreter that a configuration names. -/
  vm : Config → m (Except VmFailure Unit)

/-- The built-in interpreter, whatever the configuration names. -/
def builtIn : Config → m (Except VmFailure Unit) := fun _ => return .ok ()

/-- Interpreters from libraries, of which none can be opened. -/
def libraries (files : FileSystem m) (env : Environment) : Config → m (Except VmFailure Unit) :=
  fun config => do
    let loaded ← Vm.load files env (fun _ => .error .notLibrary) config.library.shown
      config.createSymbol.shown
    return loaded.map fun _ => ()

/-- A program whose errors have the errors of commands for them. -/
def orElse {ε α : Type} (wrap : ε → CommandError) (program : m (Except ε α)) :
    ExceptT CommandError m α :=
  ExceptT.mk do return (← program).mapError wrap

/-! ## Values of options -/

/-- An address given as text. -/
def readAddress (text : Text) : Except CommandError Address :=
  (FixedBytes.ofHex text).mapError fun _ => .usage (.notAddress text)

/-- Bytes given as text. -/
def readHex (text : String) : Except CommandError Bytes :=
  (Hex.decode text).mapError fun _ => .usage (.notHex text)

/-- The gas that is asked for, if it is not zero, or else that of the configuration. -/
def readGas (config : Config) (args : Arguments) : Int :=
  match (args.text? "--gas").bind fun text => Text.integer? 10 text.toList with
  | some gas => if gas = 0 then config.gas else gas
  | none => config.gas

/-- The action that a command on the state asks for. -/
def StateCommand.action (config : Config) (args : Arguments) :
    StateCommand → Except CommandError Action
  | .create => do
    let code ← readHex ((args.text? "--code").getD "")
    let sender ← readAddress (((args.set? "--address").map .plain).getD config.sender)
    return .create code sender (readGas config args)
  | .call => do
    let address ← readAddress ((args.text? "--address").getD "")
    let sender ← readAddress (((args.set? "--sender").map .plain).getD config.sender)
    let input ← readHex ((args.text? "--input-data").getD "0x")
    return .call address sender input (args.has "--static") (readGas config args)
  | .list => return .list
  | .inspect => return .inspect (← readAddress ((args.text? "--address").getD ""))
  | .remove => return .remove (← readAddress ((args.text? "--address").getD ""))

/-- The file that a state is read from. -/
def inputPath (config : Config) (args : Arguments) : Path :=
  .ofText ((args.text? "--input-storage").getD config.stateFile.shown)

/-- The file that a state is written to. -/
def outputPath (config : Config) (args : Arguments) : Path :=
  match args.text? "--output-storage" with
  | some text => .ofText text
  | none => inputPath config args

/-! ## Commands on the state -/

/-- Acts on the state in a file and writes what is to be kept. -/
def runOn (around : Surroundings m) (config : Config) (input output : Path) (action : Action) :
    ExceptT CommandError m Report := do
  let s ← orElse (.ofWithFault .snapshot) (HostState.load around.files input)
  let vm ← if action.runs then ExceptT.lift (around.vm config) else pure (.ok ())
  let (report, kept) ← action.apply config (vm.mapError (.ofWithFault .vm)) s
  if let some s := kept then
    orElse (.ofWithFault .snapshot) (s.save around.files output)
  return report

/-! ## Commands that code values -/

/-- The name of a field in JSON for a value. -/
def fieldName : Value → Text
  | .text t => t
  | value => Json.write .line value

/-- The report of decoded values, each in a table of its own. -/
def decodedReport (values : List (Value × Abi.Shown)) : Except CommandError Report :=
  let tables := values.mapM fun (name, shown) =>
    shown.toValue?.map fun value => Value.table [(fieldName name, value)]
  match tables with
  | some tables => .ok ⟨[Json.write .indented (.list tables)], true⟩
  | none => .error (.ofFault .wrongType)

/-- The report of encoded values. -/
def encodedReport (bytes : Bytes) : Report := ⟨[Hex.encode bytes], true⟩

/-- Values with their types. -/
def withTypes (values : List (Text × Abi.Shown)) : List (Value × Abi.Shown) :=
  values.map fun (type, shown) => (.text type, shown)

/-- The report of a command that codes values, given the description of a contract. -/
def CodingCommand.report (entries : List Value) (args : Arguments) (command : CodingCommand) :
    Except CommandError Report :=
  let lenient := !args.has "--no-lenient"
  let name := (args.text? "--name").getD ""
  let data := Abi.Source.hex ((args.text? "--data").getD "")
  let own {α : Type} (x : Except AbiError α) : Except CommandError α := x.mapError .abi
  let either {α : Type} (x : Except Abi.AbiFailure α) : Except CommandError α :=
    x.mapError (.ofWithFault .abi)
  match command with
  | .encodeParams => do
    let bytes ← own (Abi.encodeParams (args.texts "--param") (args.seconds "--param") lenient)
    return encodedReport bytes
  | .encodeFunction => do
    let bytes ← either (Abi.encodeFunction entries name (args.texts "--param") lenient)
    return encodedReport bytes
  | .encodeConstructor => do
    let code := Abi.Source.hex ((args.text? "--code").getD "0x")
    let bytes ← either (Abi.encodeConstructor entries code (args.texts "--param") lenient)
    return encodedReport bytes
  | .decodeParams => do
    decodedReport (withTypes (← own (Abi.decodeParams (args.texts "--type") data)))
  | .decodeFunction => do
    decodedReport (withTypes (← either (Abi.decodeFunction entries name data)))
  | .decodeLog => do
    let topics := (args.texts "--param").map Abi.Source.hex
    decodedReport (← either (Abi.decodeLog entries ((args.text? "--event").getD "") topics data))

/-- The description of a contract in the file that is given, if one is. -/
def entriesOf (files : FileSystem m) (args : Arguments) : ExceptT CommandError m (List Value) :=
  match args.text? "--file" with
  | some path => orElse (.ofWithFault .abi) (Abi.load files (.ofText path))
  | none => return []

/-! ## All commands -/

/-- The configuration, with what the options of all commands say. -/
def configure (around : Surroundings m) (args : Arguments) : ExceptT CommandError m Config := do
  let config ← orElse (.ofWithFault .config)
    (Config.load around.files around.settings around.env (args.text? "--config"))
  let library := ((args.set? "--vm").map .plain).getD config.library
  let logLevel := ((args.set? "--log-level").map .plain).getD config.logLevel
  return { config with library, logLevel }

/-- Sets the log up. -/
def setUpLog (around : Surroundings m) (config : Config) : ExceptT CommandError m Unit := do
  let request : Log.Request := { level := some config.logLevel, again := true }
  let (done, _) ← ExceptT.lift (Log.configure around.files around.settings request {})
  done.mapError CommandError.ofFault

/-- Runs a command with its own arguments. -/
def runCommand (around : Surroundings m) (config : Config) (command : Command)
    (args : List String) : ExceptT CommandError m Report := do
  let given ← readArguments around.files command.options args
  match command with
  | .state command =>
    let action ← command.action config given
    runOn around config (inputPath config given) (outputPath config given) action
  | .coding command =>
    let entries ← entriesOf around.files given
    command.report entries given

/-- The report of a list of arguments. -/
def run (around : Surroundings m) (args : List String) : ExceptT CommandError m Report := do
  let (given, others) ← (parse groupOptions false args).mapError CommandError.usage
  groupOptions.forM (checkOption around.files given)
  let (inside, others) ← (commands.enterFirst others).mapError CommandError.usage
  let config ← configure around given
  setUpLog around config
  let (command, args) ← (inside.resolve others).mapError CommandError.usage
  runCommand around config command args

end ContractHost.CommandLine
