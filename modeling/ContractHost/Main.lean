import ContractHost.CommandLine.Run
import ContractHost.CommandLine.Wording

/-!
# The program

The command line on the files and the environment of the process, with the built-in interpreter. Reports
go to the standard output and errors to the standard error.
-/

namespace ContractHost

/-- The fault that an error of the system is. What has no fault of its own counts as a missing file. -/
def faultOfError : IO.Error → Fault
  | .alreadyExists .. => .fileExists
  | .inappropriateType _ code _ => if code = 21 then .isDirectory else .notDirectory
  | _ => .noFile

/-- A program with its error as a value. -/
def attempt {α : Type} (program : IO α) : IO (Except Fault α) := do
  return (← program.toBaseIO).mapError faultOfError

/-- The bytes of a file. -/
def readFile (path : Path) : IO (Except Fault Bytes) :=
  attempt do return (← IO.FS.readBinFile path.text).toList

/-- The files of the process. -/
def processFiles : FileSystem IO where
  isFile? path := do
    match ← readFile path with
    | .ok _ => return .ok (some true)
    | .error .isDirectory => return .ok (some false)
    | .error _ => return .ok none
  read := readFile
  write path bytes := attempt (IO.FS.writeBinFile path.text ⟨bytes.toArray⟩)
  append path bytes := attempt do
    (← IO.FS.Handle.mk path.text .append).write ⟨bytes.toArray⟩
  makeDirectories path := attempt (IO.FS.createDirAll path.text)

/-- The names of the variables that the file of settings refers to. -/
def referredVariables : IO (List String) := do
  match ← readFile Settings.path with
  | .ok bytes =>
    let bindings := EnvFile.bindings ((Utf8.decode? bytes).getD [])
    return bindings.flatMap fun (_, value) => EnvFile.references (value.getD "").toList
  | .error _ => return []

/-- The variables of the process that the program looks at. -/
def processEnvironment : IO Environment := do
  let names := "EVMHOST_CONFIG" :: "LD_LIBRARY_PATH" :: UncheckedConfig.variableNames
  let found ← (names ++ (← referredVariables)).filterMapM fun name => do
    return (← IO.getEnv name).map fun value => (name, value)
  return .ofList found

/-- Runs the command that arguments name, and says how the process ends. -/
def program [Room] (args : List String) : IO UInt32 := do
  let env ← processEnvironment
  match ← Settings.load processFiles env with
  | .error fault =>
    IO.eprintln s!"Error: {(fault.describe CommandLine.wording).spelledOut}"
    return 1
  | .ok settings =>
    let around := { files := processFiles, settings, env, vm := CommandLine.builtIn }
    match ← (CommandLine.run around args).run with
    | .ok report =>
      IO.print report.text
      return report.exitCode.toUInt32
    | .error error =>
      IO.eprintln s!"Error: {(error.message CommandLine.wording).spelledOut}"
      return error.exitCode.toUInt32

end ContractHost

/-- Runs the command that the arguments name. -/
def main (args : List String) : IO UInt32 :=
  letI := ContractHost.Room.usual
  ContractHost.program args
