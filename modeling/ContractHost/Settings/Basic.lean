import ContractHost.Fault
import ContractHost.Files.System
import ContractHost.Settings.EnvFile
import ContractHost.Text.Case
import ContractHost.Text.Utf8

/-!
# Settings

Eight settings have a default and may have another value in a file of settings. A value that is one of
the words for true and false, in whatever case, is a truth value, and any other is a text.

* `Settings.standard`: the settings with their defaults.
* `Settings.load`: the settings with the values that a file has for them.
-/

namespace ContractHost

/-- What a setting holds. -/
inductive Content
  | text (s : String)
  | flag (b : Bool)
  deriving DecidableEq, Repr

namespace Content

/-- A content as text. -/
def plain : Content → String
  | text s => s
  | flag b => if b then "True" else "False"

/-- A content as messages show it. -/
def display : Content → String
  | text s => Text.quoted s
  | flag b => if b then "True" else "False"

/-- Whether a content counts as true. -/
def truthy : Content → Bool
  | text s => s ≠ ""
  | flag b => b

/-- The truth value that a text has a word for. A word with a letter beyond ASCII is the word only when
case is disregarded, and no value. -/
def flag? (text : String) : Except Fault (Option Bool) :=
  let word := Text.strip text.toList
  let folded := Text.casefold word
  if folded = "true".toList ∨ folded = "false".toList then
    if word.all (·.toNat < 128) then .ok (some (folded = "true".toList)) else .error .badValue
  else .ok none

/-- The content of a text. -/
def ofText (text : String) : Except Fault Content := do
  match ← flag? text with
  | some b => return .flag b
  | none => return .text text

end Content

/-- A setting. -/
structure Setting where
  value : Content
  default : Content
  deriving DecidableEq, Repr

/-- Whether a setting has its default. -/
def Setting.isDefault (s : Setting) : Bool := s.value = s.default

/-- A setting with its default. -/
def Setting.standard (default : Content) : Setting := ⟨default, default⟩

/-- The settings. -/
structure Settings where
  vmLibrary : Setting := .standard (.text "libevmone.so")
  revision : Setting := .standard (.text "petersburg")
  stateFile : Setting := .standard (.text "state.json")
  logLevel : Setting := .standard (.text "INFO")
  logFormat : Setting := .standard (.text "%(asctime)s - %(levelname)s - %(name)s - %(message)s")
  logDateFormat : Setting := .standard (.text "%Y-%m-%dT%H:%M:%S")
  consoleHighlighting : Setting := .standard (.flag true)
  fileOutput : Setting := .standard (.flag false)
  deriving DecidableEq, Repr

namespace Settings

/-- The settings with their defaults. -/
def standard : Settings := {}

/-- A setting with the value assigned to its name, if there is one. -/
def reassigned (assigned : EnvFile.Assignments) (name : String) (s : Setting) :
    Except Fault Setting :=
  match assigned.get? name with
  | some (some text) => do return { s with value := ← Content.ofText text }
  | _ => .ok s

/-- The settings with the values assigned to their names. -/
def ofAssignments (assigned : EnvFile.Assignments) : Except Fault Settings := do
  let s := standard
  return {
    vmLibrary := ← reassigned assigned "EVMHOST_VM_LIBRARY" s.vmLibrary
    revision := ← reassigned assigned "EVMHOST_REVISION" s.revision
    stateFile := ← reassigned assigned "EVMHOST_STATE_FILE" s.stateFile
    logLevel := ← reassigned assigned "LOG_LEVEL" s.logLevel
    logFormat := ← reassigned assigned "LOG_FORMAT" s.logFormat
    logDateFormat := ← reassigned assigned "LOG_DATE_FORMAT" s.logDateFormat
    consoleHighlighting := ← reassigned assigned "LOG_CONSOLE_HIGHLIGHTING" s.consoleHighlighting
    fileOutput := ← reassigned assigned "LOG_FILE_OUTPUT" s.fileOutput }

/-- The path of the file of settings. -/
def path : Path := .ofText ".env"

/-- The settings that the bytes of a file spell. -/
def ofBytes (env : Environment) (bytes : Bytes) : Except Fault Settings :=
  match Utf8.decode? bytes with
  | none => .error .notUtf8
  | some text => ofAssignments (EnvFile.resolve env (EnvFile.bindings text))

/-- The settings with the values that the file of settings has for them. -/
def load {m : Type → Type} [Monad m] (files : FileSystem m) (env : Environment) :
    m (Except Fault Settings) := do
  match ← files.isFile? path with
  | .ok (some true) =>
    match ← files.read path with
    | .ok bytes => return ofBytes env bytes
    | .error fault => return .error fault
  | _ => return .ok standard

end Settings

end ContractHost
