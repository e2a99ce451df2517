import ContractHost.Config.Basic
import ContractHost.Files.System
import ContractHost.Toml.Reader

/-!
# Configuration files

A configuration is read from a file whose path is given, or is in a variable of the environment, or
else is `evmhost.toml`. A file that is not there says nothing.
-/

namespace ContractHost.Config

variable {m : Type → Type} [Monad m]

/-- How reading a configuration fails. -/
abbrev Failure := WithFault ConfigError

/-- The text of the path of the file. -/
def pathText (env : Environment) (given : Option String) : String :=
  given.getD ((env.get? "EVMHOST_CONFIG").getD "evmhost.toml")

/-- The configuration that the bytes of a file spell. -/
def ofBytes (settings : Settings) (env : Environment) (path : String) (bytes : Bytes) :
    Except Failure Config :=
  match Toml.ofBytes bytes with
  | .ok document => ownError (ofDocument settings env document)
  | .error .notToml => .error (.error (.notToml path))
  | .error fault => .error (.escaped fault)

/-- The configuration of a file. -/
def load (files : FileSystem m) (settings : Settings) (env : Environment) (given : Option String) :
    m (Except Failure Config) := do
  let text := pathText env given
  let path := Path.ofText text
  match ← files.isFile? path with
  | .error fault => return .error (.escaped fault)
  | .ok none => return ownError (ofEnvironment settings env)
  | .ok (some _) =>
    match ← files.read path with
    | .error fault => return .error (.escaped fault)
    | .ok bytes => return ofBytes settings env text bytes

end ContractHost.Config
