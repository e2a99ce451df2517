import ContractHost.Abi.Error
import ContractHost.Config.Load
import ContractHost.Derivation
import ContractHost.Host.Failure
import ContractHost.State.Snapshot
import ContractHost.Vm.Instance

/-!
# Errors of the command line

Why a command has no result. A usage error is one of the arguments; the others are those of what the
command works with, and failures of the host that nothing handles. An error decides how the process
ends.
-/

namespace ContractHost.CommandLine

/-- What is wrong with the arguments. -/
inductive UsageError
  /-- No command is given. -/
  | missingCommand
  /-- No command has the name. -/
  | unknownCommand (name : String)
  /-- No option has the name. -/
  | unknownOption (name : String)
  /-- An option is given with too few values. -/
  | missingValue (option : String)
  /-- A value is given to an option that takes none. -/
  | unexpectedValue (option : String)
  /-- An option that has to be given is not. -/
  | missingOption (option : String)
  /-- A value is not what the option expects. -/
  | badValue (option value : String)
  /-- An argument belongs to no option. -/
  | extraArgument (argument : String)
  /-- A text is no address. -/
  | notAddress (text : Text)
  /-- A text is not hexadecimal. -/
  | notHex (text : String)
  deriving DecidableEq, Repr

/-- The text of a usage error. -/
def UsageError.message : UsageError → String
  | .missingCommand => "Missing command."
  | .unknownCommand name => s!"No such command {Text.quoted name}."
  | .unknownOption name => s!"No such option: {name}"
  | .missingValue option => s!"Option {Text.quoted option} requires an argument."
  | .unexpectedValue option => s!"Option {Text.quoted option} does not take a value."
  | .missingOption option => s!"Missing option {Text.quoted option}."
  | .badValue option value => s!"Invalid value for {Text.quoted option}: {Text.quoted value}."
  | .extraArgument argument => s!"Got unexpected extra argument ({argument})"
  | .notAddress text => s!"{Text.quoted text} is not a 20-byte address"
  | .notHex text => s!"{Text.quoted text} is not valid hex"

/-- Why a command has no result. -/
inductive CommandError
  /-- The arguments are wrong. -/
  | usage (error : UsageError)
  /-- The configuration is of no use. -/
  | config (error : ConfigError)
  /-- The state cannot be read or written. -/
  | snapshot (error : SnapshotError)
  /-- There is no interpreter. -/
  | vm (error : VmError)
  /-- Values or data cannot be coded. -/
  | abi (error : AbiError)
  /-- No contract is at an address. -/
  | noContract (address : Address)
  /-- No account is at an address. -/
  | noAccount (address : Address)
  /-- A failure that nothing handles. -/
  | escaped (failure : Failure)

namespace CommandError

/-- A fault that nothing handles. -/
def ofFault (fault : Fault) : CommandError := .escaped (.fault fault)

/-- An error of its own kind, or a fault that nothing handles. -/
def ofWithFault {ε : Type} (own : ε → CommandError) : WithFault ε → CommandError
  | .error error => own error
  | .escaped fault => ofFault fault

/-- The text of a failure, with a wording for faults that have none of their own. -/
def failureMessage (wording : Fault → String) : Failure → Text
  | .fatal error => error.message wording
  | .fault fault => fault.describe wording

/-- The text of an error, with a wording for faults that have none of their own. -/
def message (wording : Fault → String) : CommandError → Text
  | .usage error => error.message
  | .config error => error.message wording
  | .snapshot error => error.message wording
  | .vm error => error.message wording
  | .abi error => error.message wording
  | .noContract address => s!"No contract at {Derivation.checksum address}"
  | .noAccount address => s!"Account {Derivation.checksum address} not found"
  | .escaped failure => failureMessage wording failure

/-- How the process ends. -/
def exitCode : CommandError → Nat
  | .usage _ => 2
  | _ => 1

end CommandError

end ContractHost.CommandLine
