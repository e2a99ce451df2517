import ContractHost.Arena.Basic
import ContractHost.Outcome
import ContractHost.State.HostState

/-!
# Failures of a host

A fatal error says that the host and its interpreter are out of step, so that nothing can safely go
on. Everything else that makes a host's method fail is a fault. At the native boundary no failure can
pass: it is recorded as a fatal error, and a fault is wrapped in one that names the function.
-/

namespace ContractHost

/-- Why the host and the interpreter are out of step. -/
inductive FatalError
  /-- A slot changed although it counts no change. -/
  | unadvanced
  /-- A call to an account without code. -/
  | noCode (callee : Address) (kind : CallKind)
  /-- A nested frame that cannot be adopted. -/
  | merge (error : MergeError)
  /-- A handle that the arena refuses. -/
  | arena (error : ArenaError)
  /-- A function that failed with a fault. -/
  | wrapped (function : String) (fault : Fault)
  /-- A failure put in place of a host's method. -/
  | staged (text : String)
  deriving DecidableEq

/-- The text of a fatal error, with a wording for faults that have none of their own. -/
def FatalError.message (wording : Fault → String) : FatalError → Text
  | .unadvanced => "Storage changed without advancing modify_time"
  | .noCode callee kind => s!"No code at {callee.toHex} for {kind.name}"
  | .merge error => error.message
  | .arena error => error.message
  | .wrapped function fault => s!"Host callback {function} raised " ++ fault.describe wording
  | .staged text => text

/-- Why a host's method failed. -/
inductive Failure
  /-- A fatal error. -/
  | fatal (error : FatalError)
  /-- A fault. -/
  | fault (fault : Fault)
  deriving DecidableEq

/-- The fatal error that a failure of a function is recorded as. -/
def Failure.recorded (function : String) : Failure → FatalError
  | .fatal error => error
  | .fault cause => .wrapped function cause

end ContractHost
