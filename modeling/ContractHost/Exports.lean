import ContractHost.Fault

/-!
# Offered names

The names that the library offers at its root, each with the part of the library that defines it. Any
other name is a fault.
-/

namespace ContractHost.Exports

/-- The name of the library. -/
def library : String := "evmhost"

/-- The offered names with the parts that define them. -/
def offered : List (String × String) :=
  [("EvmcVM", "evmc.vm"), ("Executor", "evmc.vm"), ("HostInterface", "evmc.interface"),
   ("HostState", "host.state"), ("StateHost", "host.context"), ("FatalHostError", "exceptions"),
   ("main", "cli.main")]

/-- Whether a name is offered. -/
def isOffered (name : String) : Bool := offered.any (·.1 == name)

/-- The part of the library that defines a name. -/
def homeOf (name : String) : Except Fault String :=
  match offered.lookup name with
  | some part => .ok s!"{library}.{part}"
  | none => .error (.attribute library name)

end ContractHost.Exports
