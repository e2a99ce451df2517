import ContractHost.OrderedMap

/-!
# The environment

Variables with texts. A variable that is set to the empty text counts as missing where a setting is
looked up.
-/

namespace ContractHost

/-- The variables that are set. -/
abbrev Environment := OrderedMap String String

/-- A variable that is set to something. -/
def Environment.set? (env : Environment) (name : String) : Option String :=
  (env.get? name).filter (· ≠ "")

end ContractHost
