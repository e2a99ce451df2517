import ContractHost.Document.Value
import ContractHost.Fault

/-!
# Errors of configurations

Why a configuration is of no use. An error names the field that it is about by its table and name.
-/

namespace ContractHost

/-- A field of a configuration. -/
structure FieldName where
  table : String
  name : String
  deriving DecidableEq, Repr

/-- A field as messages name it. -/
def FieldName.label (field : FieldName) : String := s!"[{field.table}] {field.name}"

/-- An error of a configuration. -/
inductive ConfigError
  /-- A variable of the environment has to be an integer and is not. -/
  | variable (name text : String)
  /-- What should be a table is none. -/
  | malformed (cause : Fault)
  /-- A file is not TOML. -/
  | notToml (path : String)
  /-- A field has to be a text and is not. -/
  | notText (field : FieldName) (value : Value)
  /-- A field has to be an integer and is not. -/
  | notInteger (field : FieldName) (value : Value)
  /-- A field has to be a truth value and is not. -/
  | notFlag (field : FieldName) (value : Value)
  /-- A field has to be an address and is not. -/
  | notAddress (field : FieldName) (value : Value)
  /-- A number is too small or too large. -/
  | outOfRange (field : FieldName) (n : Int)
  /-- A field has to say something and does not. -/
  | missing (field : FieldName)
  /-- A field is of no use for a reason of its own. -/
  | unusable (table : String) (cause : Fault)
  /-- A text is no level of the log. -/
  | level (text : Text)

/-- The text of an error, with a wording for faults that have none of their own. -/
def ConfigError.message (wording : Fault → String) : ConfigError → Text
  | .variable name text => s!"{name} must be an integer, got {Text.quoted text}"
  | .malformed cause => "Malformed configuration: " ++ cause.describe wording
  | .notToml path => s!"Invalid TOML in {path}: " ++ Fault.notToml.describe wording
  | .notText field value => s!"{field.label} must be a string, got {value.display}"
  | .notInteger field value => s!"{field.label} must be an integer, got {value.display}"
  | .notFlag field value => s!"{field.label} must be a boolean, got {value.display}"
  | .notAddress field value => s!"{field.label} is not an address: " ++ value.plain
  | .outOfRange field n => s!"{field.label} out of range: {Decimal.intText n}"
  | .missing field => s!"{field.label} must be set"
  | .unusable table cause => s!"[{table}] " ++ cause.describe wording
  | .level text => "Invalid log_level: " ++ text

end ContractHost
