import ContractHost.Fault

/-!
# Errors of contract coding

Why a contract description, a value or a call is of no use. Each error has a text.
-/

namespace ContractHost

/-- An error of contract coding. -/
inductive AbiError
  /-- A description cannot be read. -/
  | unreadable (path : String) (cause : Fault)
  /-- A description is not JSON. -/
  | notJson (path : String)
  /-- A description has no list of entries. -/
  | noList (path : String)
  /-- No entry answers a description. -/
  | noEntry (label : Text)
  /-- The text of an array is not in brackets. -/
  | noBrackets (text : Text)
  /-- The type of a value text is a tuple. -/
  | tupleValue (type : Text)
  /-- A text is no truth value. -/
  | notBool (text : Text)
  /-- The text of an address does not begin with `0x`. -/
  | bareAddress (text : Text)
  /-- A text is no value of its type. -/
  | invalid (type text : Text) (cause : Fault)
  /-- No text is a value of the type. -/
  | unsupported (type : Text)
  /-- There are more or fewer values than types. -/
  | valueCount (values types : Nat)
  /-- The values have no encoding. -/
  | notEncoded (cause : Fault)
  /-- The code of a contract is not hexadecimal text. -/
  | invalidCode (cause : Fault)
  /-- The data is no encoding. -/
  | notDecoded (cause : Fault)
  /-- The data is not hexadecimal text. -/
  | invalidData (cause : Fault)
  /-- The first topic of a log is not that of the event. -/
  | wrongTopic (signature : Text)
  /-- A log has more or fewer topics than the event has indexed inputs. -/
  | topicCount (event : Text) (indexed topics : Nat)
  deriving DecidableEq

/-- The text of an error, with a wording for faults that have none of their own. -/
def AbiError.message (wording : Fault → String) : AbiError → Text
  | .unreadable path cause => s!"Failed to read ABI file {path}: " ++ cause.describe wording
  | .notJson path => s!"ABI file {path} is not valid JSON: " ++ Fault.notJson.describe wording
  | .noList path => s!"ABI file {path} does not contain an ABI list"
  | .noEntry label => "No " ++ label ++ " in ABI"
  | .noBrackets text => "Array value must be enclosed in brackets: " ++ text
  | .tupleValue type => "Tuple values are not supported: " ++ type
  | .notBool text => "Invalid bool value: " ++ text
  | .bareAddress text => "Address must be 0x-prefixed: " ++ text
  | .invalid type text cause =>
    "Invalid " ++ type ++ s!" value {Text.quoted text}: " ++ cause.describe wording
  | .unsupported type => "Unsupported ABI type: " ++ type
  | .valueCount values types => s!"Got {values} values for {types} types"
  | .notEncoded cause => "Failed to encode parameters: " ++ cause.describe wording
  | .invalidCode cause => "Invalid contract code: " ++ cause.describe wording
  | .notDecoded cause => "Failed to decode data: " ++ cause.describe wording
  | .invalidData cause => "Invalid hex data: " ++ cause.describe wording
  | .wrongTopic signature => "First topic is not the signature of " ++ signature
  | .topicCount event indexed topics =>
    "Event " ++ event ++ s!" has {indexed} indexed inputs, got {topics} topics"

end ContractHost
