import ContractHost.Config.Basic
import ContractHost.Proofs.Yields

/-!
# Fields of configurations

Each field of a configuration has a place in a document, and some have a variable of the environment too.
What is to be used is the value of the variable, if that is set to something, or else what the document
has, or else a default. All fields get their values that way, unless a table of the document is none or a
variable does not spell what its field needs.

* `ConfigField`: the fields, with their places and variables.
* `ConfigField.chosen`: the value that is to be used.
* `ofTables_ends`: what a document gives.
* `override_ends`: what becomes of it in an environment.
-/

namespace ContractHost

/-! ## Fields -/

/-- The fields of a configuration. -/
inductive ConfigField
  | library | createSymbol | revision | abortOnFatal | logLevel | gasPrice | origin | coinbase
  | blockNumber | blockTimestamp | blockGasLimit | blockDifficulty | chainId | gas | sender | stateFile
  deriving DecidableEq

namespace ConfigField

/-- Where a document has a field. -/
def place : ConfigField → FieldName
  | library => ⟨"vm", "library"⟩
  | createSymbol => ⟨"vm", "create_symbol"⟩
  | revision => ⟨"vm", "revision"⟩
  | abortOnFatal => ⟨"host", "abort_on_fatal"⟩
  | logLevel => ⟨"host", "log_level"⟩
  | gasPrice => ⟨"tx", "gas_price"⟩
  | origin => ⟨"tx", "origin"⟩
  | coinbase => ⟨"tx", "coinbase"⟩
  | blockNumber => ⟨"tx", "block_number"⟩
  | blockTimestamp => ⟨"tx", "block_timestamp"⟩
  | blockGasLimit => ⟨"tx", "block_gas_limit"⟩
  | blockDifficulty => ⟨"tx", "block_difficulty"⟩
  | chainId => ⟨"tx", "chain_id"⟩
  | gas => ⟨"execution", "gas"⟩
  | sender => ⟨"execution", "sender"⟩
  | stateFile => ⟨"storage", "state_file"⟩

/-- The variable that takes precedence over a document. -/
def varName? : ConfigField → Option String
  | library => some "EVMHOST_VM_LIBRARY"
  | createSymbol => some "EVMHOST_CREATE_SYMBOL"
  | revision => some "EVMHOST_REVISION"
  | abortOnFatal => some "EVMHOST_ABORT_ON_FATAL"
  | logLevel => some "EVMHOST_LOG_LEVEL"
  | chainId => some "EVMHOST_CHAIN_ID"
  | blockNumber => some "EVMHOST_BLOCK_NUMBER"
  | gas => some "EVMHOST_GAS"
  | sender => some "EVMHOST_SENDER"
  | stateFile => some "EVMHOST_STATE_FILE"
  | _ => none

/-- What a field needs. -/
inductive Need
  | text
  /-- A text that says something. -/
  | path
  | revision
  | level
  | flag
  | address
  /-- An integer from a bound on and below another. -/
  | integer (least bound : Int)

/-- What each field needs. -/
def need : ConfigField → Need
  | library | stateFile => .path
  | createSymbol => .text
  | revision => .revision
  | abortOnFatal => .flag
  | logLevel => .level
  | origin | coinbase | sender => .address
  | gasPrice | blockDifficulty | chainId => .integer 0 (twoTo 256)
  | blockNumber | blockTimestamp | blockGasLimit => .integer 0 (twoTo 63)
  | gas => .integer 1 (twoTo 63)

/-- The words for true. -/
def trueWords : List String := ["1", "true", "yes"]

/-- What the text of a variable stands for, by what its field needs. -/
def spelled? (f : ConfigField) (text : String) : Option Value :=
  match f.need with
  | .integer .. => (Text.integer? 0 text.toList).map .int
  | .flag => some (.bool (trueWords.contains (String.ofList (Text.lower (Text.strip text.toList)))))
  | _ => some (.text text)

end ConfigField

/-- What a configuration holds in a field. -/
def UncheckedConfig.value (c : UncheckedConfig) : ConfigField → Value
  | .library => c.library
  | .createSymbol => c.createSymbol
  | .revision => c.revision
  | .abortOnFatal => c.abortOnFatal
  | .logLevel => c.logLevel
  | .gasPrice => c.gasPrice
  | .origin => c.origin
  | .coinbase => c.coinbase
  | .blockNumber => c.blockNumber
  | .blockTimestamp => c.blockTimestamp
  | .blockGasLimit => c.blockGasLimit
  | .blockDifficulty => c.blockDifficulty
  | .chainId => c.chainId
  | .gas => c.gas
  | .sender => c.sender
  | .stateFile => c.stateFile

namespace ConfigField

variable (f : ConfigField) (settings : Settings) (env : Environment)
  (document : List (Text × Value))

/-- What a document has for a field. -/
def documented? : Option Value :=
  match Value.field? document f.place.table with
  | some (.table fields) => Value.field? fields f.place.name
  | _ => none

/-- What a set variable stands for, or else a value. -/
def preferred (value : Value) : Option Value :=
  match f.varName?.bind env.set? with
  | some text => f.spelled? text
  | none => some value

/-- The value to be used: that of the variable, or else that of the document, or else the default. There
is none if the variable does not spell what the field needs. -/
def chosen : Option Value :=
  f.preferred env ((f.documented? document).getD ((UncheckedConfig.standard settings).value f))

/-- The table of a field, empty if it is missing. -/
def table : Value := (Value.field? document f.place.table).getD (.table [])

/-- The table of a field is missing or is a table. -/
def Tabular : Prop := ∃ fields, f.table document = .table fields

theorem documented?_eq {f : ConfigField} {document fields : List (Text × Value)}
    (h : f.table document = .table fields) :
    f.documented? document = Value.field? fields f.place.name := by
  unfold table at h
  unfold documented?
  cases hfield : Value.field? document f.place.table with
  | none =>
    rw [hfield] at h
    cases h
    rfl
  | some value =>
    rw [hfield] at h
    cases h
    rfl

end ConfigField

namespace UncheckedConfig

variable {settings : Settings} {env : Environment} {document : List (Text × Value)}

/-! ## Values of a document -/

/-- The fault of a document with something else where a table should be. -/
def Malformed (document : List (Text × Value)) (fault : Fault) : Prop :=
  fault = .noOperation ∧ ∃ f : ConfigField, ¬f.Tabular document

theorem getD_table_ends (f : ConfigField) :
    Ends ((Value.table document).getD f.place.table (.table [])) (· = f.table document)
      (Malformed document) := .ok rfl

/-- A field of its table is looked up, unless the table is none. -/
theorem getD_ends (f : ConfigField) {table : Value} (htable : table = f.table document)
    (default : Value) :
    Ends (table.getD f.place.name default) (· = (f.documented? document).getD default)
      (Malformed document) := by
  cases table with
  | table fields =>
    rw [ConfigField.documented?_eq htable.symm]
    exact .ok rfl
  | _ => exact .error ⟨rfl, f, fun ⟨fields, hfields⟩ => nomatch htable.trans hfields⟩

/-- A document gives each field its value or the default, unless one of its tables is none. -/
theorem ofTables_ends : Ends (ofTables settings (.table document))
    (fun u => ∀ f : ConfigField,
      u.value f = (f.documented? document).getD ((standard settings).value f))
    (Malformed document) := by
  unfold ofTables
  refine (getD_table_ends .library).bind fun vm hvm => ?_
  refine (getD_ends .library hvm _).bind fun library hlibrary => ?_
  refine (getD_ends .createSymbol hvm _).bind fun createSymbol hcreateSymbol => ?_
  refine (getD_ends .revision hvm _).bind fun revision hrevision => ?_
  refine (getD_table_ends .abortOnFatal).bind fun host hhost => ?_
  refine (getD_ends .abortOnFatal hhost _).bind fun abortOnFatal habortOnFatal => ?_
  refine (getD_ends .logLevel hhost _).bind fun logLevel hlogLevel => ?_
  refine (getD_table_ends .gasPrice).bind fun tx htx => ?_
  refine (getD_ends .gasPrice htx _).bind fun gasPrice hgasPrice => ?_
  refine (getD_ends .origin htx _).bind fun origin horigin => ?_
  refine (getD_ends .coinbase htx _).bind fun coinbase hcoinbase => ?_
  refine (getD_ends .blockNumber htx _).bind fun blockNumber hblockNumber => ?_
  refine (getD_ends .blockTimestamp htx _).bind fun blockTimestamp hblockTimestamp => ?_
  refine (getD_ends .blockGasLimit htx _).bind fun blockGasLimit hblockGasLimit => ?_
  refine (getD_ends .blockDifficulty htx _).bind fun blockDifficulty hblockDifficulty => ?_
  refine (getD_ends .chainId htx _).bind fun chainId hchainId => ?_
  refine (getD_table_ends .gas).bind fun execution hexecution => ?_
  refine (getD_ends .gas hexecution _).bind fun gas hgas => ?_
  refine (getD_ends .sender hexecution _).bind fun sender hsender => ?_
  refine (getD_table_ends .stateFile).bind fun storage hstorage => ?_
  refine (getD_ends .stateFile hstorage _).bind fun stateFile hstateFile => ?_
  refine .ok fun f => ?_
  cases f <;> assumption

/-! ## Values of the environment -/

theorem textOr_eq {f : ConfigField} {name : String} (hname : f.varName? = some name)
    (hspelled : ∀ text, f.spelled? text = some (.text text)) (value : Value) :
    f.preferred env value = some (textOr env name value) := by
  rw [ConfigField.preferred, hname, Option.bind_some, textOr]
  cases env.set? name with
  | none => rfl
  | some text => exact hspelled text

theorem flagOr_eq (value : Value) :
    ConfigField.abortOnFatal.preferred env value =
      some (flagOr env "EVMHOST_ABORT_ON_FATAL" value) := by
  rw [ConfigField.preferred, ConfigField.varName?, Option.bind_some, flagOr]
  cases env.set? "EVMHOST_ABORT_ON_FATAL" with
  | none => rfl
  | some text =>
    refine congrArg (some <| Value.bool ·) ?_
    rw [Bool.eq_iff_iff, List.contains_iff_mem]
    simp [ConfigField.trueWords, String.ext_iff, or_assoc]

/-- The error of a variable that does not spell what its field needs. -/
def Misspelled (env : Environment) (e : ConfigError) : Prop :=
  ∃ (f : ConfigField) (name text : String), f.varName? = some name ∧ env.set? name = some text ∧
    f.spelled? text = none ∧ e = .variable name text

theorem intOr_ends (f : ConfigField) {name : String} (hname : f.varName? = some name)
    {least bound : Int} (hneed : f.need = .integer least bound) (value : Value) :
    Ends (intOr env name value) (f.preferred env value = some ·) (Misspelled env) := by
  have hspelled (text : String) : f.spelled? text = (Text.integer? 0 text.toList).map .int := by
    rw [ConfigField.spelled?, hneed]
  rw [ConfigField.preferred, hname, Option.bind_some, intOr]
  cases hset : env.set? name with
  | none => exact .ok rfl
  | some text =>
    simp only [hspelled]
    cases hread : Text.integer? 0 text.toList with
    | none =>
      have hnone : f.spelled? text = none := by rw [hspelled, hread, Option.map_none]
      exact .error ⟨f, name, text, hname, hset, hnone, rfl⟩
    | some n => exact .ok rfl

/-- Each field gets the value of its variable, if that is set, and keeps its own otherwise, unless a
variable does not spell what its field needs. -/
theorem override_ends (u : UncheckedConfig) : Ends (u.override env)
    (fun u' => ∀ f : ConfigField, f.preferred env (u.value f) = some (u'.value f))
    (Misspelled env) := by
  unfold override
  refine (intOr_ends .chainId rfl rfl _).bind fun chainId hchainId => ?_
  refine (intOr_ends .blockNumber rfl rfl _).bind fun blockNumber hblockNumber => ?_
  refine (intOr_ends .gas rfl rfl _).bind fun gas hgas => ?_
  refine .ok fun f => ?_
  cases f with
  | chainId | blockNumber | gas => assumption
  | abortOnFatal => exact flagOr_eq _
  | library | createSymbol | revision | logLevel | sender | stateFile =>
    exact textOr_eq rfl (fun _ => rfl) _
  | gasPrice | origin | coinbase | blockTimestamp | blockGasLimit | blockDifficulty => rfl

end UncheckedConfig

end ContractHost
