import ContractHost.Config.Error
import ContractHost.Document.Access
import ContractHost.Environment
import ContractHost.Revision
import ContractHost.Settings.Basic
import ContractHost.TxContext

/-!
# Configurations

A configuration says which interpreter runs, how the host behaves, what the interpreter is told about
the transaction, and which file keeps the state. Its values come from a document, in whatever form they
have there, and variables of the environment take precedence over them. Checking turns them into texts,
numbers and truth values that can be used, or says why they cannot.

* `UncheckedConfig.ofDocument`: the values of a document, with defaults for what is missing.
* `UncheckedConfig.override`: the values with those of the environment in their place.
* `UncheckedConfig.check`: the configuration, if every value can be used.
* `Config.revisionValue`, `Config.txContext`, `Config.senderAddress`: what the texts and numbers stand
  for.
-/

namespace ContractHost

/-- The fields of a configuration, with types for texts, numbers and truth values. -/
structure ConfigFields (τ ν β : Type) where
  library : τ
  createSymbol : τ
  revision : τ
  abortOnFatal : β
  logLevel : τ
  gasPrice : ν
  origin : τ
  coinbase : τ
  blockNumber : ν
  blockTimestamp : ν
  blockGasLimit : ν
  blockDifficulty : ν
  chainId : ν
  gas : ν
  sender : τ
  stateFile : τ

/-- A configuration whose values can be used. -/
abbrev Config := ConfigFields Text Int Bool

/-- A configuration with values of any form. -/
abbrev UncheckedConfig := ConfigFields Value Value Value

namespace UncheckedConfig

/-! ## Values of a document -/

/-- The text of the address of zeros. -/
def zeroAddress : String := (FixedBytes.zero : Address).toHex

/-- The configuration of settings, without a document. -/
def standard (settings : Settings) : UncheckedConfig where
  library := .text settings.vmLibrary.value.plain
  createSymbol := .text ""
  revision := .text settings.revision.value.plain
  abortOnFatal := .bool false
  logLevel := .text settings.logLevel.value.plain
  gasPrice := .int 0
  origin := .text zeroAddress
  coinbase := .text zeroAddress
  blockNumber := .int 0
  blockTimestamp := .int 0
  blockGasLimit := .int 0
  blockDifficulty := .int 0
  chainId := .int 0
  gas := .int 10000000
  sender := .text (Hex.encode (List.replicate 20 0x80))
  stateFile := .text settings.stateFile.value.plain

/-- The configuration that a document holds; what it does not say has its default. -/
def ofTables (settings : Settings) (document : Value) : Except Fault UncheckedConfig := do
  let d := standard settings
  let vm ← document.getD "vm" (.table [])
  let library ← vm.getD "library" d.library
  let createSymbol ← vm.getD "create_symbol" d.createSymbol
  let revision ← vm.getD "revision" d.revision
  let host ← document.getD "host" (.table [])
  let abortOnFatal ← host.getD "abort_on_fatal" d.abortOnFatal
  let logLevel ← host.getD "log_level" d.logLevel
  let tx ← document.getD "tx" (.table [])
  let gasPrice ← tx.getD "gas_price" d.gasPrice
  let origin ← tx.getD "origin" d.origin
  let coinbase ← tx.getD "coinbase" d.coinbase
  let blockNumber ← tx.getD "block_number" d.blockNumber
  let blockTimestamp ← tx.getD "block_timestamp" d.blockTimestamp
  let blockGasLimit ← tx.getD "block_gas_limit" d.blockGasLimit
  let blockDifficulty ← tx.getD "block_difficulty" d.blockDifficulty
  let chainId ← tx.getD "chain_id" d.chainId
  let execution ← document.getD "execution" (.table [])
  let gas ← execution.getD "gas" d.gas
  let sender ← execution.getD "sender" d.sender
  let storage ← document.getD "storage" (.table [])
  let stateFile ← storage.getD "state_file" d.stateFile
  return { library, createSymbol, revision, abortOnFatal, logLevel, gasPrice, origin, coinbase,
           blockNumber, blockTimestamp, blockGasLimit, blockDifficulty, chainId, gas, sender,
           stateFile }

/-- The configuration that a document holds, if its tables are tables. -/
def ofDocument (settings : Settings) (document : Value) : Except ConfigError UncheckedConfig :=
  (ofTables settings document).mapError .malformed

/-! ## Values of the environment -/

/-- A text in its variable, or else the value. -/
def textOr (env : Environment) (name : String) (value : Value) : Value :=
  match env.set? name with
  | some text => .text text
  | none => value

/-- A truth value in its variable, or else the value. Any word but three counts as false. -/
def flagOr (env : Environment) (name : String) (value : Value) : Value :=
  match env.set? name with
  | some text =>
    let word := Text.lower (Text.strip text.toList)
    .bool (word = "1".toList || word = "true".toList || word = "yes".toList)
  | none => value

/-- An integer in its variable, or else the value. -/
def intOr (env : Environment) (name : String) (value : Value) : Except ConfigError Value :=
  match env.set? name with
  | some text =>
    match Text.integer? 0 text.toList with
    | some n => .ok (.int n)
    | none => .error (.variable name text)
  | none => .ok value

/-- The variables of the environment that a configuration takes values from. -/
def variableNames : List String :=
  ["EVMHOST_VM_LIBRARY", "EVMHOST_CREATE_SYMBOL", "EVMHOST_REVISION", "EVMHOST_ABORT_ON_FATAL",
   "EVMHOST_LOG_LEVEL", "EVMHOST_CHAIN_ID", "EVMHOST_BLOCK_NUMBER", "EVMHOST_GAS", "EVMHOST_SENDER",
   "EVMHOST_STATE_FILE"]

/-- The configuration with the values of the environment in place of its own. -/
def override (env : Environment) (c : UncheckedConfig) : Except ConfigError UncheckedConfig := do
  let chainId ← intOr env "EVMHOST_CHAIN_ID" c.chainId
  let blockNumber ← intOr env "EVMHOST_BLOCK_NUMBER" c.blockNumber
  let gas ← intOr env "EVMHOST_GAS" c.gas
  return { c with
    library := textOr env "EVMHOST_VM_LIBRARY" c.library
    createSymbol := textOr env "EVMHOST_CREATE_SYMBOL" c.createSymbol
    revision := textOr env "EVMHOST_REVISION" c.revision
    abortOnFatal := flagOr env "EVMHOST_ABORT_ON_FATAL" c.abortOnFatal
    logLevel := textOr env "EVMHOST_LOG_LEVEL" c.logLevel
    chainId, blockNumber, gas
    sender := textOr env "EVMHOST_SENDER" c.sender
    stateFile := textOr env "EVMHOST_STATE_FILE" c.stateFile }

/-! ## Checks -/

/-- A value that has to be a text. -/
def checkText (field : FieldName) (value : Value) : Except ConfigError Text :=
  match value with
  | .text t => .ok t
  | value => .error (.notText field value)

/-- A text that has to say something. -/
def checkSet (field : FieldName) (text : Text) : Except ConfigError Text :=
  if text = .plain "" then .error (.missing field) else .ok text

/-- A value that has to be a truth value. -/
def checkFlag (field : FieldName) (value : Value) : Except ConfigError Bool :=
  match value with
  | .bool b => .ok b
  | value => .error (.notFlag field value)

/-- A value that has to be an integer from a bound on and below another. -/
def checkInt (field : FieldName) (least bound : Int) (value : Value) : Except ConfigError Int :=
  match value with
  | .int n => if least ≤ n ∧ n < bound then .ok n else .error (.outOfRange field n)
  | value => .error (.notInteger field value)

/-- A value that has to be the text of an address. -/
def checkAddress (field : FieldName) (value : Value) : Except ConfigError Text :=
  match value with
  | .text t => if Hex.isDigits 40 t.chars then .ok t else .error (.notAddress field value)
  | value => .error (.notAddress field value)

/-- A text that has to name a rule set. -/
def checkRevision (text : Text) : Except ConfigError Text :=
  match Revision.ofName text with
  | .ok _ => .ok text
  | .error cause => .error (.unusable "vm" cause)

/-- The names of the levels of the log. -/
def levelNames : List String := ["DEBUG", "INFO", "WARNING", "ERROR", "CRITICAL"]

/-- A text that has to name a level of the log, in whatever case. -/
def checkLevel (text : Text) : Except ConfigError Text :=
  if levelNames.contains (String.ofList (Text.upper text.chars)) then .ok text
  else .error (.level text)

/-- The configuration, if every value can be used. -/
def check (c : UncheckedConfig) : Except ConfigError Config := do
  let library ← checkText ⟨"vm", "library"⟩ c.library
  let createSymbol ← checkText ⟨"vm", "create_symbol"⟩ c.createSymbol
  let revision ← checkText ⟨"vm", "revision"⟩ c.revision
  let library ← checkSet ⟨"vm", "library"⟩ library
  let revision ← checkRevision revision
  let abortOnFatal ← checkFlag ⟨"host", "abort_on_fatal"⟩ c.abortOnFatal
  let logLevel ← checkLevel (← checkText ⟨"host", "log_level"⟩ c.logLevel)
  let origin ← checkAddress ⟨"tx", "origin"⟩ c.origin
  let coinbase ← checkAddress ⟨"tx", "coinbase"⟩ c.coinbase
  let gasPrice ← checkInt ⟨"tx", "gas_price"⟩ 0 (twoTo 256) c.gasPrice
  let blockDifficulty ← checkInt ⟨"tx", "block_difficulty"⟩ 0 (twoTo 256) c.blockDifficulty
  let chainId ← checkInt ⟨"tx", "chain_id"⟩ 0 (twoTo 256) c.chainId
  let blockNumber ← checkInt ⟨"tx", "block_number"⟩ 0 (twoTo 63) c.blockNumber
  let blockTimestamp ← checkInt ⟨"tx", "block_timestamp"⟩ 0 (twoTo 63) c.blockTimestamp
  let blockGasLimit ← checkInt ⟨"tx", "block_gas_limit"⟩ 0 (twoTo 63) c.blockGasLimit
  let gas ← checkInt ⟨"execution", "gas"⟩ 1 (twoTo 63) c.gas
  let sender ← checkAddress ⟨"execution", "sender"⟩ c.sender
  let stateFile ← checkText ⟨"storage", "state_file"⟩ c.stateFile
  let stateFile ← checkSet ⟨"storage", "state_file"⟩ stateFile
  return { library, createSymbol, revision, abortOnFatal, logLevel, gasPrice, origin, coinbase,
           blockNumber, blockTimestamp, blockGasLimit, blockDifficulty, chainId, gas, sender,
           stateFile }

end UncheckedConfig

/-! ## What a configuration stands for -/

namespace Config

/-- The configuration of a document in an environment. -/
def ofDocument (settings : Settings) (env : Environment) (document : Value) :
    Except ConfigError Config := do
  ((← UncheckedConfig.ofDocument settings document).override env) >>= UncheckedConfig.check

/-- The configuration of an environment, without a document. -/
def ofEnvironment (settings : Settings) (env : Environment) : Except ConfigError Config :=
  (UncheckedConfig.standard settings).override env >>= UncheckedConfig.check

/-- The rule set that a configuration names. -/
def revisionValue (c : Config) : Except Fault Revision := Revision.ofName c.revision

/-- What a configuration says about the transaction. -/
def txContext (c : Config) : Except Fault TxContext := do
  return {
    gasPrice := ← FixedBytes.ofInt c.gasPrice
    origin := ← FixedBytes.ofHex c.origin
    coinbase := ← FixedBytes.ofHex c.coinbase
    blockNumber := c.blockNumber
    blockTimestamp := c.blockTimestamp
    blockGasLimit := c.blockGasLimit
    blockDifficulty := ← FixedBytes.ofInt c.blockDifficulty
    chainId := ← FixedBytes.ofInt c.chainId }

/-- The address that starts executions. -/
def senderAddress (c : Config) : Except Fault Address := FixedBytes.ofHex c.sender

end Config

end ContractHost
