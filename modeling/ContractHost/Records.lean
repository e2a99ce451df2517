import ContractHost.Boundary.Query
import ContractHost.Config.Basic
import ContractHost.Document.Optional
import ContractHost.Interpreter.Memory

/-!
# Records in documents

Messages, contexts, outcomes, questions and configurations as tables of a document. Numbers that may be
large are written as texts, and bytes as hexadecimal text. What a table leaves out has its default; of
several fields that are wrong the first one in the order of the record is the fault.
-/

namespace ContractHost

/-- An integer as its decimal text. -/
def Value.large (n : Int) : Value := .text (Decimal.intText n)

/-- Bytes as hexadecimal text. -/
def Value.ofBytes (bytes : Bytes) : Value := .text (Hex.encode bytes)

/-- The bytes of a fixed width as hexadecimal text. -/
def Value.ofFixed {width : Width} (b : FixedBytes width) : Value := .text b.toHex

/-! ## Messages -/

/-- The message that a table describes. -/
def Message.ofValue (v : Value) : Except Fault Message := do
  let some kind := ((v.text? "kind").getD "CALL").string?.bind CallKind.ofName? | .error .missingKey
  return {
    kind
    flags := flagBits (v.integerD "flags" 0)
    depth := v.integerD "depth" 0
    gas := v.integerD "gas" 0
    destination := ← v.fixedOf "destination"
    sender := ← v.fixedOf "sender"
    input := ← v.bytesOf "input"
    value := ← v.wordOf "value"
    salt := ← v.fixedOf "salt" }

/-- A message as a table, with whether it forbids changes. -/
def Message.toValue (m : Message) : Value :=
  .table [("kind", .text m.kind.name), ("flags", .int m.flags), ("depth", .int m.depth),
    ("gas", .large m.gas), ("destination", .ofFixed m.destination), ("sender", .ofFixed m.sender),
    ("input", .ofBytes m.input), ("value", .large m.value.toNat), ("salt", .ofFixed m.salt),
    ("static", .bool m.isStatic)]

/-! ## Contexts -/

/-- The context that a table describes. -/
def TxContext.ofValue (v : Value) : Except Fault TxContext := do
  return {
    gasPrice := ← v.wordOf "gas_price"
    origin := ← v.fixedOf "origin"
    coinbase := ← v.fixedOf "coinbase"
    blockNumber := v.integerD "block_number" 0
    blockTimestamp := v.integerD "block_timestamp" 0
    blockGasLimit := v.integerD "block_gas_limit" 0
    blockDifficulty := ← v.wordOf "block_difficulty"
    chainId := ← v.wordOf "chain_id" }

/-- The fields of a context. -/
def TxContext.fields (tx : TxContext) : List (Text × Value) :=
  [("gas_price", .large tx.gasPrice.toNat), ("origin", .ofFixed tx.origin),
   ("coinbase", .ofFixed tx.coinbase), ("block_number", .large tx.blockNumber),
   ("block_timestamp", .large tx.blockTimestamp), ("block_gas_limit", .large tx.blockGasLimit),
   ("block_difficulty", .large tx.blockDifficulty.toNat), ("chain_id", .large tx.chainId.toNat)]

/-! ## Outcomes -/

/-- The outcome that a table describes. -/
def Outcome.ofValue (v : Value) : Except Fault Outcome := do
  let some status := ((v.text? "status").getD "SUCCESS").string?.bind StatusCode.ofName? | .error .missingKey
  return {
    status
    gasLeft := v.integerD "gas_left" 0
    output := ← v.bytesOf "output"
    createAddress := ← v.fixedOf "create_address" }

/-- The fields of an outcome, with whether it is a success. -/
def Outcome.fields (o : Outcome) : List (Text × Value) :=
  [("status", .text o.status.name), ("success", .bool o.isSuccess), ("gas_left", .large o.gasLeft),
   ("output", .ofBytes o.output), ("create_address", .ofFixed o.createAddress)]

/-! ## Questions -/

/-- The question that a table asks by a name, if the name is that of one. -/
def Query.ofValue [Room] (name : String) (v : Value) : Except Fault (Option Query) := do
  match name with
  | "get_storage" => return some (.getStorage (← v.fixedOf "address") (← v.fixedOf "key"))
  | "set_storage" =>
    return some (.setStorage (← v.fixedOf "address") (← v.fixedOf "key") (← v.fixedOf "value"))
  | "account_exists" => return some (.accountExists (← v.fixedOf "address"))
  | "get_balance" => return some (.getBalance (← v.fixedOf "address"))
  | "get_code_size" => return some (.getCodeSize (← v.fixedOf "address"))
  | "get_code_hash" => return some (.getCodeHash (← v.fixedOf "address"))
  | "copy_code" =>
    let address ← v.fixedOf "address"
    let offset ← fitting (uint64? (v.integerD "offset" 0))
    let size ← fitting (uint64? (v.integerD "size" 0))
    checkRoom size.toNat
    return some (.copyCode address offset size)
  | "selfdestruct" =>
    return some (.selfdestruct (← v.fixedOf "address") (← v.fixedOf "beneficiary"))
  | "emit_log" =>
    let address ← v.fixedOf "address"
    let data ← v.bytesOf "data"
    return some (.emitLog address data (← (v.listOf "topics").mapM Value.toFixed))
  | "get_block_hash" =>
    return some (.getBlockHash (← fitting (int64? (v.integerD "number" 0))))
  | "get_tx_context" => return some .txContext
  | "call" =>
    let raw ← (← Message.ofValue (v.part "message")).toRaw
    match (v.present? "raw_kind").bind Value.integer? with
    | none => return some (.call raw)
    | some kind =>
      return some (.call
        { raw with kind := ← fitting (if kind < 0 then none else uint32? kind.toNat) })
  | _ => return none

/-! ## Configurations -/

/-- A configuration as a table of tables. -/
def Config.toValue (c : Config) : Value :=
  .table [
    ("vm", .table [("library", .text c.library), ("create_symbol", .text c.createSymbol),
      ("revision", .text c.revision)]),
    ("host", .table [("abort_on_fatal", .bool c.abortOnFatal), ("log_level", .text c.logLevel)]),
    ("tx", .table [("gas_price", .large c.gasPrice), ("origin", .text c.origin),
      ("coinbase", .text c.coinbase), ("block_number", .large c.blockNumber),
      ("block_timestamp", .large c.blockTimestamp), ("block_gas_limit", .large c.blockGasLimit),
      ("block_difficulty", .large c.blockDifficulty), ("chain_id", .large c.chainId)]),
    ("execution", .table [("gas", .large c.gas), ("sender", .text c.sender)]),
    ("storage", .table [("state_file", .text c.stateFile)])]

end ContractHost
