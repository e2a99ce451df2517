import ContractHost.Document.Access
import ContractHost.Json.Reader
import ContractHost.Json.Writer
import ContractHost.State.HostState

/-!
# Snapshots

A state is written as a JSON document and read back. The fields of a document are read in a fixed
order, so of two faults the first one in that order is reported. Every account must stand under its
own address.

* `HostState.dumps` and `HostState.loads` write and read a snapshot.
-/

namespace ContractHost

/-- Why a snapshot is of no use. -/
inductive SnapshotError
  /-- The text is not JSON. -/
  | notJson
  /-- The document is not a table. -/
  | notTable
  /-- Something in the document cannot be read. -/
  | malformed (cause : Fault)
  /-- An account stands under another address. -/
  | misplaced (key : Text)
  /-- The file cannot be read. -/
  | unreadable (path : String) (cause : Fault)
  /-- The file cannot be written. -/
  | unwritable (path : String) (cause : Fault)
  deriving DecidableEq

/-- The text of a snapshot error, with a wording for faults that have none of their own. -/
def SnapshotError.message (wording : Fault → String) : SnapshotError → Text
  | .notJson => "State snapshot is not valid JSON: " ++ Fault.notJson.describe wording
  | .notTable => "State snapshot must be a JSON object"
  | .malformed cause => "Malformed state snapshot: " ++ cause.describe wording
  | .misplaced key => "Account " ++ key ++ " is stored under a different address"
  | .unreadable path cause => s!"Failed to read {path}: " ++ cause.describe wording
  | .unwritable path cause => s!"Failed to write {path}: " ++ cause.describe wording

/-- How reading a snapshot fails. -/
abbrev SnapshotFailure := WithFault SnapshotError

/-! ## Writing -/

/-- A slot as a document. -/
def StorageValue.toValue (slot : StorageValue) : Value :=
  .table [("data", .text slot.data.toHex), ("modify_time", .int slot.modifyTime)]

/-- A log as a document. -/
def LogEntry.toValue (log : LogEntry) : Value :=
  .table [("data", .text (Hex.encode log.data)),
    ("topics", .list (log.topics.map fun topic => .text topic.toHex))]

/-- An account as a document. -/
def Account.toValue (account : Account) : Value :=
  .table [("nonce", .int account.nonce), ("address", .text account.address.toHex),
    ("code", match account.code with
      | some code => .text (Hex.encode code)
      | none => .null),
    ("storage", .table (account.storage.entries.map fun (key, slot) => (key.toHex, slot.toValue))),
    ("logs", .list (account.logs.map LogEntry.toValue))]

/-- A state as a document. -/
def HostState.toValue (s : HostState) : Value :=
  .table [("depth", .int s.depth), ("current_account", .text s.currentAccount.toHex),
    ("accounts", .table (s.accounts.entries.map fun (address, account) =>
      (address.toHex, account.toValue))),
    ("destructed_accounts", .list (s.destructed.map fun address => .text address.toHex))]

/-- A state as the text of a snapshot, unless one of its numbers has no text. -/
def HostState.dumps (s : HostState) : Except Fault String :=
  if Json.writable s.toValue then .ok (Json.write .indented s.toValue) else .error .badValue

/-! ## Reading -/

/-- A slot from a document. -/
def StorageValue.ofValue (value : Value) : Except Fault StorageValue := do
  let data ← (← value.index "data").toFixed
  let modifyTime ← (← value.getD "modify_time" (.int 0)).toInt
  return { data, modifyTime }

/-- A log from a document. -/
def LogEntry.ofValue (value : Value) : Except Fault LogEntry := do
  let data ← (← value.getD "data" (.text "0x")).toBytes
  let topics ← (← (← value.getD "topics" (.list [])).items).mapM Value.toFixed
  return { data, topics }

/-- The slots of an account, in order. -/
def storageOfFields (storage : OrderedMap Bytes32 StorageValue) :
    List (Text × Value) → Except Fault (OrderedMap Bytes32 StorageValue)
  | [] => .ok storage
  | (name, value) :: rest => do
    let key ← FixedBytes.ofHex name
    let slot ← StorageValue.ofValue value
    storageOfFields (storage.insert key slot) rest

/-- Code from a document, where nothing stands for no code. -/
def codeOfValue : Value → Except Fault (Option Bytes)
  | .null => .ok none
  | value => do return some (← value.toBytes)

/-- An account from a document. -/
def Account.ofValue (value : Value) : Except Fault Account := do
  let code ← value.getD "code" .null
  let address ← (← value.index "address").toFixed
  let nonce ← (← value.getD "nonce" (.int 0)).toInt
  let code ← codeOfValue code
  let storage ← storageOfFields ∅ (← (← value.getD "storage" (.table [])).fields)
  let logs ← (← (← value.getD "logs" (.list [])).items).mapM LogEntry.ofValue
  return { address, nonce, code, storage, logs }

/-- A fault while a document is read: most make the snapshot malformed, but a number that does not
fit is let through. -/
def SnapshotFailure.ofFault (fault : Fault) : SnapshotFailure :=
  if fault = .outOfRange then .escaped fault else .error (.malformed fault)

/-- A step of reading a document, with its fault made a failure. -/
def reading {α : Type} (step : Except Fault α) : Except SnapshotFailure α :=
  step.mapError SnapshotFailure.ofFault

/-- The accounts of a state, in order. -/
def accountsOfFields (accounts : OrderedMap Address Account) :
    List (Text × Value) → Except SnapshotFailure (OrderedMap Address Account)
  | [] => .ok accounts
  | (name, value) :: rest => do
    let account ← reading (Account.ofValue value)
    let key ← reading (FixedBytes.ofHex name)
    if account.address = key then
      accountsOfFields (accounts.insert account.address account) rest
    else .error (.error (.misplaced name))

/-- A state from a document that is a table. -/
def HostState.ofValue (value : Value) : Except SnapshotFailure HostState := do
  let fields ← reading (do (← value.getD "accounts" (.table [])).fields)
  let accounts ← accountsOfFields ∅ fields
  let depth ← reading (do (← value.getD "depth" (.int 0)).toInt)
  let currentAccount ← reading (do
    (← value.getD "current_account" (.text (FixedBytes.zero : Address).toHex)).toFixed)
  let destructed ← reading (do
    (← (← value.getD "destructed_accounts" (.list [])).items).mapM Value.toFixed)
  return { depth, currentAccount, accounts, destructed }

/-- A state from the text of a snapshot. -/
def HostState.loads (text : Text) : Except SnapshotFailure HostState :=
  match Json.read text with
  | .ok (.table fields) => ofValue (.table fields)
  | .ok _ => .error (.error .notTable)
  | .error .notJson => .error (.error .notJson)
  | .error fault => .error (.escaped fault)

end ContractHost
