import ContractHost.Abi.Error
import ContractHost.Abi.Type
import ContractHost.Document.Access
import ContractHost.Files.System
import ContractHost.Hash.Keccak
import ContractHost.Json.Reader
import ContractHost.Text.Utf8

/-!
# Contract descriptions

A contract is described by a list of entries: functions, events, a constructor and others. A file
holds the list itself or a table with the list under `abi`. The text of an entry's signature names it
and the types of its inputs, where the types of a tuple's components stand in parentheses; its hash
tells entries apart in calls and logs. An entry that lacks what is asked of it is a fault of its own,
which the caller lets through.

* `findEntry`: the first entry of a kind, and perhaps of a name.
* `signature`: the text of an entry's signature.
-/

namespace ContractHost.Abi

/-- How coding with a description fails. -/
abbrev AbiFailure := WithFault AbiError

/-- The list of entries that a document holds. -/
def entriesOf (path : String) (document : Value) : Except AbiError (List Value) :=
  let held := match document with
    | .table fields => (Value.field? fields "abi").getD .null
    | document => document
  match held with
  | .list entries => .ok entries
  | _ => .error (.noList path)

/-- The list of entries that the bytes of a file spell. -/
def ofBytes (path : String) (bytes : Bytes) : Except AbiFailure (List Value) :=
  match Utf8.decode? bytes with
  | none => .error (.escaped .notUtf8)
  | some chars =>
    match Json.read (.ofChars chars) with
    | .ok document => ownError (entriesOf path document)
    | .error .notJson => .error (.error (.notJson path))
    | .error fault => .error (.escaped fault)

/-- The list of entries that a file holds. -/
def load {m : Type → Type} [Monad m] (files : FileSystem m) (path : Path) :
    m (Except AbiFailure (List Value)) := do
  match ← files.read path with
  | .ok bytes => return ofBytes path.text bytes
  | .error .badValue => return .error (.escaped .badValue)
  | .error fault => return .error (.error (.unreadable path.text fault))

/-! ## Entries -/

/-- Whether a value is the given text. -/
def isText (value : Value) (text : Text) : Bool :=
  match value with
  | .text t => t == text
  | _ => false

/-- Whether an entry is of a kind, and of a name if there is one. An entry without a kind is a
function. -/
def answers (entry : Value) (kind : String) (name : Option Text) : Except Fault Bool := do
  let is ← entry.getD "type" (.text "function")
  if isText is kind then
    match name with
    | none => return true
    | some name => return isText (← entry.getD "name" .null) name
  else return false

/-- The place and the first entry of a kind, and of a name if there is one, among entries that begin
at a place. -/
def findFrom (kind : String) (name : Option Text) :
    (place : Nat) → List Value → Except Fault (Option (Nat × Value))
  | _, [] => .ok none
  | place, entry :: rest => do
    if ← answers entry kind name then return some (place, entry)
    else findFrom kind name (place + 1) rest

/-- The text that names the entry that is looked for. -/
def labelOf (kind : String) (name : Option Text) : Text :=
  match name with
  | some name => if name = .plain "" then kind else s!"{kind} " ++ name
  | none => kind

/-- The place and the first entry of a kind, and of a name if there is one. -/
def findPlace (entries : List Value) (kind : String) (name : Option Text) :
    Except AbiFailure (Nat × Value) := do
  match ← escaping (findFrom kind name 0 entries) with
  | some found => return found
  | none => throw (.error (.noEntry (labelOf kind name)))

/-- The first entry of a kind, and of a name if there is one. -/
def findEntry (entries : List Value) (kind : String) (name : Option Text) :
    Except AbiFailure Value := do
  return (← findPlace entries kind name).2

/-! ## Types of parameters -/

theorem sizeOf_field {fields : List (Text × Value)} {name : String} {value : Value}
    (h : Value.field? fields name = some value) : sizeOf value < sizeOf fields := by
  simp only [Value.field?] at h
  induction fields with
  | nil => simp [OrderedMap.lookup] at h
  | cons field rest ih =>
    obtain ⟨k, v⟩ := field
    rw [OrderedMap.lookup] at h
    split at h
    · rw [Option.some.inj h]
      simp only [List.cons.sizeOf_spec, Prod.mk.sizeOf_spec]
      omega
    · have := ih h
      simp only [List.cons.sizeOf_spec]
      omega

/-- Texts with commas between them. -/
def separated (texts : List Text) : List Letter :=
  [.char ','].intercalate (texts.map Text.letters)

/-- Texts with commas between them, in parentheses. -/
def parenthesised (texts : List Text) : List Letter :=
  .char '(' :: separated texts ++ [.char ')']

/-- The type of a parameter in full: a tuple as the types of its components. -/
def canonicalType (param : Value) : Except Fault Text :=
  match param with
  | .table fields =>
    match Value.field? fields "type" with
    | none => .error .missingKey
    | some (.text type) =>
      if "tuple".toList.isPrefixOf type.chars then do
        let inner ← match _hc : Value.field? fields "components" with
          | none => pure []
          | some (.list components) =>
            components.attach.mapM fun component => canonicalType component.1
          -- the items of anything else are texts, which are no parameters
          | some other => do
            if (← other.items).isEmpty then pure [] else .error .wrongType
        return .ofLetters (parenthesised inner ++ type.letters.drop 5)
      else .ok type
    | some _ => .error .noOperation
  | _ => .error .wrongType
termination_by sizeOf param
decreasing_by
  have hfield := sizeOf_field _hc
  have hitem := List.sizeOf_lt_of_mem component.2
  simp only [Value.list.sizeOf_spec, Value.table.sizeOf_spec] at *
  omega

/-- The types of the parameters that a field of an entry lists. -/
def parameterTypes (entry : Value) (field : String) : Except Fault (List Text) := do
  (← (← entry.getD field (.list [])).items).mapM canonicalType

/-- The text of an entry's signature. -/
def signature (entry : Value) : Except Fault Text := do
  let types ← parameterTypes entry "inputs"
  let name ← entry.index "name"
  return name.plain ++ .ofLetters (parenthesised types)

/-- The hash of a signature. -/
def topicOf (signature : Text) : Except Fault Bytes32 :=
  match Utf8.encode? signature with
  | some bytes => .ok (Keccak.hash bytes)
  | none => .error .nonAscii

/-- The start of the hash of a signature. -/
def selectorOf (signature : Text) : Except Fault Bytes := do
  return (← topicOf signature).bytes.take 4

end ContractHost.Abi
