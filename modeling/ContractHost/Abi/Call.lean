import ContractHost.Abi.Decoding
import ContractHost.Abi.Description
import ContractHost.Abi.Encoding
import ContractHost.Abi.Shown

/-!
# Calls, constructions and logs

Coding with types alone or with a contract's description. Values come in as text and go out as readers
see them. In a log the indexed inputs stand in topics, one each, and the others in the data; of an
indexed value that takes more than a word, the topic holds only a hash.

* `encodeParams`, `encodeFunction`, `encodeConstructor`: from texts to data.
* `decodeParams`, `decodeFunction`, `decodeLog`: from data to what readers see.
-/

namespace ContractHost.Abi

/-- Bytes, as they are or as hexadecimal text. -/
inductive Source
  | raw (bytes : Bytes)
  | hex (text : Text)

/-- The bytes, if a text spells some. -/
def Source.bytes : Source → Except Fault Bytes
  | .raw bytes => .ok bytes
  | .hex text => (Hex.decode text).mapError Hex.Error.fault

/-- The data of a call or a log. -/
def Source.data (source : Source) : Except AbiError Bytes := source.bytes.mapError .invalidData

/-! ## Encoding -/

/-- The encoding of values of a list of types. -/
def encodeTypes (types : List (List Char)) (values : List Datum) : Except AbiError Bytes :=
  let encoding : Except Fault Bytes := do
    let coders ← types.mapM AbiType.ofText
    encodeAll coders values
  encoding.mapError .notEncoded

/-- The encoding of a list of value texts. All texts are read before any type is looked up. -/
def encodeParams (types values : List Text) (lenient : Bool) : Except AbiError Bytes := do
  if types.length ≠ values.length then throw (.valueCount values.length types.length)
  let data ← (types.zip values).mapM fun (type, text) => parse lenient type text
  encodeTypes (types.map Text.chars) data

/-- The data of a function's call. -/
def encodeFunction (entries : List Value) (name : Text) (values : List Text)
    (lenient : Bool) : Except AbiFailure Bytes := do
  let entry ← findEntry entries "function" (some name)
  let types ← escaping (parameterTypes entry "inputs")
  let selector ← escaping (do selectorOf (← signature entry))
  return selector ++ (← ownError (encodeParams types values lenient))

/-- The code of a construction and its values. -/
def encodeConstructor (entries : List Value) (code : Source) (values : List Text)
    (lenient : Bool) : Except AbiFailure Bytes := do
  let entry ← findEntry entries "constructor" none
  let types ← escaping (parameterTypes entry "inputs")
  let code ← ownError (code.bytes.mapError .invalidCode)
  return code ++ (← ownError (encodeParams types values lenient))

/-! ## Decoding -/

/-- The values of a list of types. -/
def decodeTypes (types : List (List Char)) (data : Bytes) : Except AbiError (List Datum) :=
  let decoding : Except Fault (List Datum) := do
    let coders ← types.mapM AbiType.ofText
    decodeAll coders data
  decoding.mapError .notDecoded

/-- The values of a list of types, each with its type. -/
def decodeParams (types : List Text) (data : Source) : Except AbiError (List (Text × Shown)) := do
  let values ← decodeTypes (types.map Text.chars) (← data.data)
  return (types.zip values).map fun (type, value) => (type, Shown.ofDatum type.chars value)

/-- The values that a function returned. -/
def decodeFunction (entries : List Value) (name : Text) (data : Source) :
    Except AbiFailure (List (Text × Shown)) := do
  let entry ← findEntry entries "function" (some name)
  let types ← escaping (parameterTypes entry "outputs")
  ownError (decodeParams types data)

/-! ## Logs -/

/-- Whether a topic holds only a hash of the values of a type. -/
def isHashed (type : List Char) : Bool :=
  type = "string".toList || type = "bytes".toList || endsWithBracket type || beginsWith type ['(']

/-- What an indexed input shows. -/
def showTopic (type : List Char) (topic : Bytes) : Except AbiError Shown := do
  if isHashed type then return .text (Hex.encode topic)
  else
    match ← decodeTypes [type] topic with
    | value :: _ => return Shown.ofDatum type value
    | [] => return .list []

/-- Whether a value can name an input: lists and tables cannot. -/
def isName : Value → Bool
  | .list _ => false
  | .table _ => false
  | _ => true

/-- Whether an input is indexed. -/
def isIndexed (input : Value) : Except Fault Bool := do
  return (← input.getD "indexed" .null).truthy

/-- The inputs that are indexed, or those that are not. -/
def inputsWith (indexed : Bool) : List Value → Except Fault (List Value)
  | [] => .ok []
  | input :: rest => do
    let is ← isIndexed input
    let others ← inputsWith indexed rest
    return if is == indexed then input :: others else others

/-- Each input's name and what it shows, in the order of the inputs. -/
def pairInputs : (inputs : List Value) → (topics : List Bytes) → (values : List Datum) →
    Except AbiFailure (List (Value × Shown))
  | [], _, _ => .ok []
  | input :: inputs, topics, values => do
    let type := (← escaping (canonicalType input)).chars
    let indexed ← escaping (isIndexed input)
    let shown ←
      if indexed then ownError (showTopic type (topics.headD []))
      else pure (Shown.ofDatum type (values.headD default))
    let name ← escaping (input.getD "name" (.text ""))
    if isName name then
      let rest ← pairInputs inputs (if indexed then topics.drop 1 else topics)
        (if indexed then values else values.drop 1)
      return (name, shown) :: rest
    else throw (.escaped .wrongType)

/-- The topics of an event without that of its signature, which an anonymous event does not have. -/
def withoutSignature (entry : Value) (topics : List Bytes) : Except AbiFailure (List Bytes) := do
  if (← escaping (entry.getD "anonymous" (.bool false))).truthy then return topics
  let text ← escaping (signature entry)
  let expected ← escaping (topicOf text)
  match topics with
  | first :: rest => if first = expected.bytes then return rest else throw (.error (.wrongTopic text))
  | [] => throw (.error (.wrongTopic text))

/-- What a log of an event shows: each input's name and value. -/
def decodeLog (entries : List Value) (event : Text) (topics : List Source) (data : Source) :
    Except AbiFailure (List (Value × Shown)) := do
  let entry ← findEntry entries "event" (some event)
  let inputs ← escaping (entry.getD "inputs" (.list []))
  let topics ← ownError (topics.mapM Source.data)
  let topics ← withoutSignature entry topics
  let inputs ← escaping inputs.items
  let indexed ← escaping (inputsWith true inputs)
  if topics.length ≠ indexed.length then
    throw (.error (.topicCount event indexed.length topics.length))
  let types ← escaping (do (← inputsWith false inputs).mapM canonicalType)
  let values ← ownError (do decodeTypes (types.map Text.chars) (← data.data))
  pairInputs inputs topics values

end ContractHost.Abi
