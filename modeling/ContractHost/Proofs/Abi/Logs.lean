import ContractHost.Proofs.Abi.Descriptions
import ContractHost.Proofs.Abi.RoundTrip

/-!
# What a log shows

A log of an event holds its inputs in two places, indexed ones in topics and others in the data, each in
the order of the inputs. What is shown puts them together again: one entry for each input, with its own
value, or with the topic where that holds only a hash.

* `Emits`: what a log of some inputs holds, and what it shows.
* `pairInputs_of_emits`: the two places are put together in the order of the inputs.
* `decodeLog_event`: the logs that an event shows, and those that it refuses.
-/

namespace ContractHost.Abi

/-! ## Inputs -/

/-- An input of an event. -/
structure Input where
  name : Value
  type : AbiType
  indexed : Bool

/-- A parameter that describes an input. -/
structure Announces (param : Value) (input : Input) : Prop where
  type : Describes param input.type
  name : param.getD "name" (.text "") = .ok input.name
  isName : isName input.name = true
  indexed : isIndexed param = .ok input.indexed

/-- The types of the inputs that are indexed, or of those that are not. -/
def typesWith (indexed : Bool) (inputs : List Input) : List AbiType :=
  (inputs.filter (·.indexed == indexed)).map (·.type)

variable {params : List Value} {inputs : List Input}

theorem canonicalTypes_of_announces (h : List.Forall₂ Announces params inputs) :
    params.mapM canonicalType = .ok ((inputs.map (·.type.text)).map Text.ofChars) := by
  rw [mapM_eq_ok_iff, List.map_map, List.forall₂_map_right_iff]
  exact h.imp fun _ _ hinput => hinput.type.canonicalType

theorem inputsWith_of_announces (h : List.Forall₂ Announces params inputs) (indexed : Bool) :
    ∃ chosen, inputsWith indexed params = .ok chosen ∧
      List.Forall₂ Announces chosen (inputs.filter (·.indexed == indexed)) := by
  induction h with
  | nil => exact ⟨[], rfl, .nil⟩
  | @cons param input params inputs hinput _ ih =>
    obtain ⟨chosen, hchosen, hrest⟩ := ih
    rw [inputsWith, hinput.indexed, List.filter_cons]
    simp only [bind, Except.bind, hchosen]
    split
    · exact ⟨_, rfl, .cons hinput hrest⟩
    · exact ⟨_, rfl, hrest⟩

/-! ## Hashed types -/

/-- Whether the values of a type may take more than a word, so that a topic holds only a hash of them. -/
def AbiType.isHashed : AbiType → Bool
  | .string => true
  | .bytes => true
  | .array .. => true
  | .tuple _ => true
  | _ => false

/-- The text of a name and what follows it is not that of a hashed type, but for two names. -/
theorem isHashed_basic {name : String} (hname : name.toList.all isPlain = true) (suffix : Suffix)
    (hstring : name.toList ++ TypeText.suffixText suffix ≠ "string".toList)
    (hbytes : name.toList ++ TypeText.suffixText suffix ≠ "bytes".toList) :
    isHashed (name.toList ++ TypeText.suffixText suffix) = false := by
  have hplain := isPlain_basic hname suffix
  generalize name.toList ++ TypeText.suffixText suffix = text at *
  have hends := endsWithBracket_of_plain hplain
  have hbegins : beginsWith text ['('] = false := by
    refine Bool.eq_false_iff.2 fun hstart => ?_
    have hmem : '(' ∈ text := (List.isPrefixOf_iff_prefix.1 hstart).subset List.mem_cons_self
    exact nomatch hplain '(' hmem
  rw [isHashed, decide_eq_false hstring, decide_eq_false hbytes, hends, hbegins]
  rfl

theorem isHashed_text (type : AbiType) : isHashed type.text = type.isHashed := by
  cases type with
  | uint bits => exact isHashed_basic rfl (.one bits) nofun nofun
  | int bits => exact isHashed_basic rfl (.one bits) nofun nofun
  | bool => rfl
  | address => rfl
  | ufixed bits places => exact isHashed_basic rfl (.two bits places) nofun nofun
  | fixed bits places => exact isHashed_basic rfl (.two bits places) nofun nofun
  | bytesN size =>
    refine isHashed_basic rfl (.one size) nofun fun h => ?_
    exact Decimal.digits_ne_nil size (List.append_cancel_left h)
  | bytes => rfl
  | string => rfl
  | array item size =>
    obtain ⟨front, hfront⟩ : ∃ front, TypeText.sizeText size = front ++ [']'] := by
      cases size with
      | none => exact ⟨['['], rfl⟩
      | some n => exact ⟨_, rfl⟩
    have hends : endsWithBracket (item.text ++ TypeText.sizeText size) = true := by
      rw [hfront, ← List.append_assoc, endsWithBracket, List.getLast?_concat]
      rfl
    rw [AbiType.text_array, isHashed, hends, Bool.or_true, Bool.true_or]
    rfl
  | tuple components =>
    rw [AbiType.text_tuple]
    exact Bool.or_true _

/-! ## Logs -/

/-- What a log of some inputs holds and shows: the topics of the indexed inputs, the values of the
others, and an entry for each input. Values are shown as they come back from their encoding. -/
inductive Emits : List Input → List Bytes → List Datum → List (Value × Shown) → Prop
  | nil : Emits [] [] [] []
  /-- Any topic stands for a value that is only hashed. -/
  | hashed {inputs : List Input} {topics : List Bytes} {values : List Datum}
    {shown : List (Value × Shown)} {name : Value} {type : AbiType} {topic : Bytes}
    (htype : type.isHashed = true) (h : Emits inputs topics values shown) :
    Emits (⟨name, type, true⟩ :: inputs) (topic :: topics) values
      ((name, .text (Hex.encode topic)) :: shown)
  /-- A topic is the encoding of a value of one word. -/
  | word {inputs : List Input} {topics : List Bytes} {values : List Datum}
    {shown : List (Value × Shown)} {name : Value} {type : AbiType} {topic : Bytes} {value : Datum}
    (htype : type.isHashed = false) (hproper : type.Proper)
    (htopic : encodeTypes [type.text] [value] = .ok topic) (h : Emits inputs topics values shown) :
    Emits (⟨name, type, true⟩ :: inputs) (topic :: topics) values
      ((name, Shown.ofDatum type.text (settled type value)) :: shown)
  /-- The value of an input that is not indexed is in the data. -/
  | data {inputs : List Input} {topics : List Bytes} {values : List Datum}
    {shown : List (Value × Shown)} {name : Value} {type : AbiType} {value : Datum}
    (hproper : type.Proper) (h : Emits inputs topics values shown) :
    Emits (⟨name, type, false⟩ :: inputs) topics (value :: values)
      ((name, Shown.ofDatum type.text (settled type value)) :: shown)

namespace Emits

variable {topics : List Bytes} {values : List Datum} {shown : List (Value × Shown)}

theorem length_topics (h : Emits inputs topics values shown) :
    topics.length = (typesWith true inputs).length := by
  induction h with
  | nil => rfl
  | hashed _ _ ih => exact congrArg Nat.succ ih
  | word _ _ _ _ ih => exact congrArg Nat.succ ih
  | data _ _ ih => exact ih

theorem proper (h : Emits inputs topics values shown) :
    ∀ type ∈ typesWith false inputs, type.Proper := by
  induction h with
  | nil => exact List.forall_mem_nil _
  | hashed _ _ ih => exact ih
  | word _ _ _ _ ih => exact ih
  | data hproper _ ih => exact List.forall_mem_cons.2 ⟨hproper, ih⟩

theorem names (h : Emits inputs topics values shown) :
    shown.map Prod.fst = inputs.map Input.name := by
  induction h with
  | nil => rfl
  | hashed _ _ ih => exact congrArg _ ih
  | word _ _ _ _ ih => exact congrArg _ ih
  | data _ _ ih => exact congrArg _ ih

end Emits

/-! ## Values from topics and data -/

theorem means_text {types : List AbiType} (proper : ∀ type ∈ types, type.Proper) :
    Means (types.map AbiType.text) types := by
  rw [Means, List.forall₂_map_left_iff, List.forall₂_same]
  exact fun type htype => AbiType.ofText_text (proper type htype)

theorem Means.unique {texts : List (List Char)} {types types' : List AbiType} (h : Means texts types)
    (h' : Means texts types') : types = types' := by
  induction h generalizing types' with
  | nil => cases h'; rfl
  | cons hfirst _ ih =>
    obtain ⟨type', rest', hfirst', hrest', rfl⟩ := List.forall₂_cons_left_iff.1 h'
    rw [Except.ok.inj (hfirst.symm.trans hfirst'), ih hrest']

theorem decodeTypes_text {types : List AbiType} (proper : ∀ type ∈ types, type.Proper)
    {values : List Datum} {data : Bytes}
    (h : encodeTypes (types.map AbiType.text) values = .ok data) :
    decodeTypes (types.map AbiType.text) data = .ok (settledMembers types values) := by
  obtain ⟨coders, hmeans, -, hdecode, -⟩ := decodeTypes_encodeTypes h
  rwa [hmeans.unique (means_text proper)] at hdecode

theorem showTopic_hashed {type : AbiType} (h : type.isHashed = true) (topic : Bytes) :
    showTopic type.text topic = .ok (.text (Hex.encode topic)) := by
  rw [showTopic, isHashed_text, if_pos h]
  rfl

theorem showTopic_word {type : AbiType} (h : type.isHashed = false) (proper : type.Proper)
    {value : Datum} {topic : Bytes} (htopic : encodeTypes [type.text] [value] = .ok topic) :
    showTopic type.text topic = .ok (Shown.ofDatum type.text (settled type value)) := by
  have hdecode : decodeTypes [type.text] topic = .ok [settled type value] :=
    decodeTypes_text (List.forall_mem_singleton.2 proper) htopic
  rw [showTopic, isHashed_text, h, if_neg Bool.false_ne_true, hdecode]
  rfl

section Step

variable {param : Value} {input : Input} {topics : List Bytes} {values : List Datum}
  {rest : List (Value × Shown)}

theorem pairInputs_indexed (hinput : Announces param input) (hindexed : input.indexed = true)
    {topic : Bytes} {shown : Shown} (hshown : showTopic input.type.text topic = .ok shown)
    (hrest : pairInputs params topics values = .ok rest) :
    pairInputs (param :: params) (topic :: topics) values = .ok ((input.name, shown) :: rest) := by
  simp only [pairInputs, escaping, ownError, hinput.type.canonicalType, Text.chars_ofChars,
    hinput.indexed, hindexed, hinput.name, hinput.isName, Except.mapError, bind, Except.bind, if_true,
    List.headD_cons, List.drop_one, List.tail_cons, hshown, hrest]
  rfl

theorem pairInputs_data (hinput : Announces param input) (hindexed : input.indexed = false)
    {value : Datum} (hrest : pairInputs params topics values = .ok rest) :
    pairInputs (param :: params) topics (value :: values) =
      .ok ((input.name, Shown.ofDatum input.type.text value) :: rest) := by
  simp only [pairInputs, escaping, hinput.type.canonicalType, Text.chars_ofChars, hinput.indexed,
    hindexed, hinput.name, hinput.isName, Except.mapError, bind, Except.bind, Bool.false_eq_true,
    if_false, if_true, List.headD_cons, List.drop_one, List.tail_cons, pure, Except.pure, hrest]

end Step

/-- The topics and the values in the data are put together in the order of the inputs. -/
theorem pairInputs_of_emits {topics : List Bytes} {values : List Datum}
    {shown : List (Value × Shown)} (h : Emits inputs topics values shown)
    (hparams : List.Forall₂ Announces params inputs) :
    pairInputs params topics (settledMembers (typesWith false inputs) values) = .ok shown := by
  induction h generalizing params with
  | nil =>
    cases hparams
    rfl
  | hashed htype _ ih =>
    obtain ⟨param, params, hinput, hrest, rfl⟩ := List.forall₂_cons_right_iff.1 hparams
    exact pairInputs_indexed hinput rfl (showTopic_hashed htype _) (ih hrest)
  | word htype hproper htopic _ ih =>
    obtain ⟨param, params, hinput, hrest, rfl⟩ := List.forall₂_cons_right_iff.1 hparams
    exact pairInputs_indexed hinput rfl (showTopic_word htype hproper htopic) (ih hrest)
  | data _ _ ih =>
    obtain ⟨param, params, hinput, hrest, rfl⟩ := List.forall₂_cons_right_iff.1 hparams
    exact pairInputs_data hinput rfl (ih hrest)

/-! ## Events -/

/-- The entry of an event, with the inputs that it describes. -/
structure EventOf (entries : List Value) (event : Text) (entry : Value) (anonymous : Bool)
    (inputs : List Input) : Prop where
  found : findEntry entries "event" (some event) = .ok entry
  anonymous : ∃ mark, entry.getD "anonymous" (.bool false) = .ok mark ∧ mark.truthy = anonymous
  inputs : ∃ params, entry.getD "inputs" (.list []) = .ok (.list params) ∧
    List.Forall₂ Announces params inputs

/-- The text of an event's signature. -/
def signatureText (event : Text) (inputs : List Input) : Text :=
  event ++ .ofChars ('(' :: commaSeparated (inputs.map (·.type.text)) ++ [')'])

/-- The topics before those of the inputs: the hash of the signature, unless the event is anonymous. A
signature has a hash if it can be written in UTF-8. -/
inductive Leads (signature : Text) : (anonymous : Bool) → List Bytes → Prop
  | anonymous : Leads signature true []
  | named {bytes : Bytes} (h : Utf8.encode? signature = some bytes) :
    Leads signature false [(Keccak.hash bytes).bytes]

section Event

variable {entries : List Value} {event : Text} {entry : Value} {anonymous : Bool}

theorem EventOf.signature (h : EventOf entries event entry anonymous inputs) :
    signature entry = .ok (signatureText event inputs) := by
  obtain ⟨params, hparams, hinputs⟩ := h.inputs
  have htypes : parameterTypes entry "inputs" =
      .ok ((inputs.map (·.type.text)).map Text.ofChars) := by
    rw [parameterTypes, hparams]
    exact canonicalTypes_of_announces hinputs
  rw [Abi.signature, htypes]
  simp only [bind, Except.bind, index_name_of_findEntry h.found, parenthesised_ofChars,
    Text.ofLetters_chars]
  rfl

theorem withoutSignature_anonymous (h : EventOf entries event entry true inputs)
    (topics : List Bytes) : withoutSignature entry topics = .ok topics := by
  obtain ⟨mark, hmark, htruthy⟩ := h.anonymous
  simp only [withoutSignature, escaping, hmark, Except.mapError, bind, Except.bind, htruthy, if_true]
  rfl

theorem withoutSignature_named (h : EventOf entries event entry false inputs) {bytes : Bytes}
    (hbytes : Utf8.encode? (signatureText event inputs) = some bytes) (topics : List Bytes) :
    withoutSignature entry topics =
      if topics.head? = some (Keccak.hash bytes).bytes then .ok topics.tail
      else .error (.error (.wrongTopic (signatureText event inputs))) := by
  obtain ⟨mark, hmark, htruthy⟩ := h.anonymous
  simp only [withoutSignature, escaping, hmark, Except.mapError, bind, Except.bind, htruthy,
    Bool.false_eq_true, if_false, h.signature, topicOf, hbytes]
  cases topics with
  | nil => rfl
  | cons first rest =>
    simp only [List.head?_cons, List.tail_cons, Option.some.injEq]
    rfl

variable {leading : List Bytes}

theorem withoutSignature_leading (h : EventOf entries event entry anonymous inputs)
    (hleads : Leads (signatureText event inputs) anonymous leading) (topics : List Bytes) :
    withoutSignature entry (leading ++ topics) = .ok topics := by
  cases hleads with
  | anonymous => exact withoutSignature_anonymous h topics
  | named hbytes => rw [withoutSignature_named h hbytes]; exact if_pos rfl

/-- What is left without the signature's topic, if the first topic is not wrong. -/
theorem withoutSignature_cases (h : EventOf entries event entry anonymous inputs)
    (hleads : Leads (signatureText event inputs) anonymous leading) (topics : List Bytes) :
    (∃ e, withoutSignature entry topics = .error (.error e)) ∨
      ∃ rest, topics = leading ++ rest ∧ withoutSignature entry topics = .ok rest := by
  cases hleads with
  | anonymous => exact .inr ⟨topics, rfl, withoutSignature_anonymous h topics⟩
  | named hbytes =>
    rw [withoutSignature_named h hbytes]
    split
    · rename_i hfirst
      obtain ⟨rest, rfl⟩ := List.head?_eq_some_iff.1 hfirst
      exact .inr ⟨rest, rfl, rfl⟩
    · exact .inl ⟨_, rfl⟩

variable {sources : List Source} {source : Source}

/-- What a log of an event shows, when its topics and its data are those that the event emits. -/
theorem decodeLog_emitted (h : EventOf entries event entry anonymous inputs)
    (hleads : Leads (signatureText event inputs) anonymous leading) {topics : List Bytes}
    {values : List Datum} {shown : List (Value × Shown)} (hemits : Emits inputs topics values shown)
    {data : Bytes} (hdata : encodeTypes ((typesWith false inputs).map AbiType.text) values = .ok data)
    (hsources : sources.mapM Source.data = .ok (leading ++ topics)) (hsource : source.data = .ok data) :
    decodeLog entries event sources source = .ok shown := by
  obtain ⟨params, hparams, hinputs⟩ := h.inputs
  obtain ⟨indexed, hindexed, hindexedInputs⟩ := inputsWith_of_announces hinputs true
  obtain ⟨others, hothers, hotherInputs⟩ := inputsWith_of_announces hinputs false
  have hcount : topics.length = indexed.length := by
    rw [hemits.length_topics, hindexedInputs.length_eq, typesWith, List.length_map]
  have htypes : others.mapM canonicalType =
      .ok (((typesWith false inputs).map AbiType.text).map Text.ofChars) := by
    rw [canonicalTypes_of_announces hotherInputs, typesWith, List.map_map, List.map_map, List.map_map]
    rfl
  have hdecode := decodeTypes_text hemits.proper hdata
  have hshown := pairInputs_of_emits hemits hinputs
  have hleft := withoutSignature_leading h hleads topics
  simp only [decodeLog, escaping, ownError, h.found, hparams, hsources, hleft, Value.items, hindexed,
    hcount, hothers, htypes, Text.map_chars_ofChars, hsource, hdecode, hshown, Except.mapError, bind, Except.bind, ne_eq,
    not_true_eq_false, if_false]

/-- A log with another number of topics, or with another first topic than the event's, is an error. -/
theorem decodeLog_refused (h : EventOf entries event entry anonymous inputs)
    (hleads : Leads (signatureText event inputs) anonymous leading)
    (hwrong : sources.length ≠ leading.length + (typesWith true inputs).length ∨
      ∃ topic ∈ leading.head?, ∀ first ∈ sources.head?, first.data ≠ .ok topic) :
    ∃ e, decodeLog entries event sources source = .error (.error e) := by
  obtain ⟨params, hparams, hinputs⟩ := h.inputs
  obtain ⟨indexed, hindexed, hindexedInputs⟩ := inputsWith_of_announces hinputs true
  cases hsources : sources.mapM Source.data with
  | error e =>
    simp only [decodeLog, escaping, ownError, h.found, hparams, hsources, Except.mapError, bind,
      Except.bind]
    exact ⟨e, rfl⟩
  | ok topics =>
    have hall := mapM_eq_ok_iff.1 hsources
    -- a right first topic leaves only the wrong number of topics
    obtain ⟨e, herror⟩ | ⟨rest, rfl, hleft⟩ := withoutSignature_cases h hleads topics
    · simp only [decodeLog, escaping, ownError, h.found, hparams, hsources, herror, Except.mapError,
        bind, Except.bind]
      exact ⟨e, rfl⟩
    · have hcount : rest.length ≠ indexed.length := by
        intro hsame
        rcases hwrong with hlength | ⟨topic, htopic, hother⟩
        · rw [hall.length_eq, List.length_append, hsame, hindexedInputs.length_eq, typesWith,
            List.length_map] at hlength
          exact hlength rfl
        · obtain ⟨more, rfl⟩ := List.head?_eq_some_iff.1 htopic
          obtain ⟨first, others, hfirst, -, rfl⟩ := List.forall₂_cons_right_iff.1 hall
          exact hother first rfl hfirst
      simp only [decodeLog, escaping, ownError, h.found, hparams, hsources, hleft, Value.items,
        hindexed, if_pos hcount, Except.mapError, bind, Except.bind]
      exact ⟨_, rfl⟩

/-- A log that holds what an event emits shows an entry for each input, in the order of the inputs; and a
log with another number of topics, or with another first topic than the event's, is an error. Both hold
of all events that are anonymous or have a signature with a hash. -/
theorem decodeLog_event (h : EventOf entries event entry anonymous inputs)
    (hleads : Leads (signatureText event inputs) anonymous leading) :
    (∀ {topics values shown data}, Emits inputs topics values shown →
      encodeTypes ((typesWith false inputs).map AbiType.text) values = .ok data →
      sources.mapM Source.data = .ok (leading ++ topics) → source.data = .ok data →
      decodeLog entries event sources source = .ok shown ∧
        shown.map Prod.fst = inputs.map Input.name) ∧
    ((sources.length ≠ leading.length + (typesWith true inputs).length ∨
        ∃ topic ∈ leading.head?, ∀ first ∈ sources.head?, first.data ≠ .ok topic) →
      ∃ e, decodeLog entries event sources source = .error (.error e)) :=
  ⟨fun hemits hdata hsources hsource =>
      ⟨decodeLog_emitted h hleads hemits hdata hsources hsource, hemits.names⟩,
    decodeLog_refused h hleads⟩

end Event

/-- Topics and data are read in turn. -/
theorem decodeLog_event_interleaved :
    let kind := Value.table [("name", .text "kind"), ("type", .text "uint8"), ("indexed", .bool true)]
    let parts := Value.table [("name", .text "parts"), ("type", .text "bytes2[]")]
    let memo := Value.table [("name", .text "memo"), ("type", .text "string"), ("indexed", .bool true)]
    let moved := Value.table
      [("type", .text "event"), ("name", .text "Moved"), ("inputs", .list [kind, parts, memo])]
    let signature := Keccak.hash (Utf8.ofChars "Moved(uint8,bytes2[],string)".toList)
    let topics := [Source.raw signature.bytes, .raw (numberWord 7), .raw (numberWord 0)]
    let data := numberWord 32 ++ (numberWord 1 ++ Bytes.padRight 32 [0xab])
    decodeLog [moved] "Moved" topics (.raw data) =
        .ok [(.text "kind", Shown.ofDatum "uint8".toList (.int 7)),
          (.text "parts", Shown.ofDatum "bytes2[]".toList (.list [.bytes [0xab, 0]])),
          (.text "memo", .text (Hex.encode (numberWord 0)))] ∧
      ∃ e, decodeLog [moved] "Moved" topics.tail (.raw data) = .error (.error e) := by
  intro kind parts memo moved signature topics data
  let inputs : List Input := [⟨.text "kind", .uint 8, true⟩,
    ⟨.text "parts", .array (.bytesN 2) none, false⟩, ⟨.text "memo", .string, true⟩]
  have hkind : Announces kind ⟨.text "kind", .uint 8, true⟩ := ⟨.named rfl rfl, rfl, rfl, rfl⟩
  have hparts : Announces parts ⟨.text "parts", .array (.bytesN 2) none, false⟩ :=
    ⟨.named rfl rfl, rfl, rfl, rfl⟩
  have hmemo : Announces memo ⟨.text "memo", .string, true⟩ := ⟨.named rfl rfl, rfl, rfl, rfl⟩
  have hevent : EventOf [moved] "Moved" moved false inputs := ⟨rfl, ⟨_, rfl, rfl⟩,
    ⟨_, rfl, .cons hkind (.cons hparts (.cons hmemo .nil))⟩⟩
  have hleads : Leads (signatureText "Moved" inputs) false [signature.bytes] := .named (by decide)
  have hword : encodeTypes [(AbiType.uint 8).text] [.int 7] = .ok (numberWord 7) := by decide +kernel
  have hdata : encodeTypes ((typesWith false inputs).map AbiType.text) [.list [.bytes [0xab]]] =
      .ok data := by
    decide +kernel
  have hrest : Emits [⟨.text "memo", .string, true⟩] [numberWord 0] [] _ := .hashed rfl .nil
  have hemits : Emits inputs [numberWord 7, numberWord 0] [.list [.bytes [0xab]]] _ :=
    .word rfl (.uint rfl) hword (.data (.array (.bytesN (by decide)) nofun) hrest)
  have hcount : topics.tail.length ≠ [signature.bytes].length + (typesWith true inputs).length := by
    show 2 ≠ 1 + 2
    decide
  refine ⟨?_, (decodeLog_event hevent hleads).2 (.inl hcount)⟩
  exact ((decodeLog_event hevent hleads).1 hemits hdata rfl rfl).1

/-- A name with a half of a pair cannot be written, and the fault of its signature is let through. -/
theorem decodeLog_unwritable :
    let event := Text.halved "" ⟨0xd800, by decide⟩ ""
    let entry := Value.table [("type", .text "event"), ("name", .text event), ("inputs", .list [])]
    EventOf [entry] event entry false [] ∧
      ¬∃ e, decodeLog [entry] event [] (.hex "0x") = .error (.error e) := by
  refine ⟨⟨rfl, ⟨_, rfl, rfl⟩, ⟨_, rfl, .nil⟩⟩, ?_⟩
  rintro ⟨e, h⟩
  exact nomatch h

end ContractHost.Abi
