import ContractHost.Proofs.Boundary.Transparent
import ContractHost.Proofs.Config.Fields
import ContractHost.Proofs.HexTexts

/-!
# Checked configurations can be used

A configuration is made of a document and an environment. Either it is refused, and then a table of the
document is none, a variable does not spell what its field needs, or the value of a field is not what
the field needs. Or it holds the values that were to be used, and whatever is made of them later on can
be made: the rule set, the transaction's context in both forms, the sender's address and the gas of a
message.

* `ConfigField.Need.Meets`, `UncheckedConfig.check_ok`, `check_fails`: what is checked.
* `Config.Usable`: what a configuration is used for.
* `Config.ofDocument_usable`: configurations of documents.
-/

namespace ContractHost

/-- A value is what a field needs. -/
def ConfigField.Need.Meets : Need → Value → Prop
  | text, .text _ => True
  | path, .text s => s ≠ ""
  | revision, .text s => ∃ r, Revision.ofName s = .ok r
  | level, .text s => String.ofList (Text.upper s.chars) ∈ UncheckedConfig.levelNames
  | flag, .bool _ => True
  | address, .text s => ∃ a : Address, a.SpelledBy s
  | integer least bound, .int n => least ≤ n ∧ n < bound
  | _, _ => False

/-- The error of a value that is not what its field needs. -/
def ConfigField.refusal (f : ConfigField) (value : Value) : ConfigError :=
  match f.need, value with
  | .flag, value => .notFlag f.place value
  | .address, value => .notAddress f.place value
  | .integer .., .int n => .outOfRange f.place n
  | .integer .., value => .notInteger f.place value
  | .revision, .text s => .unusable f.place.table (.revision s)
  | .level, .text s => .level s
  | _, .text _ => .missing f.place
  | _, value => .notText f.place value

/-- What a configuration holds, as values. -/
def Config.values (c : Config) : UncheckedConfig where
  library := .text c.library
  createSymbol := .text c.createSymbol
  revision := .text c.revision
  abortOnFatal := .bool c.abortOnFatal
  logLevel := .text c.logLevel
  gasPrice := .int c.gasPrice
  origin := .text c.origin
  coinbase := .text c.coinbase
  blockNumber := .int c.blockNumber
  blockTimestamp := .int c.blockTimestamp
  blockGasLimit := .int c.blockGasLimit
  blockDifficulty := .int c.blockDifficulty
  chainId := .int c.chainId
  gas := .int c.gas
  sender := .text c.sender
  stateFile := .text c.stateFile

/-! ## Checks -/

theorem Revision.ofName_ends (text : Text) :
    Ends (ofName text) (fun _ => True) (· = .revision text) := by
  unfold ofName
  split
  · exact .ok trivial
  · exact .error rfl

namespace UncheckedConfig

/-- An error says that the value of a field is not what the field needs. -/
def Refused (u : UncheckedConfig) (e : ConfigError) : Prop :=
  ∃ f : ConfigField, ¬f.need.Meets (u.value f) ∧ e = f.refusal (u.value f)

section Steps

variable {u : UncheckedConfig} {text : Text}

theorem checkText_ends (f : ConfigField)
    (hneed : f.need = .text ∨ f.need = .path ∨ f.need = .revision ∨ f.need = .level) :
    Ends (checkText f.place (u.value f)) (u.value f = .text ·) u.Refused := by
  have hrefused (value : Value) (hvalue : u.value f = value) (hno : ∀ s, value ≠ .text s) :
      u.Refused (.notText f.place value) := by
    refine ⟨f, ?_⟩
    unfold ConfigField.refusal
    cases value with
    | text s => exact absurd rfl (hno s)
    | _ =>
      rcases hneed with hneed | hneed | hneed | hneed <;> rw [hneed, hvalue] <;> exact ⟨id, rfl⟩
  unfold checkText
  split
  · rename_i s hvalue
    exact .ok hvalue
  · rename_i hno
    exact .error (hrefused _ rfl hno)

theorem checkSet_ends (f : ConfigField) (hneed : f.need = .path) (hvalue : u.value f = .text text) :
    Ends (checkSet f.place text) (fun s => text = s ∧ s ≠ "") u.Refused := by
  unfold checkSet
  split
  · rename_i hempty
    refine .error ⟨f, ?_⟩
    unfold ConfigField.refusal
    rw [hvalue, hneed]
    exact ⟨fun hset => hset hempty, rfl⟩
  · rename_i hset
    exact .ok ⟨rfl, hset⟩

theorem checkRevision_ends (hvalue : u.value .revision = .text text) :
    Ends (checkRevision text) (fun s => text = s ∧ ∃ r, Revision.ofName s = .ok r) u.Refused := by
  unfold checkRevision
  cases hname : Revision.ofName text with
  | ok r => exact .ok ⟨rfl, r, hname⟩
  | error cause =>
    refine .error ⟨.revision, ?_⟩
    rw [hvalue, (Revision.ofName_ends text).fails cause hname]
    exact ⟨fun ⟨r, hr⟩ => (nomatch hr.symm.trans hname), rfl⟩

theorem checkLevel_ends (hvalue : u.value .logLevel = .text text) :
    Ends (checkLevel text)
      (fun s => text = s ∧ String.ofList (Text.upper s.chars) ∈ levelNames) u.Refused := by
  unfold checkLevel
  split
  · rename_i hlevel
    exact .ok ⟨rfl, List.contains_iff_mem.1 hlevel⟩
  · rename_i hlevel
    refine .error ⟨.logLevel, ?_⟩
    rw [hvalue]
    exact ⟨fun hmeets => hlevel (List.contains_iff_mem.2 hmeets), rfl⟩

theorem checkFlag_ends (f : ConfigField) (hneed : f.need = .flag) :
    Ends (checkFlag f.place (u.value f)) (u.value f = .bool ·) u.Refused := by
  have hrefused (value : Value) (hvalue : u.value f = value) (hno : ∀ b, value ≠ .bool b) :
      u.Refused (.notFlag f.place value) := by
    refine ⟨f, ?_⟩
    unfold ConfigField.refusal
    rw [hneed, hvalue]
    cases value with
    | bool b => exact absurd rfl (hno b)
    | _ => exact ⟨id, rfl⟩
  unfold checkFlag
  split
  · rename_i b hvalue
    exact .ok hvalue
  · rename_i hno
    exact .error (hrefused _ rfl hno)

theorem checkInt_ends (f : ConfigField) {least bound : Int} (hneed : f.need = .integer least bound) :
    Ends (checkInt f.place least bound (u.value f))
      (fun n => u.value f = .int n ∧ least ≤ n ∧ n < bound) u.Refused := by
  have hrefused (value : Value) (hvalue : u.value f = value) (hno : ∀ n, value ≠ .int n) :
      u.Refused (.notInteger f.place value) := by
    refine ⟨f, ?_⟩
    unfold ConfigField.refusal
    rw [hneed, hvalue]
    cases value with
    | int n => exact absurd rfl (hno n)
    | _ => exact ⟨id, rfl⟩
  unfold checkInt
  split
  · rename_i n hvalue
    split
    · rename_i hrange
      exact .ok ⟨hvalue, hrange⟩
    · rename_i hrange
      refine .error ⟨f, ?_⟩
      unfold ConfigField.refusal
      rw [hneed, hvalue]
      exact ⟨hrange, rfl⟩
  · rename_i hno
    exact .error (hrefused _ rfl hno)

theorem checkAddress_ends (f : ConfigField) (hneed : f.need = .address) :
    Ends (checkAddress f.place (u.value f))
      (fun s => u.value f = .text s ∧ ∃ a : Address, a.SpelledBy s) u.Refused := by
  have hrefused (value : Value) (hvalue : u.value f = value)
      (hno : ∀ s, value = .text s → ¬∃ a : Address, a.SpelledBy s) :
      u.Refused (.notAddress f.place value) := by
    refine ⟨f, ?_⟩
    unfold ConfigField.refusal
    rw [hneed, hvalue]
    cases value with
    | text s => exact ⟨hno s rfl, rfl⟩
    | _ => exact ⟨id, rfl⟩
  unfold checkAddress
  split
  · rename_i s hvalue
    split
    · rename_i hdigits
      exact .ok ⟨hvalue, FixedBytes.isDigits_iff.1 hdigits⟩
    · rename_i hdigits
      refine .error (hrefused _ rfl fun t ht hspelled => hdigits ?_)
      cases hvalue.symm.trans ht
      exact FixedBytes.isDigits_iff.2 hspelled
  · rename_i hno
    exact .error (hrefused _ rfl fun s hs => absurd hs (hno s))

end Steps

/-- A check gives a configuration with the values that were checked, which are what the fields need. Or
it refuses one that is not. -/
theorem check_ends (u : UncheckedConfig) : Ends u.check
    (fun c => u = c.values ∧ ∀ f : ConfigField, f.need.Meets (c.values.value f)) u.Refused := by
  unfold check
  refine (checkText_ends .library (.inr (.inl rfl))).bind fun library hlibrary => ?_
  refine (checkText_ends .createSymbol (.inl rfl)).bind fun createSymbol hcreateSymbol => ?_
  refine (checkText_ends .revision (.inr (.inr (.inl rfl)))).bind fun revision hrevision => ?_
  refine (checkSet_ends .library rfl hlibrary).bind fun _ ⟨rfl, hset⟩ => ?_
  refine (checkRevision_ends hrevision).bind fun _ ⟨rfl, hnamed⟩ => ?_
  refine (checkFlag_ends .abortOnFatal rfl).bind fun abortOnFatal habortOnFatal => ?_
  refine (checkText_ends .logLevel (.inr (.inr (.inr rfl)))).bind fun logLevel hlogLevel => ?_
  refine (checkLevel_ends hlogLevel).bind fun _ ⟨rfl, hlevel⟩ => ?_
  refine (checkAddress_ends .origin rfl).bind fun origin ⟨horigin, horigin'⟩ => ?_
  refine (checkAddress_ends .coinbase rfl).bind fun coinbase ⟨hcoinbase, hcoinbase'⟩ => ?_
  refine (checkInt_ends .gasPrice rfl).bind fun gasPrice ⟨hgasPrice, hgasPrice'⟩ => ?_
  refine (checkInt_ends .blockDifficulty rfl).bind fun difficulty ⟨hdifficulty, hdifficulty'⟩ => ?_
  refine (checkInt_ends .chainId rfl).bind fun chainId ⟨hchainId, hchainId'⟩ => ?_
  refine (checkInt_ends .blockNumber rfl).bind fun blockNumber ⟨hnumber, hnumber'⟩ => ?_
  refine (checkInt_ends .blockTimestamp rfl).bind fun timestamp ⟨htimestamp, htimestamp'⟩ => ?_
  refine (checkInt_ends .blockGasLimit rfl).bind fun gasLimit ⟨hlimit, hlimit'⟩ => ?_
  refine (checkInt_ends .gas rfl).bind fun gas ⟨hgas, hgas'⟩ => ?_
  refine (checkAddress_ends .sender rfl).bind fun sender ⟨hsender, hsender'⟩ => ?_
  refine (checkText_ends .stateFile (.inr (.inl rfl))).bind fun stateFile hstateFile => ?_
  refine (checkSet_ends .stateFile rfl hstateFile).bind fun _ ⟨rfl, hfile⟩ => ?_
  refine .ok ⟨?_, fun f => ?_⟩
  · cases u
    simp only [value] at *
    subst_vars
    rfl
  · cases f <;> first | assumption | trivial

end UncheckedConfig

/-! ## Uses -/

/-- A context has the numbers and addresses of a configuration. -/
structure TxContext.Of (tx : TxContext) (c : Config) : Prop where
  gasPrice : (tx.gasPrice.toNat : Int) = c.gasPrice
  origin : tx.origin.SpelledBy c.origin
  coinbase : tx.coinbase.SpelledBy c.coinbase
  blockNumber : tx.blockNumber = c.blockNumber
  blockTimestamp : tx.blockTimestamp = c.blockTimestamp
  blockGasLimit : tx.blockGasLimit = c.blockGasLimit
  blockDifficulty : (tx.blockDifficulty.toNat : Int) = c.blockDifficulty
  chainId : (tx.chainId.toNat : Int) = c.chainId

namespace Config

/-- Whatever is made of a configuration can be made: the rule set, the context of the transaction, which
crosses the native boundary unchanged, the sender's address, and a positive amount of gas in 64 bits. -/
structure Usable (c : Config) : Prop where
  revision : ∃ r, c.revisionValue = .ok r
  context : ∃ tx raw, c.txContext = .ok tx ∧ tx.Of c ∧ tx.toRaw = .ok raw ∧ raw.toContext = tx
  sender : ∃ a : Address, c.senderAddress = .ok a ∧ a.SpelledBy c.sender
  gas : 0 < c.gas ∧ ∃ raw, int64? c.gas = some raw

theorem exists_ofInt {n : Int} (h : 0 ≤ n ∧ n < twoTo 256) :
    ∃ b, FixedBytes.ofInt n = .ok b ∧ (b.toNat : Int) = n := by
  have hb : FixedBytes.ofInt n = .ok (.ofNat n.toNat) := if_pos h
  exact ⟨_, hb, FixedBytes.toInt_ofInt hb⟩

theorem exists_int64 {least n : Int} (hleast : 0 ≤ least) (h : least ≤ n ∧ n < twoTo 63) :
    ∃ raw, int64? n = some raw :=
  int64?_fits_iff.2 ⟨by simp only [twoTo]; omega, h.2⟩

/-- A context whose numbers fit crosses the boundary. -/
theorem exists_toRaw {tx : TxContext} (hnumber : ∃ raw, int64? tx.blockNumber = some raw)
    (htimestamp : ∃ raw, int64? tx.blockTimestamp = some raw)
    (hlimit : ∃ raw, int64? tx.blockGasLimit = some raw) : ∃ raw, tx.toRaw = .ok raw := by
  obtain ⟨number, hnumber⟩ := hnumber
  obtain ⟨timestamp, htimestamp⟩ := htimestamp
  obtain ⟨limit, hlimit⟩ := hlimit
  rw [TxContext.toRaw, hnumber, htimestamp, hlimit]
  exact ⟨_, rfl⟩

/-- A configuration with what its fields need can be used. -/
theorem usable_of_meets {c : Config} (h : ∀ f : ConfigField, f.need.Meets (c.values.value f)) :
    c.Usable where
  revision := h .revision
  context := by
    obtain ⟨gasPrice, hgasPrice, hgasPrice'⟩ := exists_ofInt (h .gasPrice)
    obtain ⟨difficulty, hdifficulty, hdifficulty'⟩ := exists_ofInt (h .blockDifficulty)
    obtain ⟨chainId, hchainId, hchainId'⟩ := exists_ofInt (h .chainId)
    obtain ⟨origin, horigin⟩ := h .origin
    obtain ⟨coinbase, hcoinbase⟩ := h .coinbase
    let tx : TxContext := ⟨gasPrice, origin, coinbase, c.blockNumber, c.blockTimestamp,
      c.blockGasLimit, difficulty, chainId⟩
    have htx : c.txContext = .ok tx := by
      rw [txContext, hgasPrice, FixedBytes.ofHex_eq_ok_iff.2 horigin,
        FixedBytes.ofHex_eq_ok_iff.2 hcoinbase, hdifficulty, hchainId]
      rfl
    obtain ⟨raw, hraw⟩ : ∃ raw, tx.toRaw = .ok raw :=
      exists_toRaw (exists_int64 le_rfl (h .blockNumber)) (exists_int64 le_rfl (h .blockTimestamp))
        (exists_int64 le_rfl (h .blockGasLimit))
    exact ⟨tx, raw, htx,
      ⟨hgasPrice', horigin, hcoinbase, rfl, rfl, rfl, hdifficulty', hchainId'⟩, hraw,
      TxContext.toContext_of_toRaw hraw⟩
  sender := by
    obtain ⟨sender, hsender⟩ := h .sender
    exact ⟨sender, FixedBytes.ofHex_eq_ok_iff.2 hsender, hsender⟩
  gas := ⟨(h .gas).1, exists_int64 zero_le_one (h .gas)⟩

/-- Why a document and an environment make no configuration. -/
inductive Refusal (settings : Settings) (env : Environment) (document : List (Text × Value)) :
    ConfigError → Prop
  /-- The table of a field is none. -/
  | malformed (f : ConfigField) (h : ¬f.Tabular document) :
      Refusal settings env document (.malformed .noOperation)
  /-- The variable of a field does not spell what the field needs. -/
  | variable (f : ConfigField) (name text : String) (hname : f.varName? = some name)
      (hset : env.set? name = some text) (hspelled : f.spelled? text = none) :
      Refusal settings env document (.variable name text)
  /-- The value of a field is not what the field needs. -/
  | value (f : ConfigField) (value : Value) (hchosen : f.chosen settings env document = some value)
      (hmeets : ¬f.need.Meets value) : Refusal settings env document (f.refusal value)

/-- A document and an environment make a configuration with the values that are to be used, which are
what the fields need. Or they make none for one of the reasons. -/
theorem ofDocument_ends (settings : Settings) (env : Environment) (document : List (Text × Value)) :
    Ends (ofDocument settings env (.table document))
      (fun c => (∀ f : ConfigField, f.chosen settings env document = some (c.values.value f)) ∧
        ∀ f : ConfigField, f.need.Meets (c.values.value f))
      (Refusal settings env document) := by
  have hdocument : Ends (UncheckedConfig.ofDocument settings (.table document))
      (fun u => ∀ f : ConfigField, f.chosen settings env document = f.preferred env (u.value f))
      (Refusal settings env document) :=
    Ends.mapError (UncheckedConfig.ofTables_ends.imp
      (fun u hu f => by rw [ConfigField.chosen, hu])
      fun _ ⟨hfault, f, hf⟩ => hfault ▸ .malformed f hf)
  refine hdocument.bind fun u hu => ?_
  have hoverride : Ends (u.override env)
      (fun u' => ∀ f : ConfigField, f.chosen settings env document = some (u'.value f))
      (Refusal settings env document) :=
    (UncheckedConfig.override_ends u).imp (fun u' hu' f => (hu f).trans (hu' f))
      fun _ ⟨f, name, text, hname, hset, hspelled, he⟩ => he ▸ .variable f name text hname hset hspelled
  refine hoverride.bind fun u' hu' => ?_
  refine (UncheckedConfig.check_ends u').imp (fun c ⟨hc, hmeets⟩ => ⟨hc ▸ hu', hmeets⟩) ?_
  rintro _ ⟨f, hmeets, rfl⟩
  exact .value f _ (hu' f) hmeets

/-- A document and an environment make no configuration only for one of the reasons, and a configuration
that they do make has the values that are to be used, each of them what its field needs, and can be
used. -/
theorem ofDocument_usable (settings : Settings) (env : Environment)
    (document : List (Text × Value)) :
    (∀ e, ofDocument settings env (.table document) = .error e →
      Refusal settings env document e) ∧
    ∀ c, ofDocument settings env (.table document) = .ok c →
      (∀ f : ConfigField, f.chosen settings env document = some (c.values.value f) ∧
        f.need.Meets (c.values.value f)) ∧ c.Usable := by
  have hends := ofDocument_ends settings env document
  refine ⟨hends.fails, fun c hc => ?_⟩
  obtain ⟨hchosen, hmeets⟩ := hends.gives c hc
  exact ⟨fun f => ⟨hchosen f, hmeets f⟩, usable_of_meets hmeets⟩

/-- What a document says about the gas gives way to the variable, and an empty variable to what the
document says about the chain. A truth value is no number of a chain. -/
theorem ofDocument_usable_overridden :
    (∃ c, ofDocument {} ⟨[("EVMHOST_GAS", "0x10"), ("EVMHOST_CHAIN_ID", "")], by decide⟩
        (.table [("tx", .table [("chain_id", .int 7)]), ("execution", .table [("gas", .int 5)])]) =
        .ok c ∧ c.gas = 16 ∧ c.chainId = 7 ∧ c.Usable) ∧
      Refusal {} ⟨[], by decide⟩ [("tx", .table [("chain_id", .bool true)])]
        (.notInteger ⟨"tx", "chain_id"⟩ (.bool true)) := by
  have hc : ofDocument {} ⟨[("EVMHOST_GAS", "0x10"), ("EVMHOST_CHAIN_ID", "")], by decide⟩
      (.table [("tx", .table [("chain_id", .int 7)]), ("execution", .table [("gas", .int 5)])]) =
      .ok ⟨"libevmone.so", "", "petersburg", false, "INFO", 0, UncheckedConfig.zeroAddress,
        UncheckedConfig.zeroAddress, 0, 0, 0, 0, 7, 16, Hex.encode (List.replicate 20 0x80),
        "state.json"⟩ := by rfl
  exact ⟨⟨_, hc, rfl, rfl, ((ofDocument_usable _ _ _).2 _ hc).2⟩,
    (ofDocument_usable _ _ _).1 _ (by rfl)⟩

end Config

end ContractHost
