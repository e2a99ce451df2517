import ContractHost.Proofs.Json.Refusals
import ContractHost.Proofs.State.Reachable

/-!
# Malformed snapshots

Whatever stands in a document where an account, a slot, a log, a topic, a number or an address is
expected, reading it as a snapshot gives a state or a snapshot error. One value gets past that: an
infinite number where a count is expected is out of range, and the fault goes through.

* `FailsBy`, `Detects`: how a step fails, and what its failure tells.
* `HostState.InfiniteCount`: the documents with such a value.
* `HostState.loads_outcome`: what reading any text comes to.
-/

namespace ContractHost

/-! ## How steps fail -/

section Steps

variable {ε α β : Type} {P : ε → Prop} {e : ε} {bad bad' : Prop} {step : Except ε α}
  {next : α → Except ε β}

/-- A step fails only in ways with a property. -/
def FailsBy (P : ε → Prop) (step : Except ε α) : Prop := ∀ e, step = .error e → P e

/-- A step that finds no number out of range. -/
abbrev InRange (step : Except Fault α) : Prop := FailsBy (· ≠ .outOfRange) step

/-- A step detects a defect: where the defect is the step gives nothing, and where the step fails in
one way the defect is. -/
structure Detects (e : ε) (bad : Prop) (step : Except ε α) : Prop where
  passes : ∀ a, step = .ok a → ¬bad
  fails : step = .error e → bad

namespace FailsBy

theorem ok (a : α) : FailsBy P (.ok a) := nofun

theorem error (h : P e) : FailsBy P (.error e : Except ε α) := by
  rintro _ ⟨rfl⟩
  exact h

theorem bind (h : FailsBy P step) (hnext : ∀ a, step = .ok a → FailsBy P (next a)) :
    FailsBy P (step >>= next) := by
  cases step with
  | error cause => exact .error (h cause rfl)
  | ok a => exact hnext a rfl

theorem mapM {f : α → Except ε β} (h : ∀ a, FailsBy P (f a)) (items : List α) :
    FailsBy P (items.mapM f) := by
  induction items with
  | nil => exact ok []
  | cons a rest ih =>
    rw [List.mapM_cons]
    exact (h a).bind fun _ _ => ih.bind fun _ _ => ok _

theorem detects (h : FailsBy (· ≠ e) step) : Detects e False step :=
  ⟨fun _ _ => id, fun hfail => h e hfail rfl⟩

end FailsBy

namespace Detects

theorem congr (h : Detects e bad step) (hiff : bad ↔ bad') : Detects e bad' step :=
  ⟨fun a ha hbad => h.passes a ha (hiff.2 hbad), fun hfail => hiff.1 (h.fails hfail)⟩

theorem error {cause : ε} (h : cause ≠ e) : Detects e bad (.error cause : Except ε α) :=
  ⟨nofun, fun hfail => absurd (Except.error.inj hfail) h⟩

theorem bind (h : Detects e bad step) (hnext : ∀ a, step = .ok a → Detects e bad' (next a)) :
    Detects e (bad ∨ bad') (step >>= next) := by
  cases step with
  | error cause => exact ⟨nofun, fun hfail => Or.inl (h.fails (congrArg _ (Except.error.inj hfail)))⟩
  | ok a =>
    refine ⟨fun b hb hbad => ?_, fun hfail => Or.inr ((hnext a rfl).fails hfail)⟩
    rcases hbad with hbad | hbad
    · exact h.passes a rfl hbad
    · exact (hnext a rfl).passes b hb hbad

/-- The defect is detected after a step that does not fail like that. -/
theorem after (h : FailsBy (· ≠ e) step) (hnext : ∀ a, step = .ok a → Detects e bad (next a)) :
    Detects e bad (step >>= next) :=
  (h.detects.bind hnext).congr (iff_of_eq (false_or bad))

/-- The defect is detected before steps that do not fail like that. -/
theorem before (h : Detects e bad step) (hnext : ∀ a, FailsBy (· ≠ e) (next a)) :
    Detects e bad (step >>= next) :=
  (h.bind fun a _ => (hnext a).detects).congr (iff_of_eq (or_false bad))

end Detects

end Steps

/-! ## Values of a document -/

theorem ofBytes_inRange {width : Width} (bytes : Bytes) :
    InRange (FixedBytes.ofBytes bytes : Except Fault (FixedBytes width)) := by
  unfold FixedBytes.ofBytes
  split
  · exact .ok _
  · exact .error (by simp)

theorem Hex.Error.fault_ne_outOfRange (cause : Hex.Error) : cause.fault ≠ .outOfRange := by
  cases cause <;> decide

theorem ofHex_inRange {width : Width} (text : Text) :
    InRange (FixedBytes.ofHex text : Except Fault (FixedBytes width)) := by
  unfold FixedBytes.ofHex
  split
  · exact ofBytes_inRange _
  · exact .error (Hex.Error.fault_ne_outOfRange _)

namespace Value

/-- A field is an infinite number. -/
def Infinite (value : Value) (name : String) : Prop :=
  ∃ negative, value.get name = .ok (some (.float (.infinite negative)))

/-- A field is a table, and one of the fields in it has a property. -/
def Holds (value : Value) (name : String) (P : Text × Value → Prop) : Prop :=
  ∃ fields, value.get name = .ok (some (.table fields)) ∧ ∃ field ∈ fields, P field

variable (value : Value)

theorem getD_inRange (name : String) (default : Value) :
    InRange (value.getD name default) := by
  have hget : InRange (value.get name) := by
    cases value with
    | table fields => exact .ok _
    | _ => exact .error (by decide)
  exact hget.bind fun _ _ => .ok _

theorem index_inRange (name : String) : InRange (value.index name) := by
  unfold index
  split
  · split
    · exact .ok _
    · exact .error (by decide)
  · exact .error (by decide)

theorem fields_inRange : InRange value.fields := by
  cases value with
  | table fields => exact .ok fields
  | _ => exact .error (by decide)

theorem items_inRange : InRange value.items := by
  unfold items
  split
  · exact .ok _
  · exact .ok _
  · exact .ok _
  · exact .error (by decide)

theorem toBytes_inRange : InRange value.toBytes := by
  unfold toBytes
  split
  · split
    · exact .ok _
    · exact .error (Hex.Error.fault_ne_outOfRange _)
  · exact .error (by decide)

theorem toFixed_inRange {width : Width} :
    InRange (value.toFixed : Except Fault (FixedBytes width)) :=
  value.toBytes_inRange.bind fun bytes _ => ofBytes_inRange bytes

variable {value}

theorem toInt_detects :
    Detects .outOfRange (∃ negative, value = .float (.infinite negative)) value.toInt := by
  have sound (h : ∀ negative, value ≠ .float (.infinite negative))
      (hinRange : InRange value.toInt) :
      Detects .outOfRange (∃ negative, value = .float (.infinite negative)) value.toInt :=
    hinRange.detects.congr ⟨False.elim, fun ⟨negative, heq⟩ => h negative heq⟩
  cases value with
  | float x =>
    cases x with
    | infinite negative => exact ⟨nofun, fun _ => ⟨negative, rfl⟩⟩
    | finite negative mantissa exponent => exact sound nofun (.ok _)
    | nan => exact sound nofun (.error nofun)
  | text s =>
    refine sound nofun ?_
    unfold toInt
    simp only
    split
    · exact .ok _
    · exact .error nofun
  | int n => exact sound nofun (.ok n)
  | bool b => exact sound nofun (.ok _)
  | _ => exact sound nofun (.error nofun)

/-- A count is out of range if its field is infinite. -/
theorem count_detects {name : String} {count : Value} (h : value.getD name (.int 0) = .ok count) :
    Detects .outOfRange (value.Infinite name) count.toInt := by
  refine toInt_detects.congr ?_
  obtain ⟨found, hfound, hcount⟩ := bind_eq_ok_iff.1 h
  cases hcount
  unfold Infinite
  rw [hfound]
  cases found with
  | none =>
    constructor
    · rintro ⟨_, heq⟩
      cases heq
    · rintro ⟨_, heq⟩
      cases heq
  | some inner =>
    constructor
    · rintro ⟨negative, rfl⟩
      exact ⟨negative, rfl⟩
    · rintro ⟨negative, heq⟩
      cases heq
      exact ⟨negative, rfl⟩

/-- The fields of a table that may be missing are those that the document has there. -/
theorem holds_iff {name : String} {table : Value} {fields : List (Text × Value)}
    {P : Text × Value → Prop} (h : value.getD name (.table []) = .ok table)
    (hfields : table.fields = .ok fields) : (∃ field ∈ fields, P field) ↔ value.Holds name P := by
  obtain ⟨found, hfound, htable⟩ := bind_eq_ok_iff.1 h
  cases htable
  unfold Holds
  rw [hfound]
  cases found with
  | none =>
    cases hfields
    constructor
    · rintro ⟨field, hmem, -⟩
      cases hmem
    · rintro ⟨fields, heq, -⟩
      cases heq
  | some inner =>
    cases inner with
    | table inner =>
      cases hfields
      constructor
      · intro hheld
        exact ⟨fields, rfl, hheld⟩
      · rintro ⟨_, heq, hheld⟩
        cases heq
        exact hheld
    | _ => cases hfields

end Value

/-! ## Accounts -/

/-- The count of contracts of an account is infinite, or the count of changes of one of its slots. -/
def Account.InfiniteCount (value : Value) : Prop :=
  value.Infinite "nonce" ∨ value.Holds "storage" (·.2.Infinite "modify_time")

/-- An account that stands under a name, but has another address. -/
def Account.Misplaced (name : Text) (field : Text × Value) : Prop :=
  field.1 = name ∧ ∃ account address, Account.ofValue field.2 = .ok account ∧
    FixedBytes.ofHex name = .ok address ∧ account.address ≠ address

theorem slot_detects (value : Value) :
    Detects .outOfRange (value.Infinite "modify_time") (StorageValue.ofValue value) := by
  unfold StorageValue.ofValue
  refine .after (value.index_inRange _) fun data _ => .after data.toFixed_inRange fun _ _ => ?_
  refine .after (value.getD_inRange _ _) fun count hcount => ?_
  exact (Value.count_detects hcount).before fun _ => .ok _

theorem log_inRange (value : Value) : InRange (LogEntry.ofValue value) := by
  unfold LogEntry.ofValue
  refine (value.getD_inRange _ _).bind fun data _ => data.toBytes_inRange.bind fun _ _ => ?_
  refine (value.getD_inRange _ _).bind fun topics _ => topics.items_inRange.bind fun items _ => ?_
  exact (FailsBy.mapM (fun topic => topic.toFixed_inRange) items).bind fun _ _ => .ok _

theorem storage_detects (done : OrderedMap Bytes32 StorageValue) (fields : List (Text × Value)) :
    Detects .outOfRange (∃ field ∈ fields, field.2.Infinite "modify_time")
      (storageOfFields done fields) := by
  induction fields generalizing done with
  | nil => exact (FailsBy.ok done).detects.congr ⟨False.elim, nofun⟩
  | cons field rest ih =>
    obtain ⟨name, value⟩ := field
    rw [storageOfFields, List.exists_mem_cons_iff]
    refine .after (ofHex_inRange name) fun key _ => ?_
    exact (slot_detects value).bind fun slot _ => ih _

theorem code_inRange (value : Value) : InRange (codeOfValue value) := by
  cases value with
  | null => exact .ok none
  | _ => exact (Value.toBytes_inRange _).bind fun _ _ => .ok _

theorem account_detects (value : Value) :
    Detects .outOfRange (Account.InfiniteCount value) (Account.ofValue value) := by
  unfold Account.ofValue
  refine .after (value.getD_inRange _ _) fun code _ => .after (value.index_inRange _) fun text _ => ?_
  refine .after text.toFixed_inRange fun address _ => ?_
  refine .after (value.getD_inRange _ _) fun count hcount => ?_
  refine (Value.count_detects hcount).bind fun nonce _ => .after (code_inRange code) fun code _ => ?_
  refine .after (value.getD_inRange _ _) fun table htable => ?_
  refine .after table.fields_inRange fun fields hfields => ?_
  refine ((storage_detects ∅ fields).congr (Value.holds_iff htable hfields)).before fun storage => ?_
  refine (value.getD_inRange _ _).bind fun logs _ => logs.items_inRange.bind fun items _ => ?_
  exact (FailsBy.mapM log_inRange items).bind fun _ _ => .ok _

/-! ## States -/

section Reading

variable {α : Type} {step : Except Fault α}

theorem of_reading_escaped {fault : Fault} (h : reading step = .error (.escaped fault)) :
    step = .error fault := by
  cases step with
  | ok a => cases h
  | error cause =>
    have hcause : SnapshotFailure.ofFault cause = .escaped fault := Except.error.inj h
    unfold SnapshotFailure.ofFault at hcause
    split at hcause
    · cases hcause
      rfl
    · cases hcause

theorem FailsBy.reading (h : InRange step) :
    FailsBy (· ≠ .escaped .outOfRange) (ContractHost.reading step) := by
  rintro _ hfail rfl
  exact h .outOfRange (of_reading_escaped hfail) rfl

theorem Detects.reading {bad : Prop} (h : Detects .outOfRange bad step) :
    Detects (.escaped .outOfRange) bad (ContractHost.reading step) :=
  ⟨fun a ha => h.passes a (mapError_eq_ok_iff.1 ha), fun hfail => h.fails (of_reading_escaped hfail)⟩

end Reading

namespace HostState

/-- A document in which a count is infinite: the depth, or one in an account. -/
def InfiniteCount (document : Value) : Prop :=
  document.Infinite "depth" ∨ document.Holds "accounts" (Account.InfiniteCount ·.2)

/-- How a table fails to be a snapshot. -/
inductive Failing (document : Value) : SnapshotFailure → Prop
  | escaped : Failing document (.escaped .outOfRange)
  | malformed {cause : Fault} (h : cause ≠ .outOfRange) : Failing document (.error (.malformed cause))
  | misplaced {name : Text} (h : document.Holds "accounts" (Account.Misplaced name)) :
    Failing document (.error (.misplaced name))

/-- Why a text is refused as a snapshot. -/
inductive Refuses (text : Text) : SnapshotError → Prop
  | notJson (h : Json.read text = .error .notJson) : Refuses text .notJson
  | notTable {document : Value} (h : Json.read text = .ok document)
    (hother : ∀ fields, document ≠ .table fields) : Refuses text .notTable
  | document {document : Value} {error : SnapshotError} (h : Json.read text = .ok document)
    (hfails : Failing document (.error error)) : Refuses text error

theorem accounts_detects (done : OrderedMap Address Account) (fields : List (Text × Value)) :
    Detects (.escaped .outOfRange) (∃ field ∈ fields, Account.InfiniteCount field.2)
      (accountsOfFields done fields) := by
  induction fields generalizing done with
  | nil => exact (FailsBy.ok done).detects.congr ⟨False.elim, nofun⟩
  | cons field rest ih =>
    obtain ⟨name, value⟩ := field
    rw [accountsOfFields, List.exists_mem_cons_iff]
    refine (account_detects value).reading.bind fun account _ => ?_
    refine .after (ofHex_inRange name).reading fun address _ => ?_
    split
    · exact ih _
    · exact .error (by simp)

theorem ofValue_detects (document : Value) :
    Detects (.escaped .outOfRange) (InfiniteCount document) (ofValue document) := by
  have hfields : InRange (do (← document.getD "accounts" (.table [])).fields) :=
    (document.getD_inRange _ _).bind fun table _ => table.fields_inRange
  have hdepth : Detects .outOfRange (document.Infinite "depth")
      (do (← document.getD "depth" (.int 0)).toInt) :=
    .after (document.getD_inRange _ _) fun _ hcount => Value.count_detects hcount
  have hcurrent : InRange (do
      (← document.getD "current_account" (.text (FixedBytes.zero : Address).toHex)).toFixed
      : Except Fault Address) :=
    (document.getD_inRange _ _).bind fun current _ => current.toFixed_inRange
  have hdestructed : InRange (do
      (← (← document.getD "destructed_accounts" (.list [])).items).mapM Value.toFixed
      : Except Fault (List Address)) :=
    (document.getD_inRange _ _).bind fun listed _ => listed.items_inRange.bind fun items _ =>
      FailsBy.mapM (fun address => address.toFixed_inRange) items
  unfold ofValue
  -- the depth is read after the accounts
  refine Detects.congr ?_ or_comm
  refine .after hfields.reading fun fields hread => ?_
  obtain ⟨table, htable, hheld⟩ := bind_eq_ok_iff.1 (mapError_eq_ok_iff.1 hread)
  refine ((accounts_detects ∅ fields).congr (Value.holds_iff htable hheld)).bind fun accounts _ => ?_
  refine hdepth.reading.before fun depth => hcurrent.reading.bind fun currentAccount _ => ?_
  exact hdestructed.reading.bind fun destructed _ => .ok _

theorem reading_failing (document : Value) {α : Type} (step : Except Fault α) :
    FailsBy (Failing document) (reading step) := by
  cases step with
  | ok a => exact .ok a
  | error cause =>
    refine .error ?_
    unfold SnapshotFailure.ofFault
    split
    · rename_i hcause
      rw [hcause]
      exact .escaped
    · rename_i hcause
      exact .malformed hcause

theorem accounts_failing {document : Value} {fields : List (Text × Value)}
    (h : ∀ name, (∃ field ∈ fields, Account.Misplaced name field) →
      document.Holds "accounts" (Account.Misplaced name)) (done : OrderedMap Address Account) :
    FailsBy (Failing document) (accountsOfFields done fields) := by
  induction fields generalizing done with
  | nil => exact .ok done
  | cons field rest ih =>
    obtain ⟨name, value⟩ := field
    rw [accountsOfFields]
    refine (reading_failing document _).bind fun account haccount => ?_
    refine (reading_failing document _).bind fun address haddress => ?_
    split
    · refine ih (fun other hheld => ?_) _
      obtain ⟨field, hmem, hfield⟩ := hheld
      exact h other ⟨field, .tail _ hmem, hfield⟩
    · rename_i hother
      have hplaced : Account.Misplaced name (name, value) := ⟨rfl, account, address,
        mapError_eq_ok_iff.1 haccount, mapError_eq_ok_iff.1 haddress, hother⟩
      exact .error (.misplaced (h name ⟨_, .head rest, hplaced⟩))

theorem ofValue_failing (document : Value) : FailsBy (Failing document) (ofValue document) := by
  unfold ofValue
  refine (reading_failing document _).bind fun fields hread => ?_
  obtain ⟨table, htable, hheld⟩ := bind_eq_ok_iff.1 (mapError_eq_ok_iff.1 hread)
  refine (accounts_failing (fun _ => (Value.holds_iff htable hheld).1) ∅).bind fun accounts _ => ?_
  refine (reading_failing document _).bind fun depth _ => ?_
  refine (reading_failing document _).bind fun currentAccount _ => ?_
  exact (reading_failing document _).bind fun destructed _ => .ok _

/-- Reading a text as a snapshot gives a state with each account under its own address, and then no
count of the document was infinite; or it fails with a snapshot error that says why. A fault goes
through in two cases only: for an infinite count, and for an integer with too many digits. -/
theorem loads_outcome (text : Text) :
    match loads text with
    | .ok s => s.Placed ∧ ∃ document, Json.read text = .ok document ∧ ¬InfiniteCount document
    | .error (.error error) => Refuses text error
    | .error (.escaped fault) =>
      (fault = .outOfRange ∧ ∃ document, Json.read text = .ok document ∧ InfiniteCount document) ∨
        fault = .badValue ∧ Json.read text = .error .badValue ∧ Json.LongRun text.letters := by
  have hplaced := Placed.loads text
  unfold loads at hplaced ⊢
  cases hread : Json.read text with
  | error cause =>
    rcases Json.read_error hread with rfl | ⟨rfl, hlong⟩
    · exact .notJson hread
    · exact Or.inr ⟨rfl, rfl, hlong⟩
  | ok document =>
    cases document with
    | table fields =>
      have hdetects := ofValue_detects (.table fields)
      have hfailing := ofValue_failing (.table fields)
      simp only [hread] at hplaced ⊢
      generalize ofValue (.table fields) = result at hdetects hfailing hplaced
      cases result with
      | ok s => exact ⟨hplaced s rfl, _, rfl, hdetects.passes s rfl⟩
      | error failure =>
        cases failure with
        | error error => exact .document hread (hfailing _ rfl)
        | escaped fault =>
          cases hfailing _ rfl
          exact Or.inl ⟨rfl, _, rfl, hdetects.fails rfl⟩
    | _ => exact .notTable hread nofun

/-- An infinite depth is no reason for a snapshot error. -/
theorem loads_infinite_depth :
    loads "\x7b\"depth\": Infinity\x7d" = .error (.escaped .outOfRange) := by
  decide +kernel

end HostState

end ContractHost
