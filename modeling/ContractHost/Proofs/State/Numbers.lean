import ContractHost.Proofs.Json.Numbers
import ContractHost.State.Snapshot

/-!
# Numbers of a state

A state can be written if its numbers have texts: its depth, the counts of its accounts and the times of
their slots. A state that was read from a text is such a state.

* `HostState.writable_toValue`: when a state can be written.
* `HostState.short_loads`: a state that was read.
-/

namespace ContractHost

/-- The numbers of an account have texts. -/
structure Account.Short (account : Account) : Prop where
  nonce : Decimal.hasText account.nonce = true
  storage : ∀ entry ∈ account.storage.entries, Decimal.hasText entry.2.modifyTime = true

/-- The numbers of a state have texts. -/
structure HostState.Short (s : HostState) : Prop where
  depth : Decimal.hasText s.depth = true
  accounts : ∀ entry ∈ s.accounts.entries, entry.2.Short

/-! ## Writing -/

namespace Json

theorem writableItems_iff {items : List Value} :
    writableItems items = true ↔ ∀ item ∈ items, writable item = true := by
  induction items with
  | nil => simp [writableItems]
  | cons item rest ih => simp [writableItems, ih]

theorem writableFields_iff {fields : List (Text × Value)} :
    writableFields fields = true ↔ ∀ field ∈ fields, writable field.2 = true := by
  induction fields with
  | nil => simp [writableFields]
  | cons field rest ih => simp [writableFields, ih]

theorem writableItems_map {α : Type} {write : α → Value} (h : ∀ a, writable (write a) = true)
    (items : List α) : writableItems (items.map write) = true := by
  refine writableItems_iff.2 fun item hitem => ?_
  obtain ⟨a, -, rfl⟩ := List.mem_map.1 hitem
  exact h a

theorem writableFields_map {κ α : Type} (name : κ → String) (write : α → Value)
    (entries : List (κ × α)) :
    writableFields (entries.map fun (key, a) => (name key, write a)) = true ↔
      ∀ entry ∈ entries, writable (write entry.2) = true := by
  rw [writableFields_iff]
  exact List.forall_mem_map

end Json

theorem StorageValue.writable_toValue (slot : StorageValue) :
    Json.writable slot.toValue = true ↔ Decimal.hasText slot.modifyTime = true := by
  simp [toValue, Json.writable, Json.writableFields]

theorem LogEntry.writable_toValue (log : LogEntry) : Json.writable log.toValue = true := by
  have htopics : Json.writableItems (log.topics.map fun topic => .text topic.toHex) = true :=
    Json.writableItems_map (fun _ => rfl) log.topics
  simp [toValue, Json.writable, Json.writableFields, htopics]

theorem Account.writable_toValue (account : Account) :
    Json.writable account.toValue = true ↔ account.Short := by
  obtain ⟨address, nonce, code, storage, logs⟩ := account
  have hlogs := Json.writableItems_map LogEntry.writable_toValue logs
  have hstorage := (Json.writableFields_map FixedBytes.toHex StorageValue.toValue
    storage.entries).trans (forall₂_congr fun entry _ => entry.2.writable_toValue)
  have hshort : Json.writable (Value.int nonce) = true ∧
      (∀ entry ∈ storage.entries, Decimal.hasText entry.2.modifyTime = true) ↔
        Account.Short { address, nonce, code, storage, logs } :=
    ⟨fun h => ⟨h.1, h.2⟩, fun h => ⟨h.nonce, h.storage⟩⟩
  cases code <;>
    simpa only [toValue, Json.writable, Json.writableFields, Bool.and_eq_true, hlogs, hstorage,
      and_true, true_and] using hshort

/-- A state can be written exactly if its numbers have texts. -/
theorem HostState.writable_toValue (s : HostState) : Json.writable s.toValue = true ↔ s.Short := by
  have hdestructed : Json.writableItems (s.destructed.map fun address => .text address.toHex) =
      true := Json.writableItems_map (fun _ => rfl) s.destructed
  have haccounts := (Json.writableFields_map FixedBytes.toHex Account.toValue
    s.accounts.entries).trans (forall₂_congr fun entry _ => entry.2.writable_toValue)
  simp only [toValue, Json.writable, Json.writableFields, Bool.and_eq_true, hdestructed, haccounts,
    and_true, true_and]
  exact ⟨fun h => ⟨h.1, h.2⟩, fun h => ⟨h.depth, h.accounts⟩⟩

/-! ## Reading -/

theorem Value.short_zero : (int 0).Short := by
  have htext : Decimal.hasText 0 = true := by decide
  exact htext

theorem StorageValue.short_ofValue {value : Value} (h : value.Short) :
    Yields (ofValue value) fun slot => Decimal.hasText slot.modifyTime = true := by
  unfold ofValue
  refine yields_then fun _ => yields_then fun _ => ?_
  refine yields_bind (Value.short_getD h "modify_time" Value.short_zero) fun found hfound => ?_
  exact yields_bind (Value.hasText_toInt hfound) fun n hn => yields_ok hn

theorem short_storageOfFields {fields : List (Text × Value)}
    (h : ∀ field ∈ fields, field.2.Short) {done : OrderedMap Bytes32 StorageValue}
    (hdone : ∀ entry ∈ done.entries, Decimal.hasText entry.2.modifyTime = true) :
    Yields (storageOfFields done fields) fun storage =>
      ∀ entry ∈ storage.entries, Decimal.hasText entry.2.modifyTime = true := by
  induction fields generalizing done with
  | nil => exact yields_ok hdone
  | cons field rest ih =>
    obtain ⟨name, value⟩ := field
    have hvalue : value.Short := h _ List.mem_cons_self
    rw [storageOfFields]
    refine yields_then fun key => ?_
    refine yields_bind (StorageValue.short_ofValue hvalue) fun slot hslot => ?_
    apply ih fun other hother => h other (List.mem_cons_of_mem _ hother)
    intro entry hentry
    rcases OrderedMap.mem_put hentry with hmem | rfl
    · exact hdone entry hmem
    · exact hslot

theorem Account.short_ofValue {value : Value} (h : value.Short) : Yields (ofValue value) Short := by
  have hempty : (Value.table []).Short := trivial
  unfold ofValue
  refine yields_then fun _ => yields_then fun _ => yields_then fun _ => ?_
  refine yields_bind (Value.short_getD h "nonce" Value.short_zero) fun found hfound => ?_
  refine yields_bind (Value.hasText_toInt hfound) fun nonce hnonce => ?_
  refine yields_then fun _ => ?_
  refine yields_bind (Value.short_getD h "storage" hempty) fun table htable => ?_
  refine yields_bind (Value.short_fields htable) fun fields hfields => ?_
  refine yields_bind (short_storageOfFields hfields nofun) fun storage hstorage => ?_
  exact yields_then fun _ => yields_then fun _ => yields_then fun _ => yields_ok ⟨hnonce, hstorage⟩

theorem short_accountsOfFields {fields : List (Text × Value)}
    (h : ∀ field ∈ fields, field.2.Short) {done : OrderedMap Address Account}
    (hdone : ∀ entry ∈ done.entries, entry.2.Short) :
    Yields (accountsOfFields done fields) fun accounts =>
      ∀ entry ∈ accounts.entries, entry.2.Short := by
  induction fields generalizing done with
  | nil => exact yields_ok hdone
  | cons field rest ih =>
    obtain ⟨name, value⟩ := field
    have hvalue : value.Short := h _ List.mem_cons_self
    rw [accountsOfFields]
    refine yields_bind (Account.short_ofValue hvalue).mapError fun account haccount => ?_
    refine yields_then fun key => ?_
    split
    · apply ih fun other hother => h other (List.mem_cons_of_mem _ hother)
      intro entry hentry
      rcases OrderedMap.mem_put hentry with hmem | rfl
      · exact hdone entry hmem
      · exact haccount
    · exact yields_error _

theorem HostState.short_ofValue {value : Value} (h : value.Short) : Yields (ofValue value) Short := by
  have hempty : (Value.table []).Short := trivial
  have htable : Yields (do (← value.getD "accounts" (.table [])).fields) fun fields =>
      ∀ field ∈ fields, field.2.Short :=
    yields_bind (Value.short_getD h "accounts" hempty) fun found hfound => Value.short_fields hfound
  have hdepth : Yields (do (← value.getD "depth" (.int 0)).toInt) (Decimal.hasText · = true) :=
    yields_bind (Value.short_getD h "depth" Value.short_zero) fun found hfound =>
      Value.hasText_toInt hfound
  unfold ofValue
  refine yields_bind htable.mapError fun fields hfields => ?_
  refine yields_bind (short_accountsOfFields hfields nofun) fun accounts haccounts => ?_
  refine yields_bind hdepth.mapError fun depth hdepth => ?_
  exact yields_then fun _ => yields_then fun _ => yields_ok ⟨hdepth, haccounts⟩

/-- The numbers of a state that was read can be written. -/
theorem HostState.short_loads (text : Text) : Yields (loads text) Short := by
  unfold loads
  split
  · rename_i fields hread
    exact short_ofValue (Json.short_read text _ hread)
  · exact yields_error _
  · exact yields_error _
  · exact yields_error _

end ContractHost
