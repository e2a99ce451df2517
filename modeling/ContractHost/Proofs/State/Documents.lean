import ContractHost.Proofs.Json.Document
import ContractHost.State.Snapshot

/-!
# States as documents

The document of a state holds integers, hexadecimal texts and tables of differently named fields. It
is read field by field into maps that grow at the end, so that every order in it is kept. A state is
read back from its document if each account stands under its own address.

* `HostState.plain_toValue`: the documents of states are plain.
* `HostState.ofValue_toValue`: a state is read back from its document.
-/

namespace ContractHost

/-! ## Plain documents -/

theorem Hex.plain_encode (bytes : Bytes) : PlainText (Hex.encode bytes) := by
  have hdigit : ∀ n : Fin 16, digit n ≠ '"' ∧ digit n ≠ '\\' ∧ 0x20 ≤ (digit n).toNat ∧
      (digit n).toNat < 0x7f := by decide
  intro c hc
  rw [encode, String.toList_ofList, List.mem_cons, List.mem_cons] at hc
  rcases hc with rfl | rfl | hdigits
  · decide
  · decide
  · obtain ⟨byte, -, hbyte⟩ := List.mem_flatMap.1 hdigits
    have hbound : byte.toNat < 256 := byte.toNat_lt
    simp only [byteDigits, List.mem_cons, List.not_mem_nil, or_false] at hbyte
    rcases hbyte with rfl | rfl
    · exact hdigit ⟨byte.toNat / 16, by omega⟩
    · exact hdigit ⟨byte.toNat % 16, by omega⟩

theorem FixedBytes.toHex_inj {width : Width} {a b : FixedBytes width} (h : a.toHex = b.toHex) :
    a = b := by
  have ha : ofHex a.toHex = .ok a := ofHex_toHex a
  rw [h, ofHex_toHex] at ha
  exact (Except.ok.inj ha).symm

namespace Value

theorem plainItems_iff {items : List Value} : PlainItems items ↔ ∀ item ∈ items, item.Plain := by
  induction items with
  | nil => simp [PlainItems]
  | cons item rest ih => simp [PlainItems, ih]

theorem plainFields_iff {fields : List (Text × Value)} :
    PlainFields fields ↔ ∀ field ∈ fields, PlainText field.1 ∧ field.2.Plain := by
  induction fields with
  | nil => simp [PlainFields]
  | cons field rest ih => simp [PlainFields, ih, and_assoc]

theorem plain_list {α : Type} {write : α → Value} (h : ∀ a, (write a).Plain) (items : List α) :
    (list (items.map write)).Plain := by
  refine plainItems_iff.2 fun item hitem => ?_
  obtain ⟨a, -, rfl⟩ := List.mem_map.1 hitem
  exact h a

/-- Different byte strings are different names. -/
theorem plain_table {width : Width} {α : Type} {write : α → Value} (h : ∀ a, (write a).Plain)
    (m : OrderedMap (FixedBytes width) α) :
    (table (m.entries.map fun (key, a) => (.plain key.toHex, write a))).Plain := by
  refine ⟨?_, plainFields_iff.2 fun field hfield => ?_⟩
  · rw [List.map_map]
    have hkeys : m.entries.Pairwise fun x y => x.1 ≠ y.1 := List.pairwise_map.1 m.nodup
    refine List.pairwise_map.2 (hkeys.imp fun {x y} hne heq => ?_)
    exact hne (FixedBytes.toHex_inj (Text.plain.inj heq))
  · obtain ⟨⟨key, a⟩, -, rfl⟩ := List.mem_map.1 hfield
    exact ⟨Hex.plain_encode key.bytes, h a⟩

end Value

theorem StorageValue.plain_toValue (slot : StorageValue) : slot.toValue.Plain := by
  have hnames : (["data", "modify_time"] : List Text).Nodup := by decide
  exact ⟨hnames, by decide, Hex.plain_encode _, by decide, trivial, trivial⟩

theorem FixedBytes.plain_texts {width : Width} (items : List (FixedBytes width)) :
    (Value.list (items.map fun item => .text item.toHex)).Plain := by
  have hitem : ∀ item : FixedBytes width, (Value.text item.toHex).Plain := fun item =>
    Hex.plain_encode item.bytes
  exact Value.plain_list hitem items

theorem LogEntry.plain_toValue (log : LogEntry) : log.toValue.Plain := by
  have hnames : (["data", "topics"] : List Text).Nodup := by decide
  exact ⟨hnames, by decide, Hex.plain_encode _, by decide, FixedBytes.plain_texts _, trivial⟩

theorem Account.plain_toValue (account : Account) : account.toValue.Plain := by
  have hnames : (["nonce", "address", "code", "storage", "logs"] : List Text).Nodup := by decide
  refine ⟨hnames, by decide, trivial, by decide, Hex.plain_encode _, by decide, ?_, by decide,
    Value.plain_table StorageValue.plain_toValue account.storage, by decide,
    Value.plain_list LogEntry.plain_toValue account.logs, trivial⟩
  cases account.code with
  | none => trivial
  | some code => exact Hex.plain_encode code

theorem HostState.plain_toValue (s : HostState) : s.toValue.Plain := by
  have hnames : (["depth", "current_account", "accounts", "destructed_accounts"] : List Text).Nodup := by decide
  exact ⟨hnames, by decide, trivial, by decide, Hex.plain_encode _, by decide,
    Value.plain_table Account.plain_toValue s.accounts, by decide, FixedBytes.plain_texts _, trivial⟩

/-! ## Reading back -/

/-- A list is read item by item. -/
theorem mapM_map_of_reads {α β ε : Type} {write : α → β} {read : β → Except ε α}
    (h : ∀ a, read (write a) = .ok a) (items : List α) :
    (items.map write).mapM read = .ok items := by
  induction items with
  | nil => rfl
  | cons a rest ih =>
    rw [List.map_cons, List.mapM_cons, h, ih]
    rfl

@[simp]
theorem Value.toBytes_encode (bytes : Bytes) : (text (Hex.encode bytes)).toBytes = .ok bytes := by
  simp only [toBytes, Hex.decode_encode]

@[simp]
theorem Value.toFixed_toHex {width : Width} (b : FixedBytes width) :
    (text b.toHex).toFixed = .ok b := by
  have hbytes : (text b.toHex).toBytes = .ok b.bytes := toBytes_encode b.bytes
  rw [toFixed, hbytes]
  exact FixedBytes.ofBytes_bytes b

theorem StorageValue.ofValue_toValue (slot : StorageValue) : ofValue slot.toValue = .ok slot := by
  show (do
    let data ← (Value.text slot.data.toHex).toFixed
    return { data, modifyTime := slot.modifyTime }) = Except.ok slot
  rw [Value.toFixed_toHex]
  rfl

theorem LogEntry.ofValue_toValue (log : LogEntry) : ofValue log.toValue = .ok log := by
  have htopics := mapM_map_of_reads Value.toFixed_toHex log.topics
  show (do
    let data ← (Value.text (Hex.encode log.data)).toBytes
    let topics ← (log.topics.map fun topic => Value.text topic.toHex).mapM Value.toFixed
    return { data, topics }) = Except.ok log
  rw [Value.toBytes_encode, htopics]
  rfl

theorem storageOfFields_entries {done : OrderedMap Bytes32 StorageValue}
    {rest : List (Bytes32 × StorageValue)} (h : ((done.entries ++ rest).map Prod.fst).Nodup) :
    storageOfFields done (rest.map fun (key, slot) => (.plain key.toHex, slot.toValue)) =
      .ok ⟨done.entries ++ rest, h⟩ := by
  induction rest generalizing done with
  | nil =>
    have hdone : done = ⟨done.entries ++ [], h⟩ := OrderedMap.ext (List.append_nil _).symm
    exact congrArg Except.ok hdone
  | cons entry rest ih =>
    obtain ⟨key, slot⟩ := entry
    have hentries := OrderedMap.entries_insert_append h
    have hrest := ih (hentries ▸ h)
    show (do
      let key ← FixedBytes.ofHex key.toHex
      let slot ← StorageValue.ofValue slot.toValue
      storageOfFields (done.insert key slot) _) = _
    rw [FixedBytes.ofHex_toHex, StorageValue.ofValue_toValue]
    exact hrest.trans (congrArg Except.ok (OrderedMap.ext hentries))

theorem codeOfValue_toValue (code : Option Bytes) :
    codeOfValue (match code with
      | some code => .text (Hex.encode code)
      | none => .null) = .ok code := by
  cases code with
  | none => rfl
  | some code =>
    show (do return some (← (Value.text (Hex.encode code)).toBytes)) = Except.ok (some code)
    rw [Value.toBytes_encode]
    rfl

theorem Account.ofValue_toValue (account : Account) : ofValue account.toValue = .ok account := by
  obtain ⟨address, nonce, code, storage, logs⟩ := account
  have hstorage : storageOfFields ∅ (storage.entries.map fun (key, slot) =>
      (.plain key.toHex, slot.toValue)) = .ok storage :=
    @storageOfFields_entries ∅ storage.entries storage.nodup
  have hlogs := mapM_map_of_reads LogEntry.ofValue_toValue logs
  show ((do
    let address ← (Value.text address.toHex).toFixed
    let code ← codeOfValue (match code with
      | some code => .text (Hex.encode code)
      | none => .null)
    let storage ← storageOfFields ∅ (storage.entries.map fun (key, slot) =>
      (.plain key.toHex, slot.toValue))
    let logs ← (logs.map LogEntry.toValue).mapM LogEntry.ofValue
    return { address, nonce, code, storage, logs }) : Except Fault Account) = .ok _
  rw [Value.toFixed_toHex, codeOfValue_toValue, hstorage, hlogs]
  rfl

theorem accountsOfFields_entries {done : OrderedMap Address Account}
    {rest : List (Address × Account)} (h : ((done.entries ++ rest).map Prod.fst).Nodup)
    (placed : ∀ entry ∈ rest, entry.2.address = entry.1) :
    accountsOfFields done (rest.map fun (address, account) => (.plain address.toHex, account.toValue)) =
      .ok ⟨done.entries ++ rest, h⟩ := by
  induction rest generalizing done with
  | nil =>
    have hdone : done = ⟨done.entries ++ [], h⟩ := OrderedMap.ext (List.append_nil _).symm
    exact congrArg Except.ok hdone
  | cons entry rest ih =>
    obtain ⟨address, account⟩ := entry
    have haddress : account.address = address := placed _ List.mem_cons_self
    have hentries := OrderedMap.entries_insert_append h
    have hrest := ih (hentries ▸ h) fun entry hentry => placed entry (List.mem_cons_of_mem _ hentry)
    show (do
      let account ← reading (Account.ofValue account.toValue)
      let key ← reading (FixedBytes.ofHex address.toHex)
      if account.address = key then accountsOfFields (done.insert account.address account) _
      else _) = _
    rw [Account.ofValue_toValue, FixedBytes.ofHex_toHex]
    show (if account.address = address then _ else _) = _
    rw [if_pos haddress, haddress]
    exact hrest.trans (congrArg Except.ok (OrderedMap.ext hentries))

/-- A state whose accounts stand under their own addresses is read back with all its orders. -/
theorem HostState.ofValue_toValue {s : HostState}
    (placed : ∀ entry ∈ s.accounts.entries, entry.2.address = entry.1) :
    ofValue s.toValue = .ok s := by
  obtain ⟨depth, currentAccount, accounts, destructed⟩ := s
  have haccounts : accountsOfFields ∅ (accounts.entries.map fun (address, account) =>
      (.plain address.toHex, account.toValue)) = .ok accounts :=
    @accountsOfFields_entries ∅ accounts.entries accounts.nodup placed
  have hdestructed := mapM_map_of_reads Value.toFixed_toHex destructed
  show ((do
    let accounts ← accountsOfFields ∅ (accounts.entries.map fun (address, account) =>
      (.plain address.toHex, account.toValue))
    let currentAccount ← reading (Value.text currentAccount.toHex).toFixed
    let destructed ← reading ((destructed.map fun address => Value.text address.toHex).mapM
      Value.toFixed)
    return { depth, currentAccount, accounts, destructed }) :
      Except SnapshotFailure HostState) = .ok _
  rw [haccounts, Value.toFixed_toHex, hdestructed]
  rfl

end ContractHost
