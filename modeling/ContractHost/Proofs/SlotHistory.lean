import ContractHost.Proofs.Execution.Effects
import Mathlib.Data.List.Induction

/-!
# The history of a slot

A host's methods can be put to it directly, one after another and without any nested execution. Each of
them changes one slot at most, except that a destruction removes all slots of its account. So what a
slot holds is told by the words that were written to it since its account was last destructed, and by
what it held before if its account was not destructed at all.

* `Callback.slot?_leaves`: each slot after one method.
* `slot?_leaves`: each slot after any number of them.
* `storage_accounting`: words, counts and statuses.
-/

namespace ContractHost

/-- A method of a host other than `call`, with its arguments. -/
inductive Callback
  | getTxContext
  | getBlockHash (number : Int)
  | accountExists (address : Address)
  | getBalance (address : Address)
  | getCodeSize (address : Address)
  | getCodeHash (address : Address)
  | copyCode (address : Address) (offset size : Int)
  | getStorage (address : Address) (key : Bytes32)
  | setStorage (address : Address) (key value : Bytes32)
  | selfdestruct (address beneficiary : Address)
  | emitLog (address : Address) (data : Bytes) (topics : List Bytes32)
  | resolveCallee (message : Message)

namespace Callback

/-- What a method returns. -/
abbrev Answer : Callback → Type
  | getTxContext => TxContext
  | getBlockHash _ => Bytes32
  | accountExists _ => Bool
  | getBalance _ => Uint256
  | getCodeSize _ => Nat
  | getCodeHash _ => Bytes32
  | copyCode .. => Bytes
  | getStorage .. => Bytes32
  | setStorage .. => StorageStatus
  | selfdestruct .. => Unit
  | emitLog .. => Unit
  | resolveCallee _ => Address

/-- A method put to a host directly. -/
def program : (c : Callback) → Run c.Answer
  | getTxContext => do return (← get).host.tx
  | getBlockHash number => do return (← Run.state).getBlockHash number
  | accountExists address => Methods.stateAnswer (.accountExists address)
  | getBalance address => Methods.stateAnswer (.getBalance address)
  | getCodeSize address => Methods.stateAnswer (.getCodeSize address)
  | getCodeHash address => Methods.stateAnswer (.getCodeHash address)
  | copyCode address offset size => do return (← Run.state).copyCode address offset size
  | getStorage address key => Methods.stateAnswer (.getStorage address key)
  | setStorage address key value => Methods.stateAnswer (.setStorage address key value)
  | selfdestruct address beneficiary => Methods.stateAnswer (.selfdestruct address beneficiary)
  | emitLog address data topics => Methods.stateAnswer (.emitLog address data topics)
  | resolveCallee message => ContractHost.resolveCallee message

/-- The world that a method leaves, whether it returns or fails. -/
def leaves (c : Callback) (w : World) : World := (c.program.on w).2

/-- Whether a method destructs an account. -/
def destructs (a : Address) : Callback → Bool
  | selfdestruct address _ => address = a
  | _ => false

/-- The word that a method writes to a slot. -/
def write? (a : Address) (key : Bytes32) : Callback → Option Bytes32
  | setStorage address key' value => if address = a ∧ key' = key then some value else none
  | _ => none

end Callback

/-- The world after methods, the first one first. -/
def Callback.leavesAll (history : List Callback) (w : World) : World :=
  history.foldl (fun w c => c.leaves w) w

/-- The words written to a slot since its account was last destructed, the first one first. -/
def wordsWritten (history : List Callback) (a : Address) (key : Bytes32) : List Bytes32 :=
  (history.reverse.takeWhile fun c => !c.destructs a).reverse.filterMap (·.write? a key)

/-- How often a word is followed by another one. -/
def changes (word : Bytes32) : List Bytes32 → Nat
  | [] => 0
  | next :: rest => (if word = next then 0 else 1) + changes next rest

theorem changes_append_one (word : Bytes32) (words : List Bytes32) (last : Bytes32) :
    changes word (words ++ [last]) =
      changes word words + if words.getLast?.getD word = last then 0 else 1 := by
  induction words generalizing word with
  | nil => exact (Nat.add_comm ..).trans rfl
  | cons next rest ih =>
    have hlast : (next :: rest).getLast?.getD word = rest.getLast?.getD next := by
      cases rest with
      | nil => rfl
      | cons other rest => rw [List.getLast?_cons_cons]; simp [List.getLast?_cons]
    rw [List.cons_append, changes, changes, ih, hlast]
    omega

namespace StorageValue

/-- A slot once words were written to it. -/
def written (slot : StorageValue) (words : List Bytes32) : StorageValue where
  data := words.getLast?.getD slot.data
  modifyTime := slot.modifyTime + changes slot.data words

/-- What words make of a slot, which is there before them or comes into being with the first one. -/
def history : Option StorageValue → List Bytes32 → Option StorageValue
  | some slot, words => some (slot.written words)
  | none, [] => none
  | none, word :: rest => some (({ data := word } : StorageValue).written rest)

theorem written_append_one (slot : StorageValue) (words : List Bytes32) (last : Bytes32) :
    slot.written (words ++ [last]) = (slot.written words).written [last] := by
  have hchanges := changes_append_one slot.data words last
  have hcount : (slot.modifyTime + (changes slot.data (words ++ [last]) : Nat) : Int) =
      slot.modifyTime + (changes slot.data words : Nat) +
        (changes (words.getLast?.getD slot.data) [last] : Nat) := by
    rw [hchanges]
    simp only [changes]
    omega
  unfold written
  rw [hcount]
  simp

theorem history_append_one (first : Option StorageValue) (words : List Bytes32) (last : Bytes32) :
    history first (words ++ [last]) = history (history first words) [last] := by
  cases first with
  | some slot => exact congrArg some (slot.written_append_one words last)
  | none =>
    cases words with
    | nil => rfl
    | cons word rest =>
      exact congrArg some (({ data := word } : StorageValue).written_append_one rest last)

end StorageValue

namespace HostState

/-- A slot of an account, if both are there. -/
def slot? (s : HostState) (a : Address) (key : Bytes32) : Option StorageValue :=
  (s.find? a).bind (·.storage.get? key)

theorem slot?_eq_account (s : HostState) (a : Address) (key : Bytes32) :
    s.slot? a key = (s.account a).storage.get? key := by
  unfold slot? account
  cases s.find? a <;> rfl

theorem getStorage_eq_slot? (s : HostState) (a : Address) (key : Bytes32) :
    s.getStorage a key = ((s.slot? a key).map (·.data)).getD .zero := by
  unfold getStorage slot?
  cases (s.find? a).bind (·.storage.get? key) <;> rfl

/-- A change of an account that keeps its slots. -/
theorem slot?_modify {s : HostState} {address : Address} {change : Account → Account}
    (h : (change (s.account address)).storage = (s.account address).storage) (a : Address)
    (key : Bytes32) : (s.modify address change).slot? a key = s.slot? a key := by
  unfold slot?
  rw [find?_modify]
  by_cases ha : address = a
  · subst ha
    rw [if_pos rfl, Option.bind_some, h, ← slot?_eq_account]
    rfl
  · rw [if_neg ha]

theorem slot?_touch (s : HostState) (address a : Address) (key : Bytes32) :
    (s.touch address).slot? a key = s.slot? a key := by
  rw [slot?_eq_account, account_touch, ← slot?_eq_account]

theorem slot?_resolveCallee (s : HostState) (message : Message) (a : Address) (key : Bytes32) :
    (s.resolveCallee message).2.slot? a key = s.slot? a key := by
  rw [resolveCallee_state]
  split
  · exact (slot?_modify rfl a key).trans (s.slot?_touch message.sender a key)
  · exact s.slot?_touch message.sender a key

theorem slot?_selfdestruct (s : HostState) (address beneficiary a : Address) (key : Bytes32) :
    (s.selfdestruct address beneficiary).slot? a key =
      if address = a then none else s.slot? a key := by
  have hfind : (s.selfdestruct address beneficiary).find? a =
      if address = a then none else s.find? a := OrderedMap.get?_erase ..
  unfold slot?
  rw [hfind]
  split <;> rfl

/-- A write goes to one slot, and what it leaves there depends on that slot alone. -/
theorem slot?_setStorage (s : HostState) (address a : Address) (key' key value : Bytes32) :
    (s.setStorage address key' value).2.slot? a key =
      if address = a ∧ key' = key then StorageValue.history (s.slot? a key) [value]
      else s.slot? a key := by
  have hfind : (s.setStorage address key' value).2.find? a =
      if address = a then some (writeSlot (s.account address) key' value).2 else s.find? a :=
    OrderedMap.get?_insert ..
  by_cases ha : address = a
  · subst ha
    have hslot : (writeSlot (s.account address) key' value).2.storage.get? key =
        if key' = key then StorageValue.history (s.slot? address key) [value]
        else s.slot? address key := by
      rw [slot?_eq_account]
      unfold writeSlot
      cases hold : (s.account address).storage.get? key' with
      | none =>
        by_cases hkey : key' = key
        · subst hkey
          simp [OrderedMap.get?_insert, hold, StorageValue.history, StorageValue.written, changes]
        · simp [OrderedMap.get?_insert, hkey]
      | some old =>
        by_cases hkey : key' = key
        · subst hkey
          by_cases hsame : old.data = value
          · rw [if_pos rfl]
            simp only [hold, hsame, if_true]
            cases old
            cases hsame
            simp [StorageValue.history, StorageValue.written, changes]
          · simp [OrderedMap.get?_insert, hold, hsame, StorageValue.history, StorageValue.written,
              changes]
        · by_cases hsame : old.data = value
          · simp [hsame, hkey]
          · simp [OrderedMap.get?_insert, hsame, hkey]
    unfold slot? at hslot ⊢
    rw [hfind, if_pos rfl, Option.bind_some, hslot]
    simp
  · unfold slot?
    rw [hfind, if_neg ha, if_neg (fun h => ha h.1)]

end HostState

/-! ## One method -/

theorem Callback.slot?_leaves (c : Callback) (w : World) (a : Address) (key : Bytes32) :
    (c.leaves w).host.state.slot? a key =
      if c.destructs a then none
      else match c.write? a key with
        | some word => StorageValue.history (w.host.state.slot? a key) [word]
        | none => w.host.state.slot? a key := by
  unfold leaves
  cases c with
  | setStorage address key' value =>
    rw [program, stateAnswer_on]
    refine (w.host.state.slot?_setStorage address a key' key value).trans ?_
    by_cases h : address = a ∧ key' = key
    · simp [destructs, write?, h]
    · simp [destructs, write?, h]
  | selfdestruct address beneficiary =>
    rw [program, stateAnswer_on]
    refine (w.host.state.slot?_selfdestruct address beneficiary a key).trans ?_
    by_cases h : address = a
    · simp [destructs, h]
    · simp [destructs, write?, h]
  | emitLog address data topics =>
    rw [program, stateAnswer_on]
    exact HostState.slot?_modify rfl a key
  | resolveCallee message =>
    rw [program, resolveCallee_on]
    exact w.host.state.slot?_resolveCallee message a key
  | _ => rfl

/-! ## Many methods -/

theorem leavesAll_append_one (history : List Callback) (c : Callback) (w : World) :
    Callback.leavesAll (history ++ [c]) w = c.leaves (Callback.leavesAll history w) := by
  simp [Callback.leavesAll]

theorem wordsWritten_append_one (history : List Callback) (c : Callback) (a : Address)
    (key : Bytes32) :
    wordsWritten (history ++ [c]) a key =
      if c.destructs a then [] else wordsWritten history a key ++ (c.write? a key).toList := by
  unfold wordsWritten
  rw [List.reverse_append, List.reverse_singleton, List.singleton_append, List.takeWhile_cons]
  cases c.destructs a with
  | true => rfl
  | false =>
    cases hword : c.write? a key <;> simp [hword]

/-- What a slot holds before the words written to it: nothing if its account was destructed. -/
def slotBefore (history : List Callback) (s : HostState) (a : Address) (key : Bytes32) :
    Option StorageValue :=
  if history.any (·.destructs a) then none else s.slot? a key

theorem slot?_leavesAll (history : List Callback) (w : World) (a : Address) (key : Bytes32) :
    (Callback.leavesAll history w).host.state.slot? a key =
      StorageValue.history (slotBefore history w.host.state a key) (wordsWritten history a key) := by
  induction history using List.reverseRecOn with
  | nil =>
    show w.host.state.slot? a key = StorageValue.history (w.host.state.slot? a key) []
    cases w.host.state.slot? a key with
    | none => rfl
    | some slot => simp [StorageValue.history, StorageValue.written, changes]
  | append_singleton history c ih =>
    rw [leavesAll_append_one, c.slot?_leaves, wordsWritten_append_one]
    unfold slotBefore at ih ⊢
    rw [List.any_append, List.any_cons, List.any_nil, Bool.or_false]
    cases hdestructs : c.destructs a with
    | true =>
      rw [Bool.or_true]
      rfl
    | false =>
      rw [Bool.or_false, if_neg Bool.false_ne_true, if_neg Bool.false_ne_true, ih]
      cases c.write? a key with
      | none => simp
      | some word => exact (StorageValue.history_append_one ..).symm

/-! ## Counts and statuses -/

/-- A state in which no slot has a negative count. -/
def HostState.Counted (s : HostState) : Prop :=
  ∀ entry ∈ s.accounts.entries, ∀ slot ∈ entry.2.storage.entries, 0 ≤ slot.2.modifyTime

instance (s : HostState) : Decidable s.Counted :=
  inferInstanceAs (Decidable (∀ entry ∈ s.accounts.entries, ∀ slot ∈ entry.2.storage.entries,
    0 ≤ slot.2.modifyTime))

theorem HostState.Counted.slot? {s : HostState} (counted : s.Counted) {a : Address} {key : Bytes32}
    {slot : StorageValue} (h : s.slot? a key = some slot) : 0 ≤ slot.modifyTime := by
  obtain ⟨account, haccount, hslot⟩ := Option.bind_eq_some_iff.1 h
  exact counted _ (OrderedMap.mem_of_get? haccount) _ (OrderedMap.mem_of_get? hslot)

/-- Words only add to the count of a slot. -/
theorem StorageValue.history_counted {first : Option StorageValue}
    (h : ∀ slot, first = some slot → 0 ≤ slot.modifyTime) {words : List Bytes32}
    {slot : StorageValue} (hslot : history first words = some slot) : 0 ≤ slot.modifyTime := by
  cases first with
  | some old =>
    cases hslot
    have hold := h old rfl
    show 0 ≤ old.modifyTime + (changes old.data words : Nat)
    omega
  | none =>
    cases words with
    | nil => cases hslot
    | cons word rest =>
      cases hslot
      show 0 ≤ (0 : Int) + (changes word rest : Nat)
      omega

/-- The count of a slot after the words written to it, where a new slot starts from zero. -/
def countAfter : Option StorageValue → List Bytes32 → Option Int
  | some slot, words => some (slot.modifyTime + changes slot.data words)
  | none, [] => none
  | none, word :: rest => some (changes word rest)

theorem StorageValue.modifyTime_history (first : Option StorageValue) (words : List Bytes32) :
    (history first words).map (·.modifyTime) = countAfter first words := by
  cases first with
  | some slot => rfl
  | none =>
    cases words with
    | nil => rfl
    | cons word rest => exact congrArg some (Int.zero_add _)

theorem StorageValue.data_history (first : Option StorageValue) (words : List Bytes32) :
    ((history first words).map (·.data)).getD .zero =
      words.getLast?.getD ((first.map (·.data)).getD .zero) := by
  cases first with
  | some slot => rfl
  | none =>
    cases words with
    | nil => rfl
    | cons word rest => simp [history, written, List.getLast?_cons]

/-- What the status of a write says of the slot before and after it. -/
structure StorageStatus.Tells (status : StorageStatus) (before after : Option StorageValue)
    (value : Bytes32) : Prop where
  added : status = .added ↔ before = none
  unchanged : status = .unchanged ↔ ∃ slot, before = some slot ∧ slot.data = value
  modified : status = .modified ↔
    (∃ slot, before = some slot ∧ slot.data ≠ value) ∧ after.map (·.modifyTime) = some 1
  modifiedAgain : status = .modifiedAgain ↔
    (∃ slot, before = some slot ∧ slot.data ≠ value) ∧ after.map (·.modifyTime) ≠ some 1

theorem HostState.setStorage_tells {s : HostState} {a : Address} {key : Bytes32}
    (h : ∀ slot, s.slot? a key = some slot → 0 ≤ slot.modifyTime) (value : Bytes32) :
    ∃ status, (s.setStorage a key value).1 = .ok status ∧
      status.Tells (s.slot? a key) ((s.setStorage a key value).2.slot? a key) value := by
  have hafter := s.slot?_setStorage a a key key value
  rw [if_pos ⟨rfl, rfl⟩] at hafter
  rw [hafter]
  have hstatus : (s.setStorage a key value).1 = (writeSlot (s.account a) key value).1 := rfl
  rw [hstatus]
  unfold writeSlot
  rw [← slot?_eq_account]
  cases hslot : s.slot? a key with
  | none =>
    refine ⟨.added, rfl, ?_, ?_, ?_, ?_⟩ <;> simp
  | some slot =>
    have hcount := h slot hslot
    by_cases hsame : slot.data = value
    · refine ⟨.unchanged, by simp only [if_pos hsame], ?_, ?_, ?_, ?_⟩ <;> simp [hsame]
    · have hnew : StorageValue.history (some slot) [value] =
          some { data := value, modifyTime := slot.modifyTime + 1 } := by
        simp [StorageValue.history, StorageValue.written, changes, hsame]
      simp only [if_neg hsame, hnew]
      unfold storageStatus
      rw [if_neg (by omega)]
      by_cases hfirst : slot.modifyTime + 1 = 1
      · refine ⟨.modified, by simp [hfirst], ?_, ?_, ?_, ?_⟩ <;> simp [hsame, hfirst]
      · refine ⟨.modifiedAgain, by simp [hfirst], ?_, ?_, ?_, ?_⟩ <;> simp [hsame, hfirst]

/-- After any methods put to a host directly, a slot answers with the last word written to it since its
account was destructed, or else with what it held before. Its count is what it was at first and one for
each word that followed another one. A write then never fails, its status tells what it did, and no
other slot is affected. -/
theorem storage_accounting {w : World} (counted : w.host.state.Counted) (history : List Callback)
    (a : Address) (key : Bytes32) :
    let w' := Callback.leavesAll history w
    let first := slotBefore history w.host.state a key
    let words := wordsWritten history a key
    ((Callback.getStorage a key).program.on w').1 =
        .ok (words.getLast?.getD ((first.map (·.data)).getD .zero)) ∧
      (w'.host.state.slot? a key).map (·.modifyTime) = countAfter first words ∧
      ∀ value,
        let after := ((Callback.setStorage a key value).leaves w').host.state
        (∃ status, ((Callback.setStorage a key value).program.on w').1 = .ok status ∧
          status.Tells (w'.host.state.slot? a key) (after.slot? a key) value) ∧
        ∀ a' key', (a', key') ≠ (a, key) → after.slot? a' key' = w'.host.state.slot? a' key' := by
  intro w' first words
  have hslot : w'.host.state.slot? a key = StorageValue.history first words :=
    slot?_leavesAll history w a key
  refine ⟨?_, ?_, fun value => ⟨?_, fun a' key' hother => ?_⟩⟩
  · rw [Callback.program, stateAnswer_on]
    show Except.ok (w'.host.state.getStorage a key) = _
    rw [HostState.getStorage_eq_slot?, hslot, StorageValue.data_history]
  · rw [hslot, StorageValue.modifyTime_history]
  · have hcount : ∀ slot, w'.host.state.slot? a key = some slot → 0 ≤ slot.modifyTime := by
      intro slot hfound
      refine StorageValue.history_counted (fun old hold => ?_) (hslot ▸ hfound)
      by_cases hdestructs : history.any (·.destructs a) = true
      · cases (if_pos hdestructs).symm.trans hold
      · exact counted.slot? ((if_neg hdestructs).symm.trans hold)
    obtain ⟨status, hstatus, htells⟩ := HostState.setStorage_tells hcount value
    refine ⟨status, ?_, ?_⟩
    · rw [Callback.program, stateAnswer_on]
      exact congrArg (Except.mapError Failure.fatal) hstatus
    · unfold Callback.leaves
      rw [Callback.program, stateAnswer_on]
      exact htells
  · rw [Callback.slot?_leaves]
    have hwrite : (Callback.setStorage a key value).write? a' key' = none := by
      refine if_neg fun h => hother ?_
      rw [h.1, h.2]
    rw [hwrite]
    rfl

/-- A world in which a slot of account 1 counts two changes. -/
def World.preloaded : World where
  host := { state := { accounts := .ofList [(.ofNat 1,
    { address := .ofNat 1, storage := .ofList [(.zero, ⟨.ofNat 7, 2⟩)] })] } }
  session := {}

/-- Methods that write to the slot, destruct its account, and write to it again. -/
def rewritingHistory : List Callback :=
  [.setStorage (.ofNat 1) .zero (.ofNat 9), .selfdestruct (.ofNat 1) (.ofNat 2),
    .setStorage (.ofNat 1) .zero (.ofNat 5), .resolveCallee { kind := .create, sender := .ofNat 1 },
    .setStorage (.ofNat 1) .zero (.ofNat 6), .setStorage (.ofNat 1) (.ofNat 1) (.ofNat 8)]

/-- The slot is new after the destruction, and a return to an earlier word is a change like any other. -/
theorem storage_accounting_rewriting :
    let w := Callback.leavesAll rewritingHistory .preloaded
    World.preloaded.host.state.Counted ∧
      ((Callback.getStorage (.ofNat 1) .zero).program.on w).1 = .ok (.ofNat 6) ∧
      (w.host.state.slot? (.ofNat 1) .zero).map (·.modifyTime) = some 1 ∧
      ((Callback.setStorage (.ofNat 1) .zero (.ofNat 5)).program.on w).1 = .ok .modifiedAgain := by
  intro w
  have counted : World.preloaded.host.state.Counted := by decide +kernel
  obtain ⟨hword, hcount, hwrite⟩ := storage_accounting counted rewritingHistory (.ofNat 1) .zero
  obtain ⟨⟨status, hstatus, htells⟩, -⟩ := hwrite (.ofNat 5)
  have hlast : (wordsWritten rewritingHistory (.ofNat 1) .zero).getLast? = some (.ofNat 6) := by
    decide +kernel
  have hchanged : ∃ slot, w.host.state.slot? (.ofNat 1) .zero = some slot ∧ slot.data ≠ .ofNat 5 := by
    refine ⟨⟨.ofNat 6, 1⟩, ?_, ?_⟩ <;> decide +kernel
  refine ⟨counted, hword.trans ?_, hcount.trans ?_, hstatus.trans ?_⟩
  · rw [hlast]
    rfl
  · decide +kernel
  · rw [htells.modifiedAgain.2 ⟨hchanged, ?_⟩]
    decide +kernel

end ContractHost
