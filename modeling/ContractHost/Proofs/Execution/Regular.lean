import ContractHost.Proofs.Execution.Effects

/-!
# States that answer every question

A write may find that a slot changed without counting the change, and a creation may find a count that
no address can be derived from. Neither happens while all counts of a state are zero or more, and no
event makes a count negative.

* `HostState.Regular`: no count of a state is negative.
* `replay_regular`: events keep a state regular.
* `Host.reply_ok`, `HostState.start_fails`: what can still go wrong on a regular state.
-/

namespace ContractHost

/-- An account without negative counts. -/
structure Account.Regular (account : Account) : Prop where
  nonce : 0 ≤ account.nonce
  slots : ∀ key slot, account.storage.get? key = some slot → 0 ≤ slot.modifyTime

/-- A state without negative counts. -/
def HostState.Regular (s : HostState) : Prop :=
  ∀ a account, s.find? a = some account → account.Regular

namespace Account.Regular

variable {account : Account}

theorem empty (address : Address) : Account.Regular { address } := by
  refine ⟨Int.le_refl 0, fun key slot h => ?_⟩
  cases (OrderedMap.get?_empty key).symm.trans h

theorem insert_slot (h : account.Regular) (key : Bytes32) {slot : StorageValue}
    (hslot : 0 ≤ slot.modifyTime) :
    Account.Regular { account with storage := account.storage.insert key slot } := by
  refine ⟨h.nonce, fun other found hfound => ?_⟩
  rw [OrderedMap.get?_insert] at hfound
  split at hfound
  · cases hfound
    exact hslot
  · exact h.slots other found hfound

/-- A write is given a status, and leaves no negative count. -/
theorem writeSlot (h : account.Regular) (key value : Bytes32) :
    (∃ status, (HostState.writeSlot account key value).1 = .ok status) ∧
      (HostState.writeSlot account key value).2.Regular := by
  rcases HostState.writeSlot_cases account key value with
    hwrite | ⟨-, hwrite⟩ | ⟨old, slot, hold, hcount, hwrite⟩
  · rw [hwrite]
    exact ⟨⟨.unchanged, rfl⟩, h⟩
  · rw [hwrite]
    exact ⟨⟨.added, rfl⟩, h.insert_slot key (Int.le_refl 0)⟩
  · rw [hwrite]
    have hold := h.slots key old hold
    refine ⟨?_, h.insert_slot key (by omega)⟩
    unfold storageStatus
    rw [if_neg (by omega)]
    by_cases hfirst : slot.modifyTime = 1
    · exact ⟨.modified, by simp [hfirst]⟩
    · exact ⟨.modifiedAgain, by simp [hfirst]⟩

end Account.Regular

namespace HostState.Regular

variable {s : HostState}

theorem account (h : s.Regular) (a : Address) : (s.account a).Regular := by
  unfold HostState.account
  cases hfind : s.find? a with
  | none => exact .empty a
  | some account => exact h a account hfind

end HostState.Regular

theorem Event.change_regular (event : Event) {account : Account} (h : account.Regular) :
    (event.change account).Regular := by
  cases event with
  | counted sender nonce kind =>
    have hnonce := h.nonce
    refine ⟨?_, h.slots⟩
    show 0 ≤ account.nonce + 1
    omega
  | answered q answer =>
    cases q with
    | setStorage address key value => exact (h.writeSlot key value).2
    | emitLog address data topics => exact ⟨h.nonce, h.slots⟩
    | _ => exact h
  | deployed callee code => exact ⟨h.nonce, h.slots⟩
  | _ => exact h

theorem Event.effect_regular (event : Event) {s : HostState} (h : s.Regular) :
    (event.effect s).Regular := by
  intro a account hfind
  rw [event.effect_find?] at hfind
  split at hfind
  · cases hfind
  · split at hfind
    · cases hfind
      exact event.change_regular (h.account a)
    · exact h a account hfind

theorem replay_regular (trace : List Event) {s : HostState} (h : s.Regular) :
    (replay trace s).Regular := by
  induction trace generalizing s with
  | nil => exact h
  | cons event rest ih => exact ih (event.effect_regular h)

/-- A host on a regular state answers every question about it. -/
theorem Host.reply_ok {host : Host} (h : host.state.Regular) (htx : ∃ raw, host.tx.toRaw = .ok raw)
    (q : Query) : ∃ answer, (host.reply q).1 = .ok answer := by
  cases q with
  | txContext =>
    obtain ⟨raw, hraw⟩ := htx
    exact ⟨raw, by rw [Host.reply, hraw]; rfl⟩
  | setStorage address key value =>
    obtain ⟨⟨status, hstatus⟩, -⟩ := (h.account address).writeSlot key value
    refine ⟨status, ?_⟩
    show (HostState.writeSlot (host.state.account address) key value).1.mapError _ = _
    rw [hstatus]
    rfl
  | _ => exact ⟨_, rfl⟩

/-- On a regular state every message has a callee. -/
theorem HostState.Regular.resolves {s : HostState} (h : s.Regular) (message : Message) :
    ∃ callee, (s.resolveCallee message).1 = .ok callee := by
  have hnonce := (h.account message.sender).nonce
  unfold resolveCallee
  simp only [account_touch]
  cases message.kind with
  | create =>
    simp only [Derivation.create, if_neg (Int.not_lt.2 hnonce)]
    exact ⟨_, rfl⟩
  | _ => exact ⟨_, rfl⟩

/-- On a regular state a call starts unless there is no code at its callee. -/
theorem HostState.start_fails {s : HostState} {message : Message} {failure : Failure}
    (hs : s.Regular) (h : s.start message = .error failure) :
    ∃ callee, failure = .fatal (.noCode callee message.kind) := by
  obtain ⟨callee, hcallee⟩ := hs.resolves message
  unfold start at h
  split at h
  · rename_i cause s' hcause
    rw [hcause] at hcallee
    cases hcallee
  · split at h
    · cases h
    · split at h
      · cases h
      · cases h
        exact ⟨_, rfl⟩

end ContractHost
