import ContractHost.Proofs.Survivors

/-!
# What events do to one account

An event changes the entry of one account at most, its subject. Either it destructs that account, or it
makes sure of it and changes what it holds. So the fate of an account in a replay can be told from the
events that have it as their subject, and an account that is there after a call was not destructed
during it.

* `HostState.writeSlot_cases`: what a write does to an account.
* `Event.effect_find?`: each account after an event.
* `HostState.find?_resolveCallee`: each account once a message is resolved.
* `replay_destructed`, `replay_find?_of_not_subject`: the destructed list, and accounts left alone.
* `Replays.not_destructed`: what is there when a call has returned was destructed by none of its events.
-/

namespace ContractHost

namespace Event

/-- The account whose entry an event changes. -/
def subject? : Event → Option Address
  | .touched sender => some sender
  | .counted sender _ _ => some sender
  | .answered (.setStorage address _ _) _ => some address
  | .answered (.selfdestruct address _) _ => some address
  | .answered (.emitLog address _ _) _ => some address
  | .deployed callee _ => some callee
  | _ => none

/-- The account that an event destructs. -/
def destructed? : Event → Option Address
  | .answered (.selfdestruct address _) _ => some address
  | _ => none

/-- What an event makes of its subject, unless it destructs it. -/
def change : Event → Account → Account
  | .counted _ _ _, account => { account with nonce := account.nonce + 1 }
  | .answered (.setStorage _ key value) _, account => (HostState.writeSlot account key value).2
  | .answered (.emitLog _ data topics) _, account =>
    { account with logs := account.logs ++ [{ data, topics }] }
  | .deployed _ code, account => { account with code := some code }
  | _, account => account

end Event

theorem Event.subject?_eq {event : Event} {a : Address} (h : event.destructed? = some a) :
    event.subject? = some a := by
  unfold destructed? at h
  split at h
  · exact h
  · cases h

/-- A write leaves an account as it is, adds a slot that counts no change, or changes a slot that counts
one change more. -/
theorem HostState.writeSlot_cases (account : Account) (key value : Bytes32) :
    writeSlot account key value = (.ok .unchanged, account) ∨
      account.storage.get? key = none ∧
        writeSlot account key value =
          (.ok .added, { account with storage := account.storage.insert key { data := value } }) ∨
      ∃ old slot, account.storage.get? key = some old ∧ slot.modifyTime = old.modifyTime + 1 ∧
        writeSlot account key value = (storageStatus slot.modifyTime true,
          { account with storage := account.storage.insert key slot }) := by
  unfold writeSlot
  cases hslot : account.storage.get? key with
  | none => exact Or.inr (Or.inl ⟨rfl, rfl⟩)
  | some old =>
    simp only
    split
    · exact Or.inl rfl
    · exact Or.inr (Or.inr ⟨old, { data := value, modifyTime := old.modifyTime + 1 }, rfl, rfl, rfl⟩)

theorem HostState.find?_touch (s : HostState) (address other : Address) :
    (s.touch address).find? other =
      if address = other then some (s.account address) else s.find? other := by
  unfold touch account
  cases hfind : s.find? address with
  | some account =>
    simp only [Option.getD_some]
    split
    · rename_i heq
      rw [← heq, hfind]
    · rfl
  | none => exact OrderedMap.get?_insert ..

theorem HostState.account_touch (s : HostState) (address other : Address) :
    (s.touch address).account other = s.account other := by
  unfold account
  rw [find?_touch]
  split
  · rename_i heq
    rw [heq]
    rfl
  · rfl

theorem HostState.start_derives {s : HostState} {message : Message} {start : Start}
    (h : s.start message = .ok start) : s.derives message = message.kind.isCreate := by
  unfold derives
  rw [start_callee h]
  exact Bool.and_true _

/-- Each account once the message of a call that starts is resolved. -/
theorem HostState.find?_resolveCallee {s : HostState} {message : Message} {start : Start}
    (h : s.start message = .ok start) (a : Address) :
    (s.resolveCallee message).2.find? a =
      if message.sender = a then
        some (if message.kind.isCreate then { s.account a with nonce := (s.account a).nonce + 1 }
          else s.account a)
      else s.find? a := by
  rw [resolveCallee_state, start_derives h]
  split
  · unfold advanceNonce
    rw [find?_modify, account_touch]
    by_cases hsender : message.sender = a
    · rw [if_pos hsender, if_pos hsender, hsender]
    · rw [if_neg hsender, if_neg hsender, find?_touch, if_neg hsender]
  · rw [find?_touch]
    by_cases hsender : message.sender = a
    · rw [if_pos hsender, if_pos hsender, hsender]
    · rw [if_neg hsender, if_neg hsender]

theorem Event.effect_find? (event : Event) (s : HostState) (a : Address) :
    (event.effect s).find? a =
      if event.destructed? = some a then none
      else if event.subject? = some a then some (event.change (s.account a))
      else s.find? a := by
  have hmodify (address : Address) (change : Account → Account) :
      (s.modify address change).find? a =
        if some address = some a then some (change (s.account a)) else s.find? a := by
    rw [HostState.find?_modify]
    by_cases h : address = a
    · rw [if_pos h, if_pos (congrArg some h), h]
    · rw [if_neg h, if_neg (fun heq => h (Option.some.inj heq))]
  cases event with
  | touched sender =>
    have htouch := s.find?_touch sender a
    by_cases h : sender = a
    · subst h
      simpa [effect, destructed?, subject?, change] using htouch
    · simpa [effect, destructed?, subject?, h] using htouch
  | counted sender nonce kind => exact hmodify sender _
  | deployed callee code => exact hmodify callee _
  | answered q answer =>
    cases q with
    | setStorage address key value =>
      exact hmodify address fun account => (HostState.writeSlot account key value).2
    | emitLog address data topics => exact hmodify address _
    | selfdestruct address beneficiary =>
      have herased : (s.selfdestruct address beneficiary).find? a =
          if address = a then none else s.find? a := OrderedMap.get?_erase ..
      refine herased.trans ?_
      by_cases h : address = a
      · subst h
        simp [destructed?]
      · simp [destructed?, subject?, h]
    | _ => rfl
  | _ => rfl

theorem Event.account_effect {event : Event} {a : Address} (h : event.destructed? ≠ some a)
    (s : HostState) :
    (event.effect s).account a =
      if event.subject? = some a then event.change (s.account a) else s.account a := by
  unfold HostState.account
  rw [event.effect_find?, if_neg h]
  split <;> rfl

theorem Event.destructed_effect (event : Event) (s : HostState) :
    (event.effect s).destructed = s.destructed ++ event.destructed?.toList := by
  cases event with
  | touched sender =>
    have htouch : (s.touch sender).destructed = s.destructed := by
      unfold HostState.touch
      cases s.find? sender <;> rfl
    exact htouch.trans (List.append_nil _).symm
  | answered q answer =>
    cases q with
    | selfdestruct => rfl
    | _ => exact (List.append_nil _).symm
  | _ => exact (List.append_nil _).symm

theorem replay_destructed (trace : List Event) (s : HostState) :
    (replay trace s).destructed = s.destructed ++ trace.filterMap Event.destructed? := by
  induction trace generalizing s with
  | nil => exact (List.append_nil _).symm
  | cons event rest ih =>
    rw [replay_cons, ih, event.destructed_effect, List.append_assoc]
    cases h : event.destructed? with
    | none => rw [List.filterMap_cons_none h]; rfl
    | some address => rw [List.filterMap_cons_some h]; rfl

theorem replay_find?_of_not_subject {trace : List Event} {a : Address}
    (h : ∀ event ∈ trace, event.subject? ≠ some a) (s : HostState) :
    (replay trace s).find? a = s.find? a := by
  induction trace generalizing s with
  | nil => rfl
  | cons event rest ih =>
    have hsubject := h event List.mem_cons_self
    have hdestructed : event.destructed? ≠ some a := fun hd => hsubject (Event.subject?_eq hd)
    rw [replay_cons, ih fun e he => h e (List.mem_cons_of_mem event he), event.effect_find?,
      if_neg hdestructed, if_neg hsubject]

/-- An account that is there once a call has returned was destructed by none of its events. -/
theorem Replays.not_destructed [Room] {message : Message} {w w' : World} {outcome : Outcome}
    (h : (Host.call message).on w = (.ok outcome, w')) {trace : List Event}
    (hreplays : Replays trace w w') {a : Address} {account : Account}
    (hfind : w'.host.state.find? a = some account) :
    ∀ event ∈ trace, event.destructed? ≠ some a := by
  intro event hevent hdestructed
  have ha : a ∈ w'.host.state.accounts.keys :=
    (OrderedMap.mem_keys_iff ..).2 (Option.isSome_of_eq_some hfind)
  have hlisted : a ∈ w'.host.state.destructed := by
    rw [hreplays.state, replay_destructed, List.mem_append, List.mem_filterMap]
    exact Or.inr ⟨event, hevent, hdestructed⟩
  exact call_returns_apart h a ha hlisted

end ContractHost
