import ContractHost.Proofs.FailedCall
import ContractHost.Proofs.SlotHistory
import ContractHost.Proofs.Yields
import ContractHost.State.Snapshot

/-!
# States that come up

A state is empty or read from a text at first. Then accounts are made and changed, a host's methods are
put to it directly, it is copied and adopts copies, and calls run on it to their end. However that goes,
each account stands under its own address: an account is made at its address, and nothing gives it
another one.

* `HostState.Reachable`: the states that come up.
* `HostState.Reachable.placed`: each account of such a state stands under its own address.
-/

namespace ContractHost

/-- Each account stands under its own address. -/
def HostState.Placed (s : HostState) : Prop :=
  ∀ address account, s.find? address = some account → account.address = address

/-- A state that is empty or was read, and was worked on since. -/
inductive HostState.Reachable [Room] : HostState → Prop
  | empty : Reachable {}
  | loaded {text : Text} {s : HostState} (h : loads text = .ok s) : Reachable s
  /-- An account is asked for, and made if it is absent. -/
  | touched {s : HostState} (h : Reachable s) (address : Address) : Reachable (s.touch address)
  /-- The fields of an account are set, other than its address. -/
  | updated {s : HostState} (h : Reachable s) (address : Address) {change : Account → Account}
      (hchange : ∀ account, (change account).address = account.address) :
      Reachable (s.modify address change)
  /-- An account is taken away. -/
  | removed {s : HostState} (h : Reachable s) (address : Address) :
      Reachable { s with accounts := s.accounts.erase address }
  /-- The other fields of the state are set. -/
  | headed {s : HostState} (h : Reachable s) (depth : Int) (currentAccount : Address)
      (destructed : List Address) : Reachable { s with depth, currentAccount, destructed }
  /-- A method of the host other than `call` is put to it, whether it returns or fails. -/
  | answered {w : World} (h : Reachable w.host.state) (c : Callback) :
      Reachable (c.leaves w).host.state
  | cloned {s : HostState} (h : Reachable s) (depth : Int) (currentAccount : Address) :
      Reachable (s.clone depth currentAccount)
  | merged {s child result : HostState} (h : Reachable s) (hchild : Reachable child)
      (hmerge : s.merge child = .ok result) : Reachable result
  /-- A call runs to its end. -/
  | called {w w' : World} {message : Message} {outcome : Outcome} (h : Reachable w.host.state)
      (tidy : w.session.arena.Tidy) (room : w.session.arena.slots.length < Handle.places)
      (hcall : (Host.call message).run w = .ok outcome w') : Reachable w'.host.state
  /-- A call fails. -/
  | failed {w w' : World} {message : Message} {failure : Failure} (h : Reachable w.host.state)
      (hcall : (Host.call message).run w = .error failure w') : Reachable w'.host.state

/-! ## Changes of accounts -/

theorem Event.change_address (event : Event) (account : Account) :
    (event.change account).address = account.address := by
  cases event with
  | answered q answer =>
    cases q with
    | setStorage address key value =>
      show (HostState.writeSlot account key value).2.address = account.address
      rcases HostState.writeSlot_cases account key value with
        hsame | ⟨-, hadded⟩ | ⟨old, slot, -, -, hchanged⟩
      · rw [hsame]
      · rw [hadded]
      · rw [hchanged]
    | _ => rfl
  | _ => rfl

/-- A method leaves the state that events lead to. -/
theorem Callback.leaves_replay (c : Callback) (w : World) :
    ∃ trace, (c.leaves w).host.state = replay trace w.host.state := by
  have hreply (q : Query) : ∃ trace,
      ((Methods.stateAnswer q).on w).2.host.state = replay trace w.host.state := by
    rw [stateAnswer_on]
    exact ⟨[.answered q q.neutral], (Event.effect_answered w.host q q.neutral).symm⟩
  cases c with
  | getTxContext => exact ⟨[], rfl⟩
  | getBlockHash number => exact ⟨[], rfl⟩
  | copyCode address offset size => exact ⟨[], rfl⟩
  | resolveCallee message =>
    refine ⟨w.host.state.resolution message, ?_⟩
    rw [replay_resolution, leaves, program, resolveCallee_on]
    rfl
  | accountExists address => exact hreply (.accountExists address)
  | getBalance address => exact hreply (.getBalance address)
  | getCodeSize address => exact hreply (.getCodeSize address)
  | getCodeHash address => exact hreply (.getCodeHash address)
  | getStorage address key => exact hreply (.getStorage address key)
  | setStorage address key value => exact hreply (.setStorage address key value)
  | selfdestruct address beneficiary => exact hreply (.selfdestruct address beneficiary)
  | emitLog address data topics => exact hreply (.emitLog address data topics)

/-! ## Each account under its own address -/

namespace HostState.Placed

variable {s : HostState}

theorem empty : Placed {} := by
  intro address account hfind
  cases hfind

theorem account (h : s.Placed) (address : Address) : (s.account address).address = address := by
  unfold HostState.account
  cases hfind : s.find? address with
  | none => rfl
  | some account => exact h address account hfind

theorem modify (h : s.Placed) (address : Address) {change : Account → Account}
    (hchange : ∀ account, (change account).address = account.address) :
    (s.modify address change).Placed := by
  intro other account hfind
  rw [find?_modify] at hfind
  split at hfind
  · rename_i heq
    cases hfind
    rw [hchange, h.account, heq]
  · exact h other account hfind

theorem touch (h : s.Placed) (address : Address) : (s.touch address).Placed := by
  intro other account hfind
  rw [find?_touch] at hfind
  split at hfind
  · rename_i heq
    cases hfind
    rw [h.account, heq]
  · exact h other account hfind

theorem erase (h : s.Placed) (address : Address) :
    Placed { s with accounts := s.accounts.erase address } := by
  intro other account hfind
  have herased : (s.accounts.erase address).get? other =
      if address = other then none else s.find? other := OrderedMap.get?_erase ..
  rw [find?, herased] at hfind
  split at hfind
  · cases hfind
  · exact h other account hfind

/-- The place of an account says nothing about the rest of the state. -/
theorem of_accounts (h : s.Placed) {t : HostState} (haccounts : t.accounts = s.accounts) :
    t.Placed := by
  intro address account hfind
  rw [find?, haccounts] at hfind
  exact h address account hfind

theorem effect (h : s.Placed) (event : Event) : (event.effect s).Placed := by
  intro address account hfind
  rw [event.effect_find?] at hfind
  split at hfind
  · cases hfind
  split at hfind
  · cases hfind
    rw [event.change_address, h.account]
  · exact h address account hfind

theorem replay (h : s.Placed) (trace : List Event) : (replay trace s).Placed := by
  induction trace generalizing s with
  | nil => exact h
  | cons event rest ih => exact ih (h.effect event)

theorem call [Room] {w w' : World} {message : Message} {outcome : Outcome} (h : w.host.state.Placed)
    (tidy : w.session.arena.Tidy) (room : w.session.arena.slots.length < Handle.places)
    (hcall : (Host.call message).run w = .ok outcome w') : w'.host.state.Placed := by
  obtain ⟨trace, hreplays⟩ := call_returns_replays tidy room (Run.on_eq_ok_iff.2 hcall)
  rw [hreplays.state]
  exact h.replay trace

theorem call_error [Room] {w w' : World} {message : Message} {failure : Failure} (h : w.host.state.Placed)
    (hcall : (Host.call message).run w = .error failure w') : w'.host.state.Placed := by
  have hresolved := call_error_resolved (Run.on_eq_error_iff.2 hcall)
  have hstate : w'.host.state = (w.host.state.resolveCallee message).2 :=
    congrArg Host.state hresolved
  rw [hstate, ← replay_resolution]
  exact h.replay _

/-- An account that is read goes under the address that it names. -/
theorem accountsOfFields {fields : List (Text × Value)} {done : OrderedMap Address Account}
    (hdone : ∀ address account, done.get? address = some account → account.address = address) :
    Yields (accountsOfFields done fields) fun accounts =>
      ∀ address account, accounts.get? address = some account → account.address = address := by
  induction fields generalizing done with
  | nil => exact yields_ok hdone
  | cons field rest ih =>
    obtain ⟨name, value⟩ := field
    rw [ContractHost.accountsOfFields]
    refine yields_then fun account => yields_then fun key => ?_
    split
    · apply ih
      intro address other hfind
      rw [OrderedMap.get?_insert] at hfind
      split at hfind
      · rename_i heq
        cases hfind
        exact heq
      · exact hdone address other hfind
    · exact yields_error _

theorem ofValue (value : Value) : Yields (HostState.ofValue value) Placed := by
  unfold HostState.ofValue
  refine yields_then fun fields => yields_bind (accountsOfFields nofun) fun accounts haccounts => ?_
  exact yields_then fun _ => yields_then fun _ => yields_then fun _ => yields_ok haccounts

theorem loads (text : Text) : Yields (HostState.loads text) Placed := by
  unfold HostState.loads
  split
  · exact ofValue _
  · exact yields_error _
  · exact yields_error _
  · exact yields_error _

end HostState.Placed

/-- However a state came up, each of its accounts stands under its own address. -/
theorem HostState.Reachable.placed [Room] {s : HostState} (h : s.Reachable) : s.Placed := by
  induction h with
  | empty => exact .empty
  | loaded hloads => exact .loads _ _ hloads
  | touched _ address ih => exact ih.touch address
  | updated _ address hchange ih => exact ih.modify address hchange
  | removed _ address ih => exact ih.erase address
  | headed _ depth currentAccount destructed ih => exact ih.of_accounts rfl
  | @answered w _ c ih =>
    obtain ⟨trace, htrace⟩ := c.leaves_replay w
    rw [htrace]
    exact ih.replay trace
  | cloned _ depth currentAccount ih => exact ih.of_accounts rfl
  | merged _ _ hmerge _ ihchild =>
    obtain ⟨-, -, rfl⟩ := merge_ok_iff.1 hmerge
    exact ihchild.of_accounts rfl
  | called _ tidy room hcall ih => exact ih.call tidy room hcall
  | failed _ hcall ih => exact ih.call_error hcall

end ContractHost
