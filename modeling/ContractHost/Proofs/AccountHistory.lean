import ContractHost.Proofs.Execution.Effects

/-!
# The history of an account

No event takes anything back from an account that it does not destruct: counts only grow, slots and logs
stay. Frame by frame this is not enough, since an account may be destructed and made again empty. But an
account that is there when a call has returned was not destructed in the course of it, so it continues
what it was before the call.

* `Account.Continues`: what an account keeps of an earlier form.
* `replay_continues`: what events leave of an account that none of them destructs.
* `call_continues_accounts`: what a call that returns leaves of each account that is still there.
-/

namespace ContractHost

/-- A later form of an account: nothing that it counted or emitted is lost, and a slot whose count of
changes has stayed holds the same word. -/
structure Account.Continues (old new : Account) : Prop where
  nonce : old.nonce ≤ new.nonce
  slots : ∀ key slot, old.storage.get? key = some slot →
    ∃ slot', new.storage.get? key = some slot' ∧ slot.modifyTime ≤ slot'.modifyTime ∧
      (slot'.modifyTime = slot.modifyTime → slot'.data = slot.data)
  logs : old.logs <+: new.logs

namespace Account.Continues

variable {a b c : Account}

theorem refl (a : Account) : a.Continues a := by
  refine ⟨Int.le_refl _, fun key slot h => ?_, List.prefix_refl _⟩
  exact ⟨slot, h, Int.le_refl _, fun _ => rfl⟩

theorem trans (hab : a.Continues b) (hbc : b.Continues c) : a.Continues c := by
  refine ⟨Int.le_trans hab.nonce hbc.nonce, fun key slot h => ?_, hab.logs.trans hbc.logs⟩
  obtain ⟨slot', hslot', hle, hsame⟩ := hab.slots key slot h
  obtain ⟨slot'', hslot'', hle', hsame'⟩ := hbc.slots key slot' hslot'
  refine ⟨slot'', hslot'', Int.le_trans hle hle', fun htime => ?_⟩
  -- the count did not change on the way either, as it would have had to come back
  have hmiddle : slot'.modifyTime = slot.modifyTime := by omega
  have hlast : slot''.modifyTime = slot'.modifyTime := by omega
  rw [hsame' hlast, hsame hmiddle]

theorem insert_slot {account : Account} {key : Bytes32} {slot : StorageValue}
    (h : ∀ old, account.storage.get? key = some old → old.modifyTime < slot.modifyTime) :
    account.Continues { account with storage := account.storage.insert key slot } := by
  refine ⟨Int.le_refl _, fun other old hold => ?_, List.prefix_refl _⟩
  by_cases hkey : key = other
  · subst hkey
    have hless := h old hold
    refine ⟨slot, ?_, by omega, fun hsame => by omega⟩
    rw [OrderedMap.get?_insert, if_pos rfl]
  · refine ⟨old, ?_, Int.le_refl _, fun _ => rfl⟩
    rw [OrderedMap.get?_insert, if_neg hkey, hold]

theorem writeSlot (account : Account) (key value : Bytes32) :
    account.Continues (HostState.writeSlot account key value).2 := by
  rcases HostState.writeSlot_cases account key value with
    hwrite | ⟨hnone, hwrite⟩ | ⟨old, slot, hold, hcount, hwrite⟩
  · rw [hwrite]
    exact refl account
  · rw [hwrite]
    refine insert_slot fun other hother => ?_
    cases hnone.symm.trans hother
  · rw [hwrite]
    refine insert_slot fun other hother => ?_
    cases hold.symm.trans hother
    omega

end Account.Continues

theorem Event.change_continues (event : Event) (account : Account) :
    account.Continues (event.change account) := by
  cases event with
  | counted sender nonce kind =>
    refine ⟨?_, (Account.Continues.refl account).slots, List.prefix_refl _⟩
    show account.nonce ≤ account.nonce + 1
    omega
  | answered q answer =>
    cases q with
    | setStorage address key value => exact .writeSlot account key value
    | emitLog address data topics =>
      exact ⟨Int.le_refl _, (Account.Continues.refl account).slots, List.prefix_append ..⟩
    | _ => exact .refl account
  | deployed callee code =>
    exact ⟨Int.le_refl _, (Account.Continues.refl account).slots, List.prefix_refl _⟩
  | _ => exact .refl account

theorem replay_continues {trace : List Event} {a : Address}
    (h : ∀ event ∈ trace, event.destructed? ≠ some a) {s : HostState} {account : Account}
    (ha : s.find? a = some account) :
    ∃ account', (replay trace s).find? a = some account' ∧ account.Continues account' := by
  induction trace generalizing s account with
  | nil => exact ⟨account, ha, .refl account⟩
  | cons event rest ih =>
    have hdestructed := h event List.mem_cons_self
    have hrest : ∀ e ∈ rest, e.destructed? ≠ some a := fun e he =>
      h e (List.mem_cons_of_mem event he)
    have haccount : s.account a = account := by rw [HostState.account, ha]; rfl
    have hnext := event.effect_find? s a
    rw [if_neg hdestructed, haccount, ha] at hnext
    by_cases hsubject : event.subject? = some a
    · rw [if_pos hsubject] at hnext
      obtain ⟨account', hfind, hcontinues⟩ := ih hrest hnext
      exact ⟨account', hfind, (event.change_continues account).trans hcontinues⟩
    · rw [if_neg hsubject] at hnext
      exact ih hrest hnext

/-- An account that is there before a call that returns and after it has not lost anything: its count of
creations has not decreased, its slots are still there and count no fewer changes, a slot whose count
has stayed holds the same word, and its logs come before all later ones. -/
theorem call_continues_accounts [Room] {message : Message} {w w' : World} {outcome : Outcome}
    (tidy : w.session.arena.Tidy) (room : w.session.arena.slots.length < Handle.places)
    (h : (Host.call message).run w = .ok outcome w') {a : Address} {account account' : Account}
    (before : w.host.state.find? a = some account)
    (after : w'.host.state.find? a = some account') :
    account.nonce ≤ account'.nonce ∧
      (∀ key slot, account.storage.get? key = some slot →
        ∃ slot', account'.storage.get? key = some slot' ∧ slot.modifyTime ≤ slot'.modifyTime ∧
          (slot'.modifyTime = slot.modifyTime → slot'.data = slot.data)) ∧
      account.logs <+: account'.logs := by
  have hon := Run.on_eq_ok_iff.2 h
  obtain ⟨trace, hreplays⟩ := call_returns_replays tidy room hon
  obtain ⟨last, hlast, hcontinues⟩ := replay_continues (hreplays.not_destructed hon after) before
  rw [← hreplays.state, after] at hlast
  cases hlast
  exact ⟨hcontinues.nonce, hcontinues.slots, hcontinues.logs⟩

/-- A world in which account 3 already has the slot that its code writes. -/
def World.overwriting : World :=
  let w := World.calling [0x60, 5, 0x60, 0, 0x55]
  { w with host.state := (w.host.state.setStorage (.ofNat 3) .zero (.ofNat 9)).2 }

section

attribute [local instance] Room.usual

/-- The nested frame overwrites a slot, which stays and counts one change more. -/
theorem call_continues_accounts_overwriting :
    ∃ w' account account', (Host.call { gas := 50, destination := .ofNat 1 }).run .overwriting =
        .ok { gasLeft := 42, createAddress := .ofNat 1 } w' ∧
      World.overwriting.host.state.find? (.ofNat 3) = some account ∧
      w'.host.state.find? (.ofNat 3) = some account' ∧
      (∀ key slot, account.storage.get? key = some slot →
        ∃ slot', account'.storage.get? key = some slot' ∧ slot.modifyTime ≤ slot'.modifyTime ∧
          (slot'.modifyTime = slot.modifyTime → slot'.data = slot.data)) ∧
      account'.storage.get? .zero = some { data := .ofNat 5, modifyTime := 1 } := by
  have hreturns : ((Host.call { gas := 50, destination := .ofNat 1 }).on .overwriting).1 =
      .ok { gasLeft := 42, createAddress := .ofNat 1 } := by
    decide +kernel
  have hbefore : World.overwriting.host.state.find? (.ofNat 3) =
      some (World.overwriting.host.state.account (.ofNat 3)) := by
    decide +kernel
  have hslot : ((((Host.call { gas := 50, destination := .ofNat 1 }).on .overwriting).2.host.state.find?
      (.ofNat 3)).bind (·.storage.get? .zero)) = some { data := .ofNat 5, modifyTime := 1 } := by
    decide +kernel
  obtain ⟨account', hafter, hslot⟩ := Option.bind_eq_some_iff.1 hslot
  have h := Run.run_of_ok hreturns
  obtain ⟨-, hslots, -⟩ :=
    call_continues_accounts (Arena.Tidy.empty Host.baseKind) (by decide) h hbefore hafter
  exact ⟨_, _, account', h, hbefore, hafter, hslots, hslot⟩

end

end ContractHost
