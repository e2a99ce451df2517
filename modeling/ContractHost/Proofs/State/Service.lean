import ContractHost.Proofs.Execution.Regular
import ContractHost.Proofs.State.RoundTrip

/-!
# States that stay in service

A write fails if the count of its slot comes to zero by a change, and a plain creation fails if the
count of its sender is negative. No method makes a count negative, so a state without negative counts
serves writes and creations for good. With a negative count it does not: a creation fails at once, and
a slot fails after as many changes as its count is below zero. A snapshot may hold such counts.

* `HostState.Serves`: writes and creations succeed, now and after whatever succeeded before them.
* `serves_iff_regular`: the states that do.
* `loads_negative`: a snapshot of one that does not.
-/

namespace ContractHost

namespace HostState

/-- A state that comes up from another one by methods and calls that succeed. -/
inductive LeadsTo [Room] (s : HostState) : HostState → Prop
  | refl : LeadsTo s s
  | answered {w : World} (h : LeadsTo s w.host.state) {c : Callback} {answer : c.Answer}
      (hanswer : (c.program.on w).1 = .ok answer) : LeadsTo s (c.leaves w).host.state
  | called {w w' : World} {message : Message} {outcome : Outcome} (h : LeadsTo s w.host.state)
      (tidy : w.session.arena.Tidy) (room : w.session.arena.slots.length < Handle.places)
      (hcall : (Host.call message).run w = .ok outcome w') : LeadsTo s w'.host.state

/-- Whatever succeeded before, each write is given a status and each creation an address. -/
structure Serves [Room] (s : HostState) : Prop where
  writes : ∀ w : World, s.LeadsTo w.host.state → ∀ a key value,
    ∃ status, ((Callback.setStorage a key value).program.on w).1 = .ok status
  creates : ∀ w : World, s.LeadsTo w.host.state → ∀ message : Message, message.kind.isCreate = true →
    ∃ callee, ((Callback.resolveCallee message).program.on w).1 = .ok callee

variable {s t : HostState}

theorem LeadsTo.regular [Room] (h : s.LeadsTo t) (hs : s.Regular) : t.Regular := by
  induction h with
  | refl => exact hs
  | @answered w _ c answer _ ih =>
    obtain ⟨trace, htrace⟩ := c.leaves_replay w
    rw [htrace]
    exact replay_regular trace ih
  | called _ tidy room hcall ih =>
    obtain ⟨trace, hreplays⟩ := call_returns_replays tidy room (Run.on_eq_ok_iff.2 hcall)
    rw [hreplays.state]
    exact replay_regular trace ih

theorem Regular.serves [Room] (hs : s.Regular) : s.Serves := by
  refine ⟨fun w hw a key value => ?_, fun w hw message _ => ?_⟩
  · obtain ⟨⟨status, hstatus⟩, -⟩ := ((hw.regular hs).account a).writeSlot key value
    refine ⟨status, ?_⟩
    rw [Callback.program, stateAnswer_on]
    exact congrArg (Except.mapError Failure.fatal) hstatus
  · obtain ⟨callee, hcallee⟩ := (hw.regular hs).resolves message
    refine ⟨callee, ?_⟩
    rw [Callback.program, resolveCallee_on]
    exact congrArg (Except.mapError Failure.fault) hcallee

/-- The world that holds nothing but a state. -/
def alone (s : HostState) : World where
  host := { state := s }
  session := {}

/-! ## Negative counts -/

theorem resolveCallee_negative {message : Message} (hkind : message.kind = .create)
    (h : (s.account message.sender).nonce < 0) : (s.resolveCallee message).1 = .error .wrongType := by
  unfold resolveCallee
  rw [hkind]
  simp only [account_touch, Derivation.create, if_pos h]

theorem Serves.nonce [Room] (h : s.Serves) (a : Address) : 0 ≤ (s.account a).nonce := by
  by_contra hneg
  obtain ⟨callee, hcallee⟩ := h.creates s.alone .refl { kind := .create, sender := a } rfl
  rw [Callback.program, resolveCallee_on] at hcallee
  have hfails : (s.alone.host.state.resolveCallee { kind := .create, sender := a }).1 =
      .error .wrongType := resolveCallee_negative rfl (Int.not_le.1 hneg)
  rw [hfails] at hcallee
  cases hcallee

/-- A change that takes the count of a slot to zero fails. -/
theorem setStorage_unadvanced {a : Address} {key value : Bytes32} {slot : StorageValue}
    (hslot : s.slot? a key = some slot) (hcount : slot.modifyTime = -1) (hvalue : slot.data ≠ value) :
    (s.setStorage a key value).1 = .error .unadvanced := by
  rw [slot?_eq_account] at hslot
  show (writeSlot (s.account a) key value).1 = _
  unfold writeSlot
  rw [hslot]
  simp [hvalue, hcount, storageStatus]

theorem exists_ne (word : Bytes32) : ∃ value, word ≠ value := by
  by_cases hzero : word = .zero
  · exact ⟨.ofNat 1, by rw [hzero]; decide⟩
  · exact ⟨.zero, hzero⟩

/-- A slot whose count is below zero comes to a change that fails: each change before it succeeds, and
takes the count one further up. -/
theorem Serves.slot [Room] (h : s.Serves) {w : World} (hw : s.LeadsTo w.host.state) {a : Address}
    {key : Bytes32} {slot : StorageValue} (hslot : w.host.state.slot? a key = some slot) :
    0 ≤ slot.modifyTime := by
  by_contra hneg
  obtain ⟨below, hbelow⟩ : ∃ below : Nat, slot.modifyTime = -1 - below :=
    ⟨(-1 - slot.modifyTime).toNat, by omega⟩
  clear hneg
  induction below generalizing w slot with
  | zero =>
    obtain ⟨value, hvalue⟩ := exists_ne slot.data
    obtain ⟨status, hstatus⟩ := h.writes w hw a key value
    rw [Callback.program, stateAnswer_on] at hstatus
    have hfails := setStorage_unadvanced hslot (by omega) hvalue
    replace hstatus : (w.host.state.setStorage a key value).1.mapError Failure.fatal = .ok status :=
      hstatus
    rw [hfails] at hstatus
    cases hstatus
  | succ below ih =>
    obtain ⟨value, hvalue⟩ := exists_ne slot.data
    obtain ⟨status, hstatus⟩ := h.writes w hw a key value
    have hnext := (Callback.setStorage a key value).slot?_leaves w a key
    rw [hslot] at hnext
    simp only [Callback.destructs, Callback.write?, and_self, if_true, StorageValue.history] at hnext
    refine ih (hw.answered hstatus) hnext ?_
    simp only [StorageValue.written, changes, if_neg hvalue]
    omega

end HostState

/-- Writes are given statuses and creations addresses, now and after any methods and calls that
succeed, if and only if no count of the state is negative. -/
theorem serves_iff_regular [Room] (s : HostState) : s.Serves ↔ s.Regular := by
  refine ⟨fun h a account hfind => ⟨?_, fun key slot hslot => ?_⟩, HostState.Regular.serves⟩
  · have hnonce := h.nonce a
    rwa [HostState.account, hfind] at hnonce
  · have hfound : s.alone.host.state.slot? a key = some slot := by
      show (s.find? a).bind (·.storage.get? key) = some slot
      rw [hfind]
      exact hslot
    exact h.slot .refl hfound

/-- A state in which account 3 counts fewer than no creations, and a slot of it fewer than no changes. -/
def HostState.negative : HostState :=
  ({} : HostState).modify (.ofNat 3) fun account =>
    { account with nonce := -1, storage := .ofList [(.zero, ⟨.ofNat 1, -1⟩)] }

/-- There is a snapshot of such a state, and once it is read neither a change of the slot nor a creation
succeeds. -/
theorem loads_negative :
    ∃ text, HostState.loads text = .ok .negative ∧
      ((Callback.setStorage (.ofNat 3) .zero (.ofNat 2)).program.on HostState.negative.alone).1 =
        .error (.fatal .unadvanced) ∧
      ((Callback.resolveCallee { kind := .create, sender := .ofNat 3 }).program.on
        HostState.negative.alone).1 = .error (.fault .wrongType) := by
  have hplaced : HostState.negative.Placed := HostState.Placed.modify .empty _ fun _ => rfl
  have hshort : HostState.negative.Short :=
    HostState.negative.writable_toValue.1 (by decide +kernel)
  have hloads := HostState.loads_dumps hplaced (HostState.dumps_eq_ok_iff.2 ⟨hshort, rfl⟩)
    (List.forall_mem_nil _)
  exact ⟨_, hloads, by decide +kernel, by decide +kernel⟩

end ContractHost
