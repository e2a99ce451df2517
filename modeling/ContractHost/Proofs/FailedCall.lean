import ContractHost.Proofs.Execution.Steps
import ContractHost.Proofs.OrderedMap

/-!
# A call that fails

A nested frame works on a copy of the state, and its accounts reach the frame that started it only when
the copy is adopted. So a call that fails, before its nested frame, in it or in adopting it, leaves of
its host what resolving the message has made of it: the sender has an account, and a creation whose
address was derived counts.

* `HostState.entries_touch`, `HostState.entries_modify`: an account made sure of, and one changed.
* `call_error_host`: what a failed call leaves of its host.
-/

namespace ContractHost

namespace HostState

theorem find?_eq_none_iff {s : HostState} {address : Address} :
    s.find? address = none ↔ address ∉ s.accounts.keys :=
  OrderedMap.lookup_eq_none_iff ..

theorem touch_of_mem {s : HostState} {address : Address} (h : address ∈ s.accounts.keys) :
    s.touch address = s := by
  unfold touch
  cases hf : s.find? address with
  | some account => rfl
  | none => exact absurd h (find?_eq_none_iff.1 hf)

theorem touch_of_not_mem {s : HostState} {address : Address} (h : address ∉ s.accounts.keys) :
    s.touch address = { s with accounts := s.accounts.insert address { address } } := by
  unfold touch
  rw [find?_eq_none_iff.2 h]

theorem entries_touch (s : HostState) (address : Address) :
    (s.touch address).accounts.entries =
      if address ∈ s.accounts.keys then s.accounts.entries
      else s.accounts.entries ++ [(address, { address := address })] := by
  by_cases h : address ∈ s.accounts.keys
  · rw [touch_of_mem h, if_pos h]
  · rw [touch_of_not_mem h, if_neg h]
    exact OrderedMap.entries_insert_of_not_mem h _

theorem mem_keys_touch (s : HostState) (address : Address) :
    address ∈ (s.touch address).accounts.keys := by
  by_cases h : address ∈ s.accounts.keys
  · rwa [touch_of_mem h]
  · rw [touch_of_not_mem h]
    simp [OrderedMap.keys_insert, h]

/-- Changing an account that is there changes no other entry. -/
theorem entries_modify {s : HostState} {address : Address} (h : address ∈ s.accounts.keys)
    (change : Account → Account) :
    (s.modify address change).accounts.entries = s.accounts.entries.map fun e =>
      if e.1 = address then (address, change e.2) else e := by
  refine (OrderedMap.entries_insert_of_mem h _).trans (List.map_congr_left fun e he => ?_)
  by_cases hkey : e.1 = address
  · have haccount : s.account address = e.2 := by
      rw [account, find?, ← hkey, OrderedMap.get?_of_mem he]
      rfl
    rw [if_pos hkey, if_pos hkey, haccount]
  · rw [if_neg hkey, if_neg hkey]

end HostState

theorem call_error_resolved [Room] {message : Message} {w w' : World} {failure : Failure}
    (h : (Host.call message).on w = (.error failure, w')) : w'.host = (w.resolve message).host := by
  rcases callVia_fails h with ⟨-, rfl⟩ | ⟨start, -, ⟨v, -, rfl⟩ | ⟨inner, v, -, hadopt⟩⟩
  · rfl
  · rfl
  · exact World.adopt_error hadopt

/-- A call that fails leaves of its host what resolving the message has made of it, however deep in its
nested frames the failure arose and whatever these frames did. -/
theorem call_error_host [Room] {message : Message} {w w' : World} {failure : Failure}
    (h : (Host.call message).run w = .error failure w') :
    let s := w.host.state
    let touched := if message.sender ∈ s.accounts.keys then s.accounts.entries
      else s.accounts.entries ++ [(message.sender, { address := message.sender })]
    w'.host = { w.host with state := (s.resolveCallee message).2 } ∧
      w'.host.state.depth = s.depth ∧ w'.host.state.currentAccount = s.currentAccount ∧
      w'.host.state.destructed = s.destructed ∧
      w'.host.state.accounts.entries =
        if message.kind.isCreate ∧ (s.resolveCallee message).1.isOk then
          touched.map fun e =>
            if e.1 = message.sender then (message.sender, { e.2 with nonce := e.2.nonce + 1 }) else e
        else touched := by
  intro s touched
  have hhost : w'.host = { w.host with state := (s.resolveCallee message).2 } :=
    call_error_resolved (Run.on_eq_error_iff.2 h)
  have htouched : (s.touch message.sender).accounts.entries = touched := s.entries_touch _
  have hheader : (s.touch message.sender).depth = s.depth ∧
      (s.touch message.sender).currentAccount = s.currentAccount ∧
      (s.touch message.sender).destructed = s.destructed := by
    unfold HostState.touch
    cases s.find? message.sender <;> exact ⟨rfl, rfl, rfl⟩
  obtain ⟨hdepth, hcurrent, hdestructed⟩ := hheader
  rw [hhost, HostState.resolveCallee_state]
  unfold HostState.derives
  by_cases hderived : message.kind.isCreate ∧ (s.resolveCallee message).1.isOk
  · rw [if_pos hderived, if_pos (by simpa using hderived)]
    refine ⟨rfl, hdepth, hcurrent, hdestructed, ?_⟩
    rw [HostState.advanceNonce, HostState.entries_modify (s.mem_keys_touch _), htouched]
  · rw [if_neg hderived, if_neg (by simpa using hderived)]
    exact ⟨rfl, hdepth, hcurrent, hdestructed, htouched⟩

section

attribute [local instance] Room.usual

/-- The nested frame fails after a write and some calls, and all that is left is the sender's account. -/
theorem call_error_host_stranded :
    ∃ w', (Host.call { gas := 50, destination := .ofNat 1, sender := .ofNat 2 }).run
          (.calling strandedCode) = .error (.fatal (.noCode (.ofNat 7) .call)) w' ∧
      w'.host.state.accounts.entries =
        (World.calling strandedCode).host.state.accounts.entries ++
          [(.ofNat 2, { address := .ofNat 2 })] := by
  have hfails : ((Host.call { gas := 50, destination := .ofNat 1, sender := .ofNat 2 }).on
      (.calling strandedCode)).1 = .error (.fatal (.noCode (.ofNat 7) .call)) := by
    decide +kernel
  have h := Run.run_of_error hfails
  exact ⟨_, h, (call_error_host h).2.2.2.2.trans (by decide +kernel)⟩

end

end ContractHost
