import ContractHost.Proofs.Execution.Replay
import ContractHost.Proofs.OrderedMap

/-!
# The accounts that survive

What a call that returns does to the accounts as a whole. Writing makes sure of an account and puts a new
one last; a destruction takes one out and lists it; nothing else moves. An address that was destructed
may get a new account later, but then the frame is not adopted unless that account is destructed too.

* `Survives`: what events do to the order of the accounts and to the list of destructed ones.
* `replay_survives`: a replay takes out only accounts that it lists.
* `call_survivors`: what a call that returns leaves of the accounts.
-/

namespace ContractHost

/-- The accounts of a state stay in their order, except for those that are listed as destructed since,
and other accounts follow them. -/
structure Survives (gone fresh : List Address) (s s' : HostState) : Prop where
  destructed : s'.destructed = s.destructed ++ gone
  keys : s'.accounts.keys = s.accounts.keys.filter (· ∉ gone) ++ fresh
  again : ∀ a ∈ fresh, a ∈ s.accounts.keys → a ∈ gone

namespace Survives

variable {gone gone' fresh fresh' : List Address} {s s' t : HostState}

theorem filter_none (keys : List Address) : keys.filter (· ∉ ([] : List Address)) = keys :=
  List.filter_eq_self.2 fun _ _ => by simp

theorem refl (s : HostState) : Survives [] [] s s :=
  ⟨by simp, by rw [filter_none, List.append_nil], by simp⟩

theorem trans (h : Survives gone fresh s t) (h' : Survives gone' fresh' t s') :
    Survives (gone ++ gone') (fresh.filter (· ∉ gone') ++ fresh') s s' := by
  refine ⟨?_, ?_, fun a ha hold => ?_⟩
  · rw [h'.destructed, h.destructed, List.append_assoc]
  · rw [h'.keys, h.keys, List.filter_append, List.filter_filter, List.append_assoc]
    congr 1
    refine List.filter_congr fun a _ => ?_
    rw [Bool.and_comm]
    simp
  · rw [List.mem_append]
    by_cases hgone : a ∈ gone
    · exact Or.inl hgone
    · rcases List.mem_append.1 ha with hfresh | hfresh
      · exact absurd (h.again a (List.mem_filter.1 hfresh).1 hold) hgone
      · have hkept : a ∈ t.accounts.keys := by
          rw [h.keys, List.mem_append, List.mem_filter]
          exact Or.inl ⟨hold, by simpa using hgone⟩
        exact Or.inr (h'.again a hfresh hkept)

theorem insert (s : HostState) (address : Address) (account : Account) :
    ∃ fresh, Survives [] fresh s { s with accounts := s.accounts.insert address account } := by
  by_cases h : address ∈ s.accounts.keys
  · refine ⟨[], by simp, ?_, by simp⟩
    rw [filter_none, List.append_nil, OrderedMap.keys_insert, if_pos h]
  · refine ⟨[address], by simp, ?_, fun a ha hold => ?_⟩
    · rw [filter_none, OrderedMap.keys_insert, if_neg h]
    rw [List.mem_singleton.1 ha] at hold
    exact absurd hold h

theorem destruct (s : HostState) (address : Address) :
    Survives [address] [] s (s.destruct address) :=
  ⟨rfl, by simp [HostState.destruct, OrderedMap.keys_erase], by simp⟩

end Survives

theorem Event.effect_survives (event : Event) (s : HostState) :
    ∃ gone fresh, Survives gone fresh s (event.effect s) := by
  cases event with
  | touched sender =>
    change ∃ gone fresh, Survives gone fresh s (s.touch sender)
    unfold HostState.touch
    cases s.find? sender with
    | some account => exact ⟨[], [], .refl s⟩
    | none => exact ⟨[], Survives.insert s sender _⟩
  | counted sender => exact ⟨[], Survives.insert s sender _⟩
  | answered q answer =>
    cases q with
    | setStorage address key value => exact ⟨[], Survives.insert s address _⟩
    | selfdestruct address beneficiary => exact ⟨[address], [], Survives.destruct s address⟩
    | emitLog address data topics => exact ⟨[], Survives.insert s address _⟩
    | _ => exact ⟨[], [], .refl s⟩
  | deployed callee code => exact ⟨[], Survives.insert s callee _⟩
  | _ => exact ⟨[], [], .refl s⟩

theorem replay_survives (trace : List Event) (s : HostState) :
    ∃ gone fresh, Survives gone fresh s (replay trace s) := by
  induction trace generalizing s with
  | nil => exact ⟨[], [], .refl s⟩
  | cons event rest ih =>
    obtain ⟨gone, fresh, hevent⟩ := event.effect_survives s
    obtain ⟨gone', fresh', hrest⟩ := ih (event.effect s)
    exact ⟨_, _, hevent.trans hrest⟩

/-- An adopted state holds no account that it lists as destructed. -/
theorem call_returns_apart [Room] {message : Message} {w w' : World} {outcome : Outcome}
    (h : (Host.call message).on w = (.ok outcome, w')) :
    ∀ a ∈ w'.host.state.accounts.keys, a ∉ w'.host.state.destructed := by
  obtain ⟨start, inner, v, -, -, hadopt⟩ := callVia_returns h
  obtain ⟨hoverlap, -, rfl⟩ := World.adopt_ok hadopt
  intro a ha hlisted
  exact List.filter_eq_nil_iff.1 hoverlap a hlisted ((OrderedMap.mem_keys_iff ..).1 ha)

/-- A call that returns keeps the old list of destructed accounts and appends to it. No account is both
there and listed. An account that was there is there or was newly listed; those that stay keep their
order and come before all others. The depth and the address of the state are its own. -/
theorem call_survivors [Room] {message : Message} {w w' : World} {outcome : Outcome}
    (tidy : w.session.arena.Tidy) (room : w.session.arena.slots.length < Handle.places)
    (h : (Host.call message).run w = .ok outcome w') :
    let s := w.host.state
    let s' := w'.host.state
    ∃ gone fresh, s'.destructed = s.destructed ++ gone ∧
      (∀ a ∈ s'.accounts.keys, a ∉ s'.destructed) ∧
      (∀ a ∈ s.accounts.keys, a ∈ s'.accounts.keys ∨ a ∈ gone) ∧
      s'.accounts.keys = s.accounts.keys.filter (· ∈ s'.accounts.keys) ++ fresh ∧
      (∀ a ∈ fresh, a ∉ s.accounts.keys) ∧
      s'.depth = s.depth ∧ s'.currentAccount = s.currentAccount := by
  intro s s'
  have hon := Run.on_eq_ok_iff.2 h
  obtain ⟨trace, hreplays⟩ := call_returns_replays tidy room hon
  obtain ⟨gone, fresh, hsurvives⟩ := replay_survives trace s
  have hstate : replay trace s = s' := hreplays.state.symm
  have hapart : ∀ a ∈ s'.accounts.keys, a ∉ s'.destructed := call_returns_apart hon
  rw [hstate] at hsurvives
  have hstays : ∀ a ∈ s.accounts.keys, a ∉ gone → a ∈ s'.accounts.keys := by
    intro a ha hgone
    rw [hsurvives.keys, List.mem_append, List.mem_filter]
    exact Or.inl ⟨ha, by simpa using hgone⟩
  have hleft : ∀ a ∈ s'.accounts.keys, a ∉ gone := by
    intro a ha hgone
    apply hapart a ha
    rw [hsurvives.destructed]
    exact List.mem_append_right _ hgone
  refine ⟨gone, fresh, hsurvives.destructed, hapart, fun a ha => ?_, ?_, fun a ha hold => ?_, ?_⟩
  · by_cases hgone : a ∈ gone
    · exact Or.inr hgone
    · exact Or.inl (hstays a ha hgone)
  · refine hsurvives.keys.trans (congrArg (· ++ fresh) (List.filter_congr fun a ha => ?_))
    rw [decide_eq_decide]
    exact ⟨hstays a ha, hleft a⟩
  · have hkept : a ∈ s'.accounts.keys := by
      rw [hsurvives.keys]
      exact List.mem_append_right _ ha
    exact hleft a hkept (hsurvives.again a ha hold)
  · rw [← hstate]
    exact replay_header trace s

section

attribute [local instance] Room.usual

/-- The nested frame destructs its account. -/
theorem call_survivors_destructing :
    ∃ w', (Host.call { gas := 50, destination := .ofNat 1 }).run (.calling [0x60, 0, 0xff]) =
        .ok { gasLeft := 42, createAddress := .ofNat 1 } w' ∧
      w'.host.state.destructed = [.ofNat 3] ∧
      w'.host.state.accounts.keys = [.ofNat 1, .zero] ∧
      ∀ a ∈ (World.calling [0x60, 0, 0xff]).host.state.accounts.keys,
        a ∈ w'.host.state.accounts.keys ∨ a ∈ w'.host.state.destructed := by
  have hreturns : ((Host.call { gas := 50, destination := .ofNat 1 }).on
      (.calling [0x60, 0, 0xff])).1 = .ok { gasLeft := 42, createAddress := .ofNat 1 } := by
    decide +kernel
  have h := Run.run_of_ok hreturns
  obtain ⟨gone, fresh, hlisted, -, hstays, -⟩ :=
    call_survivors (Arena.Tidy.empty Host.baseKind) (by decide) h
  refine ⟨_, h, by decide +kernel, by decide +kernel, fun a ha => ?_⟩
  rw [hlisted, List.mem_append]
  exact (hstays a ha).imp_right Or.inr

end

end ContractHost
