import ContractHost.Proofs.Creations

/-!
# Static calls

The frame of a static message may not write, log or destruct, and the calls that it makes are static as
well. Creations are not among the changes that a static message forbids: they are counted, and the
message of a creation has no flags, so the new contract is not bound by them. A static call therefore
leaves the state as it was exactly when none of its frames creates.

* `HostState.SameUpToEmpty`: a state with nothing but empty accounts added.
* `Course.idle`: the events of a static frame below which nothing is created.
* `static_call_keeps_state_iff`: which static calls leave the state as it was.
-/

namespace ContractHost

/-- A later state in which what was destructed and each account that was there are the same, and each
account that came in is empty. -/
structure HostState.SameUpToEmpty (s s' : HostState) : Prop where
  destructed : s'.destructed = s.destructed
  kept : ∀ a account, s.find? a = some account → s'.find? a = some account
  added : ∀ a account, s.find? a = none → s'.find? a = some account → account = { address := a }

namespace HostState.SameUpToEmpty

variable {s t u : HostState}

theorem refl (s : HostState) : s.SameUpToEmpty s :=
  ⟨rfl, fun _ _ h => h, fun _ _ hnone hsome => nomatch hnone.symm.trans hsome⟩

theorem trans (h : s.SameUpToEmpty t) (h' : t.SameUpToEmpty u) : s.SameUpToEmpty u := by
  refine ⟨h'.destructed.trans h.destructed, fun a account hfind => ?_, fun a account hnone hfind => ?_⟩
  · exact h'.kept a account (h.kept a account hfind)
  · cases hmiddle : t.find? a with
    | none => exact h'.added a account hmiddle hfind
    | some empty =>
      cases hfind.symm.trans (h'.kept a empty hmiddle)
      exact h.added a account hnone hmiddle

/-- What an address stands for is the same, whether an account came in there or not. -/
theorem account (h : s.SameUpToEmpty t) (a : Address) : t.account a = s.account a := by
  unfold HostState.account
  cases hfind : s.find? a with
  | some account => rw [h.kept a account hfind]
  | none =>
    cases hfind' : t.find? a with
    | none => rfl
    | some account => exact h.added a account hfind hfind'

end HostState.SameUpToEmpty

/-! ## Events that change nothing -/

/-- An event that destructs no account, and leaves the one that it is about as it was. -/
structure Event.Idle (event : Event) : Prop where
  destructed : event.destructed? = none
  change : ∀ account, event.change account = account

theorem Event.Idle.effect {event : Event} (h : event.Idle) (s : HostState) :
    s.SameUpToEmpty (event.effect s) := by
  have hfind (a : Address) : (event.effect s).find? a =
      if event.subject? = some a then some (s.account a) else s.find? a := by
    rw [event.effect_find?, h.destructed, if_neg nofun, h.change]
  refine ⟨?_, fun a account hsome => ?_, fun a account hnone hsome => ?_⟩
  · rw [event.destructed_effect, h.destructed]
    exact List.append_nil _
  · have haccount : s.account a = account := by rw [HostState.account, hsome]; rfl
    rw [hfind, haccount, hsome, ite_self]
  · have hempty : s.account a = { address := a } := by rw [HostState.account, hnone]; rfl
    rw [hfind, hempty, hnone] at hsome
    split at hsome
    · exact (Option.some.inj hsome).symm
    · cases hsome

theorem replay_idle {trace : List Event} (h : ∀ event ∈ trace, event.Idle) (s : HostState) :
    s.SameUpToEmpty (replay trace s) := by
  induction trace generalizing s with
  | nil => exact .refl s
  | cons event rest ih =>
    have hrest := ih (fun e he => h e (List.mem_cons_of_mem event he)) (event.effect s)
    exact ((h event List.mem_cons_self).effect s).trans hrest

/-! ## The events of static frames -/

theorem Message.Sees.idle {message : Message} {event : Event} (h : message.Sees event)
    (static : message.isStatic = true) : event.Idle := by
  cases event with
  | answered q answer =>
    cases q with
    | setStorage | selfdestruct | emitLog => exact nomatch static.symm.trans h.2
    | _ => exact ⟨rfl, fun _ => rfl⟩
  | told => exact ⟨rfl, fun _ => rfl⟩
  | crashed => exact ⟨rfl, fun _ => rfl⟩
  | _ => exact h.elim

/-- The events of a call that is not a creation, apart from those of its nested frame. -/
theorem HostState.course_idle {s : HostState} {message : Message} {start : Start}
    (starts : s.start message = .ok start) (plain : message.kind.isCreate = false)
    {inner : List Event} (h : ∀ event ∈ inner, event.Idle) (outcome : Outcome) :
    ∀ event ∈ s.course message start inner outcome, event.Idle := by
  have hresolution : s.resolution message = [.touched message.sender] := by
    rw [resolution, start_derives starts, plain]
    rfl
  have hdeployment : start.deployment outcome = [] := by
    rw [Start.deployment, start_message starts, plain, Bool.and_false]
    rfl
  unfold course visit
  rw [hresolution, hdeployment, List.append_nil]
  simp only [List.cons_append, List.nil_append, List.mem_cons, List.mem_append, List.not_mem_nil,
    or_false]
  rintro event (rfl | rfl | hinner | rfl)
  · exact ⟨rfl, fun _ => rfl⟩
  · exact ⟨rfl, fun _ => rfl⟩
  · exact h event hinner
  · exact ⟨rfl, fun _ => rfl⟩

theorem HostState.start_isStatic {s : HostState} {message : Message} {start : Start}
    (starts : s.start message = .ok start) : start.message.isStatic = message.isStatic := by
  rw [start_message starts]
  rfl

theorem HostState.spawn_kind {s : HostState} {message : Message} {start : Start}
    (starts : s.start message = .ok start) : (s.spawn message start).kind = message.kind := by
  rw [spawn, start_message starts]

/-- A message that static code sends is static, unless it creates. -/
theorem Message.Begets.isStatic {message nested : Message} (h : message.Begets nested)
    (static : message.isStatic = true) (plain : nested.kind.isCreate = false) :
    nested.isStatic = true := by
  rcases h.kind with hcreate | ⟨-, hflags⟩
  · exact nomatch plain.symm.trans hcreate
  · rwa [Message.isStatic, hflags]

theorem Course.idle {message : Message} {s : HostState} {trace : List Event}
    (h : Course message s trace) (static : message.isStatic = true)
    (plain : ∀ frame ∈ spawns trace, frame.kind.isCreate = false) :
    ∀ event ∈ trace, event.Idle := by
  induction h with
  | nil => exact nofun
  | @event message s event rest sees later ih =>
    unfold spawns at plain
    rw [List.filterMap_cons_none sees.spawned?] at plain
    intro e he
    rcases List.mem_cons.1 he with rfl | hrest
    · exact sees.idle static
    · exact ih static plain e hrest
  | @call message nested s start inner rest outcome begets starts frame later ihframe ihlater =>
    rw [spawns_append, HostState.spawns_course] at plain
    have hnested : nested.kind.isCreate = false := by
      rw [← HostState.spawn_kind starts]
      exact plain _ List.mem_cons_self
    have hinner := ihframe ((HostState.start_isStatic starts).trans (begets.isStatic static hnested))
      fun f hf => plain f (by simp [hf])
    have hrest := ihlater static fun f hf => plain f (by simp [hf])
    intro e he
    rcases List.mem_append.1 he with hcourse | he
    · exact HostState.course_idle starts hnested hinner outcome e hcourse
    · exact hrest e he

theorem Called.idle {message : Message} {s : HostState} {trace : List Event}
    (h : Called message s trace) (static : message.isStatic = true)
    (plain : ∀ frame ∈ spawns trace, frame.kind.isCreate = false) :
    ∀ event ∈ trace, event.Idle := by
  obtain ⟨start, inner, outcome, starts, frame, rfl⟩ := h
  rw [HostState.spawns_course] at plain
  have hmessage : message.kind.isCreate = false := by
    rw [← HostState.spawn_kind starts]
    exact plain _ List.mem_cons_self
  have hinner := frame.idle ((HostState.start_isStatic starts).trans static)
    fun f hf => plain f (List.mem_cons_of_mem _ hf)
  exact HostState.course_idle starts hmessage hinner outcome

/-- A creation leaves a trace: its sender counts it, unless an account is destructed. -/
theorem Called.plain_of_same {message : Message} {s : HostState} {trace : List Event}
    (h : Called message s trace) (same : s.SameUpToEmpty (replay trace s)) :
    ∀ frame ∈ spawns trace, frame.kind.isCreate = false := by
  intro frame hframe
  have hnone : trace.filterMap Event.destructed? = [] := by
    have hdestructed := same.destructed
    rw [replay_destructed] at hdestructed
    exact List.append_right_eq_self.1 hdestructed
  have hkept : ∀ event ∈ trace, event.destructed? ≠ some frame.sender := by
    intro event hevent
    rw [List.filterMap_eq_nil_iff.1 hnone event hevent]
    exact nofun
  have hcount := (h.numbers hkept).count
  rw [same.account] at hcount
  have hnocreation : (spawns trace).filter
      (fun f => f.kind.isCreate ∧ f.sender = frame.sender) = [] := by
    refine List.length_eq_zero_iff.1 ?_
    omega
  have hother := List.filter_eq_nil_iff.1 hnocreation frame hframe
  simpa using hother

/-- A static call that returns destructs nothing, leaves each account that was there as it was and adds
none but empty ones, if and only if none of its frames, at whatever depth, is a creation. -/
theorem static_call_keeps_state_iff [Room] {message : Message} {w w' : World} {outcome : Outcome}
    (tidy : w.session.arena.Tidy) (room : w.session.arena.slots.length < Handle.places)
    (static : message.isStatic = true) (h : (Host.call message).run w = .ok outcome w') :
    ∃ frames, w'.session.spawns = w.session.spawns ++ frames ∧
      (w.host.state.SameUpToEmpty w'.host.state ↔
        ∀ frame ∈ frames, frame.kind.isCreate = false) := by
  obtain ⟨trace, hreplays, hcalled⟩ := call_returns_called tidy room (Run.on_eq_ok_iff.2 h)
  refine ⟨spawns trace, hreplays.spawns, ?_⟩
  rw [hreplays.state]
  exact ⟨hcalled.plain_of_same, fun plain => replay_idle (hcalled.idle static plain) _⟩

section

attribute [local instance] Room.usual

/-- The nested frame of a static call tries to write, and nothing has changed when the call returns. -/
theorem static_call_keeps_state_iff_refused :
    ∃ w', (Host.call { gas := 50, destination := .ofNat 1, flags := 1 }).run
        (.calling [0x60, 5, 0x60, 0, 0x55]) =
      .ok { gasLeft := 42, createAddress := .ofNat 1 } w' ∧
      (World.calling [0x60, 5, 0x60, 0, 0x55]).host.state.SameUpToEmpty w'.host.state := by
  have hreturns : ((Host.call { gas := 50, destination := .ofNat 1, flags := 1 }).on
      (.calling [0x60, 5, 0x60, 0, 0x55])).1 = .ok { gasLeft := 42, createAddress := .ofNat 1 } := by
    decide +kernel
  have hplain : ∀ frame ∈ ((Host.call { gas := 50, destination := .ofNat 1, flags := 1 }).on
      (.calling [0x60, 5, 0x60, 0, 0x55])).2.session.spawns, frame.kind.isCreate = false := by
    decide +kernel
  have h := Run.run_of_ok hreturns
  obtain ⟨frames, hframes, hsame⟩ :=
    static_call_keeps_state_iff (Arena.Tidy.empty Host.baseKind) (by decide) (by decide) h
  refine ⟨_, h, hsame.2 fun frame hframe => hplain frame ?_⟩
  rw [hframes]
  exact List.mem_append_right _ hframe

end

section

attribute [local instance] Room.usual

/-- A static call may change the state: its code creates contracts, which it counts though they fail. -/
theorem static_call_creating :
    ∃ w' : World, ∃ message outcome, message.isStatic = true ∧ message.kind.isCreate = false ∧
      (Host.call message).run (.calling creatingCode) = .ok outcome w' ∧
      ((World.calling creatingCode).host.state.find? (.ofNat 3)).map (·.nonce) = some 0 ∧
      (w'.host.state.find? (.ofNat 3)).map (·.nonce) = some 2 := by
  have hcreates :
      let after := (Host.call { gas := 50, destination := .ofNat 3, flags := 1 }).on
        (.calling creatingCode)
      after.1 = .ok { gasLeft := 39, createAddress := .ofNat 3 } ∧
        (after.2.host.state.find? (.ofNat 3)).map (·.nonce) = some 2 := by
    decide +kernel
  obtain ⟨hreturns, hafter⟩ := hcreates
  exact ⟨_, _, _, rfl, rfl, Run.run_of_ok hreturns, by decide +kernel, hafter⟩

end

end ContractHost
