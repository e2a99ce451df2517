import ContractHost.Proofs.Execution.Effects
import ContractHost.Proofs.Execution.Course

/-!
# The footprint of a call

Each frame works on a copy of all accounts, and the frame that started it adopts the whole copy. Yet a
frame writes only at its own address, and the addresses of the frames of a call are the callees of the
frames that start in it. So a call changes no account at any other address, except that the account of
its sender is made sure of and counts a creation.

* `Within`: events that change accounts of a list only.
* `Course.within`: what the events of a frame change.
* `Called.find?`, `Called.destructed`: accounts elsewhere, and those that a call destructs.
* `call_footprint`: what a call that returns changes.
-/

namespace ContractHost

/-- Events that change accounts of a list only. -/
def Within (footprint : List Address) (trace : List Event) : Prop :=
  ∀ event ∈ trace, ∀ a, event.subject? = some a → a ∈ footprint

/-- The addresses of the frames that start among events. -/
def callees (trace : List Event) : List Address := (spawns trace).map (·.callee)

namespace Within

variable {footprint larger : List Address} {first second trace : List Event}

theorem mono (h : Within footprint trace) (hsubset : footprint ⊆ larger) : Within larger trace :=
  fun event hevent a ha => hsubset (h event hevent a ha)

theorem append (h : Within footprint first) (h' : Within footprint second) :
    Within footprint (first ++ second) := by
  intro event hevent
  exact (List.mem_append.1 hevent).elim (h event) (h' event)

theorem cons {event : Event} (h : ∀ a, event.subject? = some a → a ∈ footprint)
    (h' : Within footprint trace) : Within footprint (event :: trace) := by
  intro e he
  rcases List.mem_cons.1 he with rfl | he
  · exact h
  · exact h' e he

theorem nil (footprint : List Address) : Within footprint [] := fun _ h => nomatch h

theorem find? (h : Within footprint trace) {a : Address} (ha : a ∉ footprint) (s : HostState) :
    (replay trace s).find? a = s.find? a :=
  replay_find?_of_not_subject (fun event hevent hsubject => ha (h event hevent a hsubject)) s

theorem destructed (h : Within footprint trace) :
    ∀ a ∈ trace.filterMap Event.destructed?, a ∈ footprint := by
  intro a ha
  obtain ⟨event, hevent, hdestructed⟩ := List.mem_filterMap.1 ha
  exact h event hevent a (Event.subject?_eq hdestructed)

end Within

theorem HostState.resolution_within (s : HostState) (message : Message) :
    Within [message.sender] (s.resolution message) := by
  intro event hevent a ha
  unfold resolution at hevent
  rw [List.mem_singleton]
  rcases List.mem_cons.1 hevent with rfl | hevent
  · exact (Option.some.inj ha).symm
  · split at hevent
    · rw [List.mem_singleton.1 hevent] at ha
      exact (Option.some.inj ha).symm
    · cases hevent

/-- Once its message is resolved, a call changes what its nested frame changes and what is at its
callee. -/
theorem HostState.visit_within {footprint : List Address} {inner : List Event} {start : Start}
    (h : Within footprint inner) (hcallee : start.callee ∈ footprint) (s : HostState)
    (message : Message) (outcome : Outcome) :
    Within footprint (s.visit message start inner outcome) := by
  have hdeployment : Within footprint (start.deployment outcome) := by
    unfold Start.deployment
    split
    · refine .cons (fun a ha => ?_) (.nil _)
      cases ha
      exact hcallee
    · exact .nil _
  exact .cons nofun ((h.append hdeployment).append (.cons nofun (.nil _)))

theorem HostState.callees_course (s : HostState) (message : Message) (start : Start)
    (inner : List Event) (outcome : Outcome) :
    callees (s.course message start inner outcome) = start.callee :: callees inner := by
  unfold callees
  rw [spawns_course]
  rfl

theorem Message.Sees.subject? {message : Message} {event : Event} (h : message.Sees event)
    {a : Address} (ha : event.subject? = some a) : a = message.destination := by
  cases event with
  | answered q answer =>
    cases q with
    | setStorage address key value =>
      cases ha
      exact h.1
    | selfdestruct address beneficiary =>
      cases ha
      exact h.1
    | emitLog address data topics =>
      cases ha
      exact h.1
    | _ => cases ha
  | told | crashed => cases ha
  | _ => exact h.elim

/-- The events of a frame change only what is at its own address or at the callee of a frame that starts
among them. -/
theorem Course.within {message : Message} {s : HostState} {trace : List Event}
    (h : Course message s trace) : Within (message.destination :: callees trace) trace := by
  induction h with
  | nil => exact .nil _
  | @event message s event rest sees later ih =>
    have hcallees : callees (event :: rest) = callees rest := by
      unfold callees spawns
      rw [List.filterMap_cons_none sees.spawned?]
    rw [hcallees]
    refine .cons (fun a ha => ?_) ih
    rw [sees.subject? ha]
    exact List.mem_cons_self
  | @call message nested s start inner rest outcome begets starts frame later ihframe ihlater =>
    have hcallees : callees (s.course nested start inner outcome ++ rest) =
        start.callee :: callees inner ++ callees rest := by
      rw [← s.callees_course nested]
      unfold callees
      rw [spawns_append, List.map_append]
    have hdestination : start.message.destination = start.callee := by
      rw [HostState.start_message starts]
    rw [hdestination] at ihframe
    have hresolution : Within [message.destination] (s.resolution nested) :=
      begets.sender ▸ s.resolution_within nested
    have hvisit := HostState.visit_within ihframe List.mem_cons_self s nested outcome
    rw [hcallees]
    refine ((hresolution.mono fun a ha => ?_).append (hvisit.mono fun a ha => ?_)).append
      (ihlater.mono fun a ha => ?_)
    · exact List.mem_cons.2 (Or.inl (List.mem_singleton.1 ha))
    · exact List.mem_cons_of_mem _ (List.mem_append_left _ ha)
    · rcases List.mem_cons.1 ha with rfl | ha
      · exact List.mem_cons_self
      · exact List.mem_cons_of_mem _ (List.mem_append_right _ ha)

/-- Once its message is resolved, a call changes only what is at the callees of its frames. -/
theorem Called.visit_within {message : Message} {s : HostState} {trace : List Event}
    (h : Called message s trace) :
    ∃ start inner outcome, s.start message = .ok start ∧
      trace = s.resolution message ++ s.visit message start inner outcome ∧
      Within (callees trace) (s.visit message start inner outcome) := by
  obtain ⟨start, inner, outcome, hstart, hcourse, rfl⟩ := h
  refine ⟨start, inner, outcome, hstart, rfl, ?_⟩
  have hinner := hcourse.within
  have hdestination : start.message.destination = start.callee := by
    rw [HostState.start_message hstart]
  rw [hdestination, ← s.callees_course message start inner outcome] at hinner
  refine HostState.visit_within hinner ?_ s message outcome
  rw [s.callees_course]
  exact List.mem_cons_self

theorem Called.find? {message : Message} {s : HostState} {trace : List Event}
    (h : Called message s trace) {a : Address} (ha : a ∉ callees trace) :
    (replay trace s).find? a =
      if message.sender = a then
        some (if message.kind.isCreate then { s.account a with nonce := (s.account a).nonce + 1 }
          else s.account a)
      else s.find? a := by
  obtain ⟨start, inner, outcome, hstart, htrace, hvisit⟩ := h.visit_within
  rw [← HostState.find?_resolveCallee hstart, ← replay_resolution, htrace, replay_append]
  exact hvisit.find? ha _

theorem Called.destructed {message : Message} {s : HostState} {trace : List Event}
    (h : Called message s trace) :
    ∀ a ∈ trace.filterMap Event.destructed?, a ∈ callees trace := by
  obtain ⟨start, inner, outcome, -, htrace, hvisit⟩ := h.visit_within
  have hresolution : (s.resolution message).filterMap Event.destructed? = [] := by
    unfold HostState.resolution
    split <;> rfl
  have hgone : trace.filterMap Event.destructed? =
      (s.visit message start inner outcome).filterMap Event.destructed? := by
    rw [htrace, List.filterMap_append, hresolution, List.nil_append]
  rw [hgone]
  exact hvisit.destructed

/-- A call that returns changes only accounts at the callees of the frames that start in it, its own
among them. At any other address the entry is the same, except that the sender has an account, which
counts the creation if the message makes one. What was newly destructed was at one of the callees. -/
theorem call_footprint [Room] {message : Message} {w w' : World} {outcome : Outcome}
    (tidy : w.session.arena.Tidy) (room : w.session.arena.slots.length < Handle.places)
    (h : (Host.call message).run w = .ok outcome w') :
    let s := w.host.state
    let s' := w'.host.state
    ∃ frames, w'.session.spawns = w.session.spawns ++ frames ∧
      let footprint := frames.map (·.callee)
      (∀ a, a ∉ footprint → a ≠ message.sender → s'.find? a = s.find? a) ∧
      (message.sender ∉ footprint →
        let account := s.account message.sender
        s'.find? message.sender =
          some (if message.kind.isCreate then { account with nonce := account.nonce + 1 }
            else account)) ∧
      ∃ gone, s'.destructed = s.destructed ++ gone ∧ ∀ a ∈ gone, a ∈ footprint := by
  intro s s'
  have hon := Run.on_eq_ok_iff.2 h
  obtain ⟨trace, hreplays, hcalled⟩ := call_returns_called tidy room hon
  have hstate : s' = replay trace s := hreplays.state
  refine ⟨_, hreplays.spawns, fun a ha hsender => ?_, fun ha => ?_, _, ?_, hcalled.destructed⟩
  · rw [hstate, hcalled.find? ha, if_neg (Ne.symm hsender)]
  · rw [hstate, hcalled.find? ha, if_pos rfl]
  · rw [hstate, replay_destructed]

section

attribute [local instance] Room.usual

/-- Address 2, which has no account, calls account 1, which calls account 3, which destructs itself. -/
theorem call_footprint_destructing :
    ∃ w' frames, (Host.call { gas := 50, destination := .ofNat 1, sender := .ofNat 2 }).run
          (.calling [0x60, 0, 0xff]) = .ok { gasLeft := 42, createAddress := .ofNat 1 } w' ∧
      w'.session.spawns = frames ∧ frames.map (·.callee) = [.ofNat 1, .ofNat 3] ∧
      w'.host.state.find? (.ofNat 2) = some { address := .ofNat 2 } ∧
      w'.host.state.destructed = [.ofNat 3] ∧
      ∀ a, a ∉ frames.map (·.callee) → a ≠ .ofNat 2 →
        w'.host.state.find? a = (World.calling [0x60, 0, 0xff]).host.state.find? a := by
  have hreturns : ((Host.call { gas := 50, destination := .ofNat 1, sender := .ofNat 2 }).on
      (.calling [0x60, 0, 0xff])).1 = .ok { gasLeft := 42, createAddress := .ofNat 1 } := by
    decide +kernel
  have h := Run.run_of_ok hreturns
  obtain ⟨frames, hframes, hsame, -⟩ :=
    call_footprint (Arena.Tidy.empty Host.baseKind) (by decide) h
  have hframes : _ = frames := hframes
  subst hframes
  exact ⟨_, _, h, rfl, by decide +kernel, by decide +kernel, by decide +kernel, hsame⟩

end

end ContractHost
