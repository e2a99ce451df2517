import ContractHost.Proofs.Creations

/-!
# Where code comes from

An account is given code in one place only: a creation has succeeded, its nested frame is over, and its
output becomes the code of its callee before the frame is adopted. The frames of a call may create at
one address more than once, from within each other and while others fail, but each of them finishes
right after it has given its code. So the code of an account after a call is the output of the last
creation at its address that finished with success, and without such a creation it is what it was.

* `Finish`, `finishes`: how the frames among events ended.
* `Credited`: each assignment of code belongs to a creation that has just succeeded.
* `Course.code`, `Course.credited`: the code of an account in the course of a frame.
* `call_code_provenance`: the code of the accounts that are there after a call.
-/

namespace ContractHost

/-- The end of a frame that was adopted. -/
structure Finish where
  kind : CallKind
  callee : Address
  outcome : Outcome

/-- The frame that an event finishes. -/
def Event.finished? : Event → Option Finish
  | .finished kind callee outcome => some { kind, callee, outcome }
  | _ => none

/-- The frames that are finished among events, in this order. -/
def finishes (trace : List Event) : List Finish := trace.filterMap Event.finished?

/-- What the creations at an address that succeeded put out, in the order in which they finished. -/
def codes (a : Address) (trace : List Event) : List Bytes :=
  ((finishes trace).filter fun f => f.kind.isCreate ∧ f.callee = a ∧ f.outcome.isSuccess).map
    (·.outcome.output)

/-- Whether an event gives code to an account. -/
def Event.deploys : Event → Bool
  | .deployed .. => true
  | _ => false

/-- Events among which each assignment of code is followed at once by the end of the creation that it
belongs to, which succeeded with this code. -/
inductive Credited : List Event → Prop
  | nil : Credited []
  | other {event : Event} {rest : List Event} (h : event.deploys = false) (later : Credited rest) :
      Credited (event :: rest)
  | creation {kind : CallKind} {callee : Address} {outcome : Outcome} {rest : List Event}
      (creates : kind.isCreate) (succeeds : outcome.isSuccess) (later : Credited rest) :
      Credited (.deployed callee outcome.output :: .finished kind callee outcome :: rest)

theorem finishes_append (first second : List Event) :
    finishes (first ++ second) = finishes first ++ finishes second := List.filterMap_append ..

theorem codes_append (a : Address) (first second : List Event) :
    codes a (first ++ second) = codes a first ++ codes a second := by
  unfold codes
  rw [finishes_append, List.filter_append, List.map_append]

namespace Credited

variable {first second trace : List Event}

theorem append (h : Credited first) (h' : Credited second) : Credited (first ++ second) := by
  induction h with
  | nil => exact h'
  | other hother _ ih => exact .other hother ih
  | creation hcreates hsucceeds _ ih => exact .creation hcreates hsucceeds ih

theorem of_others (h : ∀ event ∈ trace, event.deploys = false) : Credited trace := by
  induction trace with
  | nil => exact .nil
  | cons event rest ih =>
    exact .other (h event List.mem_cons_self) (ih fun e he => h e (List.mem_cons_of_mem event he))

/-- What follows an assignment of code. -/
theorem follows (h : Credited trace) {before after : List Event} {callee : Address} {code : Bytes}
    (htrace : trace = before ++ .deployed callee code :: after) :
    ∃ kind outcome rest, after = .finished kind callee outcome :: rest ∧ kind.isCreate ∧
      outcome.isSuccess ∧ outcome.output = code := by
  induction h generalizing before with
  | nil => simp at htrace
  | other hother _ ih =>
    cases before with
    | nil =>
      cases htrace
      cases hother
    | cons event before =>
      rw [List.cons_append, List.cons.injEq] at htrace
      exact ih htrace.2
  | @creation kind _ outcome rest hcreates hsucceeds _ ih =>
    cases before with
    | nil =>
      cases htrace
      exact ⟨kind, outcome, rest, rfl, hcreates, hsucceeds, rfl⟩
    | cons event before =>
      rw [List.cons_append, List.cons.injEq] at htrace
      -- the assignment that is looked for comes after the end of this creation
      cases before with
      | nil => cases htrace.2
      | cons event before =>
        rw [List.cons_append, List.cons.injEq] at htrace
        exact ih htrace.2.2

end Credited

/-! ## The code of an account in a course -/

theorem HostState.code_writeSlot (account : Account) (key value : Bytes32) :
    (writeSlot account key value).2.code = account.code := by
  rcases writeSlot_cases account key value with hwrite | ⟨-, hwrite⟩ | ⟨old, slot, -, -, hwrite⟩
  all_goals rw [hwrite]

theorem Event.change_code {event : Event} (h : event.deploys = false) (account : Account) :
    (event.change account).code = account.code := by
  cases event with
  | deployed => cases h
  | answered q answer =>
    cases q with
    | setStorage address key value => exact HostState.code_writeSlot account key value
    | _ => rfl
  | _ => rfl

theorem Event.code_effect {event : Event} {a : Address} (hkept : event.destructed? ≠ some a)
    (h : event.deploys = false) (s : HostState) :
    ((event.effect s).account a).code = (s.account a).code := by
  rw [Event.account_effect hkept]
  split
  · exact Event.change_code h _
  · rfl

theorem HostState.code_deploy (s : HostState) (callee a : Address) (code : Bytes) :
    ((s.deploy callee code).account a).code =
      if callee = a then some code else (s.account a).code := by
  unfold deploy account
  rw [find?_modify]
  split <;> rfl

theorem HostState.code_resolveCallee {s : HostState} {message : Message} {start : Start}
    (h : s.start message = .ok start) (a : Address) :
    ((s.resolveCallee message).2.account a).code = (s.account a).code := by
  rw [account, find?_resolveCallee h]
  split
  · rw [Option.getD_some]
    split <;> rfl
  · rfl

theorem HostState.resolution_deploys (s : HostState) (message : Message) :
    ∀ event ∈ s.resolution message, event.deploys = false := by
  intro event hevent
  unfold resolution at hevent
  rcases List.mem_cons.1 hevent with rfl | hevent
  · rfl
  · split at hevent
    · rw [List.mem_singleton.1 hevent]
      rfl
    · cases hevent

theorem HostState.finishes_course (s : HostState) (message : Message) (start : Start)
    (inner : List Event) (outcome : Outcome) :
    finishes (s.course message start inner outcome) =
      finishes inner ++ [{ kind := start.message.kind, callee := start.callee
                           outcome := { outcome with createAddress := start.callee } }] := by
  have hresolution : finishes (s.resolution message) = [] := by
    unfold resolution
    split <;> rfl
  have hdeployment : finishes (start.deployment outcome) = [] := by
    unfold Start.deployment
    split <;> rfl
  unfold course
  rw [finishes_append, hresolution, List.nil_append]
  show finishes (inner ++ start.deployment outcome ++ [_]) = _
  rw [finishes_append, finishes_append, hdeployment, List.append_nil]
  rfl

theorem HostState.codes_course (s : HostState) (message : Message) (start : Start)
    (inner : List Event) (outcome : Outcome) (a : Address) :
    codes a (s.course message start inner outcome) =
      codes a inner ++
        if start.message.kind.isCreate ∧ start.callee = a ∧ outcome.isSuccess then
          [outcome.output] else [] := by
  unfold codes
  rw [finishes_course, List.filter_append, List.map_append]
  congr 1
  have hsuccess : Outcome.isSuccess { outcome with createAddress := start.callee } =
      outcome.isSuccess := rfl
  by_cases h : start.message.kind.isCreate ∧ start.callee = a ∧ outcome.isSuccess
  · rw [if_pos h, List.filter_cons_of_pos (by simpa [hsuccess] using h)]
    rfl
  · rw [if_neg h, List.filter_cons_of_neg (by simpa [hsuccess] using h)]
    rfl

/-- The end of a creation that succeeded gives its callee code, and no other end gives any. -/
theorem Start.code_deployment (start : Start) (outcome : Outcome) (s : HostState) (a : Address) :
    ((replay (start.deployment outcome) s).account a).code =
      if start.message.kind.isCreate ∧ start.callee = a ∧ outcome.isSuccess then
        some outcome.output else (s.account a).code := by
  unfold deployment
  by_cases h : outcome.isSuccess && start.message.kind.isCreate
  · rw [if_pos h]
    rw [Bool.and_eq_true] at h
    refine (s.code_deploy start.callee a outcome.output).trans ?_
    simp only [h.1, h.2, true_and, and_true]
  · rw [if_neg h, if_neg]
    · rfl
    · rintro ⟨hcreates, -, hsuccess⟩
      exact h (by rw [hsuccess, hcreates]; rfl)

/-- What the codes in the nested frame of a call tell, those in the call tell. -/
theorem HostState.code_course {s : HostState} {message : Message} {start : Start}
    (h : s.start message = .ok start) {a : Address} {inner : List Event} (outcome : Outcome)
    (hinner : ((replay inner (s.enter message start)).account a).code =
      (codes a inner).getLast?.or ((s.enter message start).account a).code) :
    ((replay (s.course message start inner outcome) s).account a).code =
      (codes a (s.course message start inner outcome)).getLast?.or (s.account a).code := by
  have hentered : ((s.enter message start).account a).code = (s.account a).code :=
    code_resolveCallee h a
  have hnested : (replay inner (s.enter message start)).account a =
      (replay inner (s.resolveCallee message).2).account a := by
    rw [enter, replay_clone]
    rfl
  rw [hnested, hentered] at hinner
  rw [replay_course, start.code_deployment, hinner, codes_course, List.getLast?_append]
  split <;> rfl

/-- The code of an account, which none of a frame's events destructs, is the last one among the outputs
of the creations at its address that succeeded, or else the code that it had. -/
theorem Course.code {message : Message} {s : HostState} {trace : List Event}
    (h : Course message s trace) {a : Address} (hkept : ∀ e ∈ trace, e.destructed? ≠ some a) :
    ((replay trace s).account a).code = (codes a trace).getLast?.or (s.account a).code := by
  induction h with
  | nil => rfl
  | @event message s event rest sees later ih =>
    have hrest := ih fun e he => hkept e (List.mem_cons_of_mem event he)
    have hevent : event.deploys = false ∧ event.finished? = none := by
      cases event with
      | deployed | finished => exact sees.elim
      | _ => exact ⟨rfl, rfl⟩
    have hcodes : codes a (event :: rest) = codes a rest := by
      unfold codes finishes
      rw [List.filterMap_cons_none hevent.2]
    rw [replay_cons, hcodes, hrest, Event.code_effect (hkept event List.mem_cons_self) hevent.1]
  | @call message nested s start inner rest outcome begets starts frame later ihframe ihlater =>
    have hinner := ihframe fun e he => hkept e (by simp [HostState.course, HostState.visit, he])
    have hrest := ihlater fun e he => hkept e (List.mem_append_right _ he)
    rw [replay_append, hrest, HostState.code_course starts outcome hinner, codes_append,
      List.getLast?_append, Option.or_assoc]

theorem HostState.course_credited {inner : List Event} (h : Credited inner) (s : HostState)
    (message : Message) (start : Start) (outcome : Outcome) :
    Credited (s.course message start inner outcome) := by
  have hend : Credited (start.deployment outcome ++ [.finished start.message.kind start.callee
      { outcome with createAddress := start.callee }]) := by
    unfold Start.deployment
    split
    · rename_i hmakes
      rw [Bool.and_eq_true] at hmakes
      exact @Credited.creation start.message.kind start.callee
        { outcome with createAddress := start.callee } [] hmakes.2 hmakes.1 .nil
    · exact .other rfl .nil
  unfold course visit
  rw [List.append_assoc inner]
  exact (Credited.of_others (s.resolution_deploys message)).append (.other rfl (h.append hend))

/-- Whatever is given code in a frame, a creation that succeeded gives it. -/
theorem Course.credited {message : Message} {s : HostState} {trace : List Event}
    (h : Course message s trace) : Credited trace := by
  induction h with
  | nil => exact .nil
  | @event message s event rest sees later ih =>
    refine .other ?_ ih
    cases event with
    | deployed => exact sees.elim
    | _ => rfl
  | call _ _ _ _ ihframe ihlater => exact (HostState.course_credited ihframe ..).append ihlater

/-- Each frame that starts in the course of a frame is finished in it. -/
theorem HostState.finishes_perm_spawns {inner : List Event}
    (h : ((finishes inner).map fun f => (f.kind, f.callee)).Perm
      ((spawns inner).map fun f => (f.kind, f.callee)))
    (s : HostState) (message : Message) (start : Start) (outcome : Outcome) :
    ((finishes (s.course message start inner outcome)).map fun f => (f.kind, f.callee)).Perm
      ((spawns (s.course message start inner outcome)).map fun f => (f.kind, f.callee)) := by
  rw [finishes_course, spawns_course, List.map_append, List.map_cons]
  exact (List.perm_append_singleton ..).trans (h.cons _)

theorem Course.finishes_perm {message : Message} {s : HostState} {trace : List Event}
    (h : Course message s trace) :
    ((finishes trace).map fun f => (f.kind, f.callee)).Perm
      ((spawns trace).map fun f => (f.kind, f.callee)) := by
  induction h with
  | nil => exact .nil
  | @event message s event rest sees later ih =>
    have hfinished : event.finished? = none := by
      cases event with
      | finished => exact sees.elim
      | _ => rfl
    unfold finishes spawns
    rw [List.filterMap_cons_none hfinished, List.filterMap_cons_none sees.spawned?]
    exact ih
  | @call message nested s start inner rest outcome begets starts frame later ihframe ihlater =>
    rw [finishes_append, spawns_append, List.map_append, List.map_append]
    exact (HostState.finishes_perm_spawns ihframe ..).append ihlater

/-! ## The code of an account after a call -/

theorem Called.code {message : Message} {s : HostState} {trace : List Event}
    (h : Called message s trace) {a : Address} (hkept : ∀ e ∈ trace, e.destructed? ≠ some a) :
    ((replay trace s).account a).code = (codes a trace).getLast?.or (s.account a).code := by
  obtain ⟨start, inner, outcome, hstart, hcourse, rfl⟩ := h
  have hinner := hcourse.code fun e he =>
    hkept e (by simp [HostState.course, HostState.visit, he])
  exact HostState.code_course hstart outcome hinner

theorem Called.credited {message : Message} {s : HostState} {trace : List Event}
    (h : Called message s trace) : Credited trace := by
  obtain ⟨start, inner, outcome, -, hcourse, rfl⟩ := h
  exact HostState.course_credited hcourse.credited ..

theorem Called.finishes_perm {message : Message} {s : HostState} {trace : List Event}
    (h : Called message s trace) :
    ((finishes trace).map fun f => (f.kind, f.callee)).Perm
      ((spawns trace).map fun f => (f.kind, f.callee)) := by
  obtain ⟨start, inner, outcome, -, hcourse, rfl⟩ := h
  exact HostState.finishes_perm_spawns hcourse.finishes_perm ..

theorem HostState.code_account (s : HostState) (a : Address) :
    (s.account a).code = (s.find? a).bind (·.code) := by
  unfold account
  cases s.find? a <;> rfl

/-- An event that changes the code of an account destructs it, or gives it code. -/
theorem Event.deployed_of_code {event : Event} {a : Address} {s : HostState}
    (hkept : event.destructed? ≠ some a)
    (h : ((event.effect s).account a).code ≠ (s.account a).code) :
    ∃ code, event = .deployed a code := by
  by_cases hdeploys : event.deploys = false
  · exact absurd (Event.code_effect hkept hdeploys s) h
  · cases event with
    | deployed callee code =>
      have hdeployed := s.code_deploy callee a code
      change ((s.deploy callee code).account a).code ≠ _ at h
      rw [hdeployed] at h
      by_cases ha : callee = a
      · exact ⟨code, by rw [ha]⟩
      · rw [if_neg ha] at h
        exact absurd rfl h
    | _ => exact absurd rfl hdeploys

theorem HostState.start_salted {s : HostState} {message : Message} {start : Start}
    (h : s.start message = .ok start) (hkind : message.kind = .create2) :
    start.callee = Derivation.createSalted message.sender message.salt message.input := by
  have hcallee := start_callee h
  unfold resolveCallee at hcallee
  rw [hkind] at hcallee
  exact (Except.ok.inj hcallee).symm

/-- A creation that returns and succeeded leaves its output as the code of its callee. -/
theorem call_returns_code [Room] {message : Message} {w w' : World} {outcome : Outcome}
    (h : (Host.call message).on w = (.ok outcome, w')) (creates : message.kind.isCreate)
    (succeeds : outcome.isSuccess) :
    (w'.host.state.find? outcome.createAddress).bind (·.code) = some outcome.output := by
  obtain ⟨start, inner, v, hstart, -, hadopt⟩ := callVia_returns h
  obtain ⟨-, rfl, rfl⟩ := World.adopt_ok hadopt
  have hsuccess : inner.isSuccess := succeeds
  have hcreates : start.message.kind.isCreate := by
    rw [HostState.start_message hstart]
    exact creates
  rw [← HostState.code_account]
  show ((v.host.state.withCode start inner).account start.callee).code = some inner.output
  unfold HostState.withCode
  rw [hsuccess, hcreates]
  exact (HostState.code_deploy ..).trans (if_pos rfl)

/-- The code of an account that is there after a call that returns is the output of the last creation at
its address that finished with success in the call, at whatever depth, and without one it is the code
that the account had before. All frames that start are finished. Code changes only where an account is
destructed or where a creation at its address has just succeeded, so a creation that does not succeed
gives its callee none. The address of a creation is derived from its sender with the sender's count
before the call, or with the salt and the code of the message; and if it succeeds its output is the code
there. -/
theorem call_code_provenance [Room] {message : Message} {w w' : World} {outcome : Outcome}
    (tidy : w.session.arena.Tidy) (room : w.session.arena.slots.length < Handle.places)
    (h : (Host.call message).run w = .ok outcome w') :
    let s := w.host.state
    let s' := w'.host.state
    (∃ trace, w'.session.events = trace.reverse ++ w.session.events ∧ s' = replay trace s ∧
      ((finishes trace).map fun f => (f.kind, f.callee)).Perm
        ((spawns trace).map fun f => (f.kind, f.callee)) ∧
      (∀ a account, s'.find? a = some account →
        account.code = (codes a trace).getLast?.or ((s.find? a).bind (·.code))) ∧
      ∀ before event after a, trace = before ++ event :: after → event.destructed? ≠ some a →
        ((event.effect (replay before s)).account a).code ≠ ((replay before s).account a).code →
        ∃ kind ended rest, event = .deployed a ended.output ∧
          after = .finished kind a ended :: rest ∧ kind.isCreate ∧ ended.isSuccess) ∧
    (message.kind = .create →
      Derivation.create message.sender (s.account message.sender).nonce = .ok outcome.createAddress) ∧
    (message.kind = .create2 →
      outcome.createAddress =
        Derivation.createSalted message.sender message.salt message.input) ∧
    (message.kind.isCreate → outcome.isSuccess →
      (s'.find? outcome.createAddress).bind (·.code) = some outcome.output) := by
  intro s s'
  have hon := Run.on_eq_ok_iff.2 h
  obtain ⟨trace, hreplays, hcalled⟩ := call_returns_called tidy room hon
  obtain ⟨start, inner, v, hstart, -, hadopt⟩ := callVia_returns hon
  have haddress : outcome.createAddress = start.callee := by
    obtain ⟨-, rfl, -⟩ := World.adopt_ok hadopt
    rfl
  refine ⟨⟨trace, hreplays.events, hreplays.state, hcalled.finishes_perm, ?_, ?_⟩, ?_, ?_,
    call_returns_code hon⟩
  · intro a account hfind
    have hcode := hcalled.code (hreplays.not_destructed hon hfind)
    rw [← hreplays.state, HostState.code_account, HostState.code_account, hfind] at hcode
    exact hcode
  · intro before event after a htrace hkept hchanged
    obtain ⟨code, rfl⟩ := Event.deployed_of_code hkept hchanged
    obtain ⟨kind, ended, rest, hafter, hcreates, hsucceeds, rfl⟩ := hcalled.credited.follows htrace
    exact ⟨kind, ended, rest, rfl, hafter, hcreates, hsucceeds⟩
  · intro hplain
    rw [haddress]
    exact HostState.start_derived hstart hplain
  · intro hsalted
    rw [haddress]
    exact HostState.start_salted hstart hsalted

section

attribute [local instance] Room.usual

/-- A creation whose code puts out one byte, which is the code at the derived address afterwards. -/
theorem call_code_provenance_creating :
    ∃ outcome w', (Host.call { kind := .create, gas := 50, sender := .ofNat 1
                               input := [0x60, 0x2a, 0x60, 0, 0x52, 0x60, 1, 0x60, 31, 0xf3] }).run
        (.calling []) = .ok outcome w' ∧
      Derivation.create (.ofNat 1) 0 = .ok outcome.createAddress ∧
      (w'.host.state.find? outcome.createAddress).bind (·.code) = some [0x2a] := by
  have hreturns : (((Host.call { kind := .create, gas := 50, sender := .ofNat 1
                                 input := [0x60, 0x2a, 0x60, 0, 0x52, 0x60, 1, 0x60, 31, 0xf3] }).on
      (.calling [])).1).map (fun outcome => (outcome.status, outcome.output)) =
        .ok (.success, [0x2a]) := by
    decide +kernel
  generalize hrun : (Host.call _).on (World.calling []) = r at hreturns
  obtain ⟨result, w'⟩ := r
  cases result with
  | error failure => cases hreturns
  | ok outcome =>
    obtain ⟨hstatus, houtput⟩ := Prod.mk.inj (Except.ok.inj hreturns)
    have h := Run.on_eq_ok_iff.1 hrun
    obtain ⟨-, hderived, -, hcode⟩ :=
      call_code_provenance (Arena.Tidy.empty Host.baseKind) (by decide) h
    rw [houtput] at hcode
    exact ⟨outcome, w', h, hderived rfl, hcode rfl (decide_eq_true hstatus)⟩

end

end ContractHost
