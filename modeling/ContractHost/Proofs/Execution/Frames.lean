import ContractHost.Proofs.Execution.Course

/-!
# The frames that a run starts

A session knows all frames that were started in it. A run only adds to them, whether it returns or
fails, and the questions of its interpreter are the only places where it can.

* `Session.Starts`: all frames that start between two sessions have a property.
* `run_starts`: a run starts frames only in serving the calls that its code asks for.
* `callVia_starts`: a call starts one frame, and then those of its run.
-/

namespace ContractHost

open Interpreter

/-- From one session to a later one only frames with a property start. -/
def Session.Starts (P : Spawn → Prop) (a b : Session) : Prop :=
  ∃ frames, b.spawns = a.spawns ++ frames ∧ ∀ frame ∈ frames, P frame

namespace Session.Starts

variable {P : Spawn → Prop} {a b c : Session}

theorem of_quiet (trace : List Event) (h : b.events = trace.reverse ++ a.events)
    (hnone : ContractHost.spawns trace = []) : a.Starts P b := by
  refine ⟨[], ?_, ?_⟩
  · rw [spawns_of_trace trace h, hnone]
  · intro frame hframe
    cases hframe

theorem of_events (h : b.events = a.events) : a.Starts P b := of_quiet [] h rfl

theorem refl (a : Session) : a.Starts P a := of_events rfl

theorem trans (h : a.Starts P b) (h' : b.Starts P c) : a.Starts P c := by
  obtain ⟨first, hfirst, hall⟩ := h
  obtain ⟨second, hsecond, hall'⟩ := h'
  refine ⟨first ++ second, ?_, ?_⟩
  · rw [hsecond, hfirst, List.append_assoc]
  · intro frame hframe
    rcases List.mem_append.1 hframe with h | h
    · exact hall frame h
    · exact hall' frame h

theorem record (a : Session) (function : String) (failure : Failure) :
    a.Starts P (a.record function failure) :=
  of_quiet [.failed function (failure.recorded function)] rfl rfl

theorem conclude (a : Session) (ending : Ending) : a.Starts P (a.conclude ending) := by
  refine of_quiet ending.crash ?_ ?_
  · cases ending <;> rfl
  · cases ending <;> rfl

theorem told (a : Session) (q : Query) (answer : q.Answer) : a.Starts P (a.log (q.told answer)) := by
  refine of_quiet (q.told answer) rfl ?_
  cases q <;> rfl

end Session.Starts

/-! ## A host's boundary -/

section Boundary

variable {P : Spawn → Prop} {call : Message → Run Outcome}

/-- A loan of the host starts what its program starts. -/
theorem borrowing_starts {α : Type} {program : Run α} {handle : Handle} {session : Session}
    (h : ∀ host, session.Starts P (program.on { host, session }).2.session) :
    session.Starts P (borrowing handle program session).2 := by
  cases hresolve : session.arena.resolve handle Host.baseKind with
  | error e =>
    rw [borrowing_refused hresolve]
    exact .refl _
  | ok loan =>
    cases hprogram : program.on { host := loan.occupant.object, session } with
    | mk result w =>
      have hw := h loan.occupant.object
      rw [hprogram] at hw
      rw [borrowing_granted hresolve hprogram]
      exact hw.trans (.of_events rfl)

theorem dispatchQuestion_starts (handle : Handle) (q : Query) (session : Session) :
    session.Starts P (dispatchQuestion (.ofCall call) handle q session).2 := by
  have hborrow : session.Starts P
      (borrowing handle ((Methods.ofCall call).answer q) session).2 := by
    refine borrowing_starts fun host => ?_
    rw [Methods.ofCall, stateAnswer_on]
    exact .refl _
  unfold dispatchQuestion
  generalize borrowing handle ((Methods.ofCall call).answer q) session = r at hborrow
  obtain ⟨result, session'⟩ := r
  cases result with
  | error failure => exact hborrow.trans (.record ..)
  | ok answer => exact hborrow.trans (.of_quiet [.answered q answer] rfl rfl)

theorem dispatchCall_starts {handle : Handle} {raw : RawMessage} {session : Session}
    (h : ∀ nested, raw.toMessage = .ok nested →
      ∀ host, session.Starts P ((call nested).on { host, session }).2.session) :
    session.Starts P (dispatchCall (.ofCall call) handle raw session).2 := by
  unfold dispatchCall
  cases hraw : raw.toMessage with
  | error cause => exact .record ..
  | ok nested =>
    have hborrow : session.Starts P
        (borrowing handle ((Methods.ofCall call).call nested) session).2 :=
      borrowing_starts (h nested hraw)
    simp only
    generalize borrowing handle ((Methods.ofCall call).call nested) session = r at hborrow
    obtain ⟨result, session'⟩ := r
    cases result with
    | error failure => exact hborrow.trans (.record ..)
    | ok outcome =>
      simp only [Session.lend]
      cases int64? outcome.gasLeft with
      | none => exact hborrow.trans (.record ..)
      | some gasLeft => exact hborrow.trans (.of_events rfl)

theorem serve_starts {handle : Handle} {q : Query} {session : Session}
    (h : ∀ raw nested, q = .call raw → raw.toMessage = .ok nested →
      ∀ host, session.Starts P ((call nested).on { host, session }).2.session) :
    session.Starts P (serve (.ofCall call) handle q session).2 := by
  rcases q.call_or_not with ⟨raw, rfl⟩ | hq
  · exact (dispatchCall_starts fun nested => h raw nested rfl).trans (.of_events rfl)
  · rw [serve_of_not_call session hq]
    exact (dispatchQuestion_starts handle q session).trans (.told ..)

end Boundary

/-! ## Runs and calls -/

section

variable {P : Spawn → Prop} {asks : Query → Prop} {ends : Ending → Prop}
  {call : Message → Run Outcome} {code : Bytes} {message : Message}

theorem execute_starts [Room] (hscript : (interpret message code).Obeys asks ends)
    (hcall : ∀ raw nested, asks (.call raw) → raw.toMessage = .ok nested →
      ∀ w : World, w.session.Starts P ((call nested).on w).2.session)
    (handle : Handle) (session : Session) :
    session.Starts P (execute (.ofCall call) handle code message session).2 := by
  have htx : session.Starts P (dispatchQuestion (.ofCall call) handle .txContext session).2 :=
    dispatchQuestion_starts handle .txContext session
  unfold execute
  simp only [dispatch, raiseFatal_eq]
  generalize (dispatchQuestion (.ofCall call) handle .txContext session).2 = s at htx
  have hclear : session.Starts P { s with fatal := none } := htx.trans (.of_events rfl)
  cases s.fatal with
  | some e => exact hclear
  | none =>
    cases message.toRaw with
    | error cause => exact hclear
    | ok raw =>
      have hserve (q : Query) (s : Session) (hasks : asks q) :
          s.Starts P (serve (.ofCall call) handle q s).2 := by
        refine serve_starts fun raw nested hraw hnested host => ?_
        subst hraw
        exact hcall raw nested hasks hnested { host, session := s }
      obtain ⟨hplayed, -⟩ := hscript.answerWith (R := Session.Starts P) .refl .trans hserve
        { s with fatal := none }
      simp only [produce_eq]
      generalize (interpret message code).answerWith (serve (.ofCall call) handle)
        { s with fatal := none } = played at hplayed
      have hend := (hclear.trans hplayed).trans (.conclude played.2 played.1)
      cases (played.2.conclude played.1).fatal <;> exact hend.trans (.of_events rfl)

/-- A run starts the frames that the calls start which its code asks for, and no others. -/
theorem run_starts [Room] (hscript : (interpret message code).Obeys asks ends)
    (hcall : ∀ raw nested, asks (.call raw) → raw.toMessage = .ok nested →
      ∀ w : World, w.session.Starts P ((call nested).on w).2.session) (w : World) :
    w.session.Starts P ((run call code message).on w).2.session := by
  rw [run_on]
  cases w.session.arena.insert Host.kind w.host with
  | error e => exact .refl _
  | ok taken =>
    obtain ⟨handle, arena⟩ := taken
    have hexecute := execute_starts hscript hcall handle { w.session with arena }
    have hinsert : w.session.Starts P { w.session with arena } := .of_events rfl
    simp only
    generalize execute (.ofCall call) handle code message { w.session with arena } = r at hexecute
    obtain ⟨result, s⟩ := r
    have hrun := hinsert.trans hexecute
    cases s.arena.reclaim handle Host.kind with
    | error e => exact hrun
    | ok given => exact hrun.trans (.of_events rfl)

end

theorem World.resolve_spawns (w : World) (message : Message) :
    (w.resolve message).session.spawns = w.session.spawns := by
  have hresolve : (w.resolve message).session.spawns = w.session.spawns ++ [] := by
    rw [← w.host.state.spawns_resolution message]
    exact Session.spawns_of_trace _ rfl
  rw [hresolve, List.append_nil]

theorem World.enter_spawns (w : World) (start : Start) :
    (w.enter start).session.spawns = w.session.spawns ++ [w.spawn start] :=
  Session.spawns_of_trace [.spawned (w.spawn start)] rfl

theorem World.adopt_starts {P : Spawn → Prop} (w v : World) (start : Start) (outcome : Outcome) :
    v.session.Starts P (w.adopt start outcome v).2.session := by
  have hdeployed : v.session.Starts P (v.session.log (start.deployment outcome)) :=
    .of_quiet _ rfl (start.spawns_deployment outcome)
  unfold World.adopt
  simp only
  cases w.host.state.merge (v.host.state.withCode start outcome) with
  | error e => exact hdeployed
  | ok state => exact hdeployed.trans (.of_quiet [.finished _ _ _] rfl rfl)

theorem callVia_starts_none {run : Bytes → Message → Run Outcome} {message : Message} {w : World}
    {failure : Failure} (h : w.host.state.start message = .error failure) :
    ((callVia run message).on w).2.session.spawns = w.session.spawns := by
  rw [callVia_on, h]
  exact w.resolve_spawns message

/-- A call that starts a frame starts the frames of its run after it. -/
theorem callVia_starts {P : Spawn → Prop} {run : Bytes → Message → Run Outcome}
    {message : Message} {w : World} {start : Start} (h : w.host.state.start message = .ok start)
    (hrun : ((w.resolve message).enter start).session.Starts P
      ((run start.code start.message).on ((w.resolve message).enter start)).2.session) :
    ∃ frames, ((callVia run message).on w).2.session.spawns =
        w.session.spawns ++ (w.resolve message).spawn start :: frames ∧
      ∀ frame ∈ frames, P frame := by
  have hlater : ((w.resolve message).enter start).session.Starts P
      ((callVia run message).on w).2.session := by
    rw [callVia_on, h]
    simp only
    generalize (run start.code start.message).on ((w.resolve message).enter start) = r at hrun
    obtain ⟨result, v⟩ := r
    cases result with
    | error failure => exact hrun
    | ok outcome => exact hrun.trans (World.adopt_starts ..)
  obtain ⟨frames, hframes, hP⟩ := hlater
  refine ⟨frames, ?_, hP⟩
  rw [hframes, World.enter_spawns, World.resolve_spawns, List.append_assoc]
  rfl

end ContractHost
