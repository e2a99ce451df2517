import ContractHost.Proofs.Arena.Seat
import ContractHost.Proofs.Execution.Steps

/-!
# Crossing the boundary

How the functions of the boundary change a session, whatever the arena holds: a question borrows a host,
and what its method did to the session stays. The arena never loses a slot, and a recorded error is
still recorded afterwards, unless the call that took it fails with it.

* `borrowing_refused`, `borrowing_granted`: a loan runs the program on the host behind the handle.
* `call_returns_room`: a call that returns has taken no slot that is without a handle.
-/

namespace ContractHost

variable {α : Type}

theorem borrowing_refused {handle : Handle} {session : Session} {e : ArenaError}
    (h : session.arena.resolve handle Host.baseKind = .error e) (program : Run α) :
    borrowing handle program session = (.error (.fatal (.arena e)), session) := by
  unfold borrowing
  rw [h]

/-- A loan that is granted runs the program on the host and puts the host's last form back. The end of
the loan can only turn a result into an error. -/
theorem borrowing_granted {handle : Handle} {session : Session} {loan : Loan Host}
    (h : session.arena.resolve handle Host.baseKind = .ok loan) {program : Run α}
    {result : Except Failure α} {w : World}
    (hprogram : program.on { host := loan.occupant.object, session } = (result, w)) :
    borrowing handle program session =
      (result.bind fun a =>
          ((w.session.arena.endLoan loan).mapError fun e => .fatal (.arena e)).map fun () => a,
        { w.session with arena := w.session.arena.update loan w.host }) := by
  unfold borrowing
  rw [h]
  cases result with
  | error failure => simp only [Run.on_eq_error_iff.1 hprogram, Except.bind]
  | ok a =>
    simp only [Run.on_eq_ok_iff.1 hprogram, Except.bind]
    cases w.session.arena.endLoan loan <;> rfl

/-- However a call ends, the arena is the one that it left, with the host's last form in its slot. -/
theorem dispatchCall_arena {call : Message → Run Outcome} {handle : Handle} {raw : RawMessage}
    {session : Session} {message : Message} {loan : Loan Host} {result : Except Failure Outcome}
    {w : World} (hraw : raw.toMessage = .ok message)
    (h : session.arena.resolve handle Host.baseKind = .ok loan)
    (hprogram : (call message).on { host := loan.occupant.object, session } = (result, w)) :
    (dispatchCall (.ofCall call) handle raw session).2.arena =
      w.session.arena.update loan w.host := by
  unfold dispatchCall
  simp only [hraw, Methods.ofCall, borrowing_granted h hprogram]
  generalize (Except.bind .. : Except Failure Outcome) = result
  cases result with
  | error failure => rfl
  | ok outcome =>
    simp only [Session.lend]
    cases int64? outcome.gasLeft <;> rfl

theorem Methods.run_on [Room] (methods : Methods) (kind : Kind) (code : Bytes) (message : Message)
    (w : World) :
    (methods.run kind code message).on w =
      match w.session.arena.insert kind w.host with
      | .error e => (.error (.fatal (.arena e)), w)
      | .ok (handle, arena) =>
        let (result, session) := execute methods handle code message { w.session with arena }
        match session.arena.reclaim handle kind with
        | .error e => (.error (.fatal (.arena e)), { w with session })
        | .ok (host, arena) => (result, { host, session := { session with arena } }) := by
  unfold Run.on EStateM.run Methods.run
  cases w.session.arena.insert kind w.host with
  | error e => rfl
  | ok taken =>
    obtain ⟨handle, arena⟩ := taken
    simp only
    generalize execute methods handle code message { w.session with arena } = r
    obtain ⟨result, session⟩ := r
    cases session.arena.reclaim handle kind with
    | error e => rfl
    | ok given => cases result <;> rfl

theorem run_on [Room] (call : Message → Run Outcome) (code : Bytes) (message : Message) (w : World) :
    (run call code message).on w =
      match w.session.arena.insert Host.kind w.host with
      | .error e => (.error (.fatal (.arena e)), w)
      | .ok (handle, arena) =>
        let (result, session) :=
          execute (.ofCall call) handle code message { w.session with arena }
        match session.arena.reclaim handle Host.kind with
        | .error e => (.error (.fatal (.arena e)), { w with session })
        | .ok (host, arena) => (result, { host, session := { session with arena } }) :=
  Methods.run_on (.ofCall call) Host.kind code message w

/-- Taking the host out again changes no number of slots. -/
theorem length_run [Room] {call : Message → Run Outcome} {code : Bytes} {message : Message} {w : World}
    {handle : Handle} {arena : Arena Host}
    (h : w.session.arena.insert Host.kind w.host = .ok (handle, arena)) :
    ((run call code message).on w).2.session.arena.slots.length =
      (execute (.ofCall call) handle code message
        { w.session with arena }).2.arena.slots.length := by
  simp only [run_on, h]
  generalize execute (.ofCall call) handle code message { w.session with arena } = r
  cases hr : r.2.arena.reclaim handle Host.kind with
  | error e => rfl
  | ok given => exact (Arena.reclaim_ok hr).1

theorem serve_of_not_call {methods : Methods} {handle : Handle} {q : Query} (session : Session)
    (hq : q.isCall = false) :
    serve methods handle q session =
      ((dispatchQuestion methods handle q session).1,
        (dispatchQuestion methods handle q session).2.log
          (q.told (dispatchQuestion methods handle q session).1)) := by
  cases q with
  | call => cases hq
  | _ => rfl

/-! ## Slots and the recorded error -/

/-- A later session of the same execution: no slot is lost, a recorded error stays recorded, and a slot
without a handle has left an error behind. -/
structure Session.Onward (a b : Session) : Prop where
  grows : a.arena.slots.length ≤ b.arena.slots.length
  pending : a.fatal.isSome → b.fatal.isSome
  room : a.arena.slots.length < Handle.places →
    b.arena.slots.length < Handle.places ∨ b.fatal.isSome

namespace Session.Onward

theorem refl (a : Session) : Onward a a := ⟨Nat.le_refl _, id, Or.inl⟩

theorem trans {a b c : Session} (hab : Onward a b) (hbc : Onward b c) : Onward a c := by
  refine ⟨Nat.le_trans hab.grows hbc.grows, fun h => hbc.pending (hab.pending h), fun h => ?_⟩
  rcases hab.room h with hb | hb
  · exact hbc.room hb
  · exact Or.inr (hbc.pending hb)

theorem of_same {a b : Session} (hlength : b.arena.slots.length = a.arena.slots.length)
    (hfatal : b.fatal = a.fatal) : Onward a b :=
  ⟨Nat.le_of_eq hlength.symm, fun h => hfatal ▸ h, fun h => Or.inl (hlength ▸ h)⟩

/-- After a failure only the slots count, since its error is recorded. -/
theorem of_record {a b : Session} (h : a.arena.slots.length ≤ b.arena.slots.length)
    (function : String) (failure : Failure) : Onward a (b.record function failure) := by
  have hfatal : (b.record function failure).fatal.isSome := by
    rw [record_fatal, Option.isSome_or]
    exact Bool.or_true _
  exact ⟨h, fun _ => hfatal, fun _ => Or.inr hfatal⟩

end Session.Onward

/-- A program whose failures lose no slot and whose returns lead onward. -/
structure Run.Onward (program : Run α) : Prop where
  grows : ∀ w, w.session.arena.slots.length ≤ (program.on w).2.session.arena.slots.length
  returns : ∀ {w w' : World} {a : α}, program.on w = (.ok a, w') → w.session.Onward w'.session

theorem Run.Onward.pure (a : α) : (pure a : Run α).Onward := by
  refine ⟨fun w => Nat.le_refl _, fun h => ?_⟩
  cases h
  exact .refl _

theorem dispatchQuestion_onward (call : Message → Run Outcome) (handle : Handle) (q : Query)
    (session : Session) :
    session.Onward (dispatchQuestion (.ofCall call) handle q session).2 := by
  unfold dispatchQuestion
  cases hresolve : session.arena.resolve handle Host.baseKind with
  | error e =>
    rw [borrowing_refused hresolve]
    exact .of_record (Nat.le_refl _) ..
  | ok loan =>
    have hprogram := stateAnswer_on q { host := loan.occupant.object, session }
    simp only [Methods.ofCall, borrowing_granted hresolve hprogram]
    generalize (Except.bind .. : Except Failure q.Answer) = result
    cases result with
    | error failure => exact .of_record (Nat.le_of_eq (Arena.length_update ..).symm) ..
    | ok answer => exact .of_same (Arena.length_update ..) rfl

theorem dispatchCall_onward {call : Message → Run Outcome} (hcall : ∀ m, (call m).Onward)
    (handle : Handle) (raw : RawMessage) (session : Session) :
    session.Onward (dispatchCall (.ofCall call) handle raw session).2 := by
  unfold dispatchCall
  cases raw.toMessage with
  | error cause => exact .of_record (Nat.le_refl _) ..
  | ok message =>
    cases hresolve : session.arena.resolve handle Host.baseKind with
    | error e =>
      simp only [Methods.ofCall, borrowing_refused hresolve]
      exact .of_record (Nat.le_refl _) ..
    | ok loan =>
      cases hprogram : (call message).on { host := loan.occupant.object, session } with
      | mk result w =>
        have hgrows : session.arena.slots.length ≤
            (w.session.arena.update loan w.host).slots.length := by
          have := (hcall message).grows { host := loan.occupant.object, session }
          rwa [hprogram, ← Arena.length_update w.session.arena loan w.host] at this
        simp only [Methods.ofCall, borrowing_granted hresolve hprogram]
        cases result with
        | error failure => exact .of_record hgrows ..
        | ok outcome =>
          have honward : session.Onward
              { w.session with arena := w.session.arena.update loan w.host } :=
            ((hcall message).returns hprogram).trans (.of_same (Arena.length_update ..) rfl)
          simp only [Except.bind]
          cases w.session.arena.endLoan loan with
          | error e => exact .of_record hgrows ..
          | ok =>
            simp only [mapError_ok, Except.map, Session.lend]
            cases int64? outcome.gasLeft with
            | none => exact .of_record hgrows ..
            | some gasLeft => exact honward.trans (.of_same rfl rfl)

theorem serve_onward {call : Message → Run Outcome} (hcall : ∀ m, (call m).Onward)
    (handle : Handle) (q : Query) (session : Session) :
    session.Onward (serve (.ofCall call) handle q session).2 := by
  rcases q.call_or_not with ⟨raw, rfl⟩ | hq
  · exact (dispatchCall_onward hcall handle raw session).trans (.of_same rfl rfl)
  · rw [serve_of_not_call session hq]
    exact (dispatchQuestion_onward call handle q session).trans (.of_same rfl rfl)

theorem execute_onward [Room] {call : Message → Run Outcome} (hcall : ∀ m, (call m).Onward)
    (handle : Handle) (code : Bytes) (message : Message) (session : Session) :
    session.arena.slots.length ≤
        (execute (.ofCall call) handle code message session).2.arena.slots.length ∧
      ∀ outcome, (execute (.ofCall call) handle code message session).1 = .ok outcome →
        session.Onward (execute (.ofCall call) handle code message session).2 ∧
          (execute (.ofCall call) handle code message session).2.fatal = none ∧
          handle.place ≠ 0 := by
  have htx := dispatchQuestion_onward call handle .txContext session
  have hplace : handle.place = 0 →
      (dispatchQuestion (.ofCall call) handle .txContext session).2.fatal.isSome := by
    intro h
    simp [dispatchQuestion, borrowing, Arena.resolve_of_place_zero h, Session.record]
  unfold execute
  simp only [dispatch, raiseFatal_eq]
  generalize (dispatchQuestion (.ofCall call) handle .txContext session).2 = s at htx hplace
  cases hs : s.fatal with
  | some e => exact ⟨htx.grows, fun _ h => by cases h⟩
  | none =>
    rw [hs] at hplace
    cases message.toRaw with
    | error cause => exact ⟨htx.grows, fun _ h => by cases h⟩
    | ok raw =>
      have hscript := (Interpreter.interpret message code).answerWith_rel Session.Onward.refl
        Session.Onward.trans (serve_onward hcall handle) { s with fatal := none }
      simp only [produce_eq]
      generalize (Interpreter.interpret message code).answerWith (serve (.ofCall call) handle)
        { s with fatal := none } = played at hscript
      have hclear : s.Onward { s with fatal := none } := .of_same rfl hs.symm
      have honward : session.Onward (played.2.conclude played.1) :=
        (htx.trans hclear).trans (hscript.trans (.of_same rfl rfl))
      cases hp : (played.2.conclude played.1).fatal with
      | some e => exact ⟨honward.grows, fun _ h => by cases h⟩
      | none =>
        exact ⟨honward.grows, fun _ _ =>
          ⟨honward.trans (.of_same rfl hp.symm), rfl, fun h => by simpa using hplace h⟩⟩

theorem run_onward [Room] {call : Message → Run Outcome} (hcall : ∀ m, (call m).Onward) (code : Bytes)
    (message : Message) :
    (run call code message).Onward ∧
      ∀ {w w' : World} {outcome : Outcome},
        (run call code message).on w = (.ok outcome, w') → w'.session.fatal = none := by
  have key : ∀ w, w.session.arena.slots.length ≤
      ((run call code message).on w).2.session.arena.slots.length ∧
      ∀ outcome, ((run call code message).on w).1 = .ok outcome →
        w.session.Onward ((run call code message).on w).2.session ∧
          ((run call code message).on w).2.session.fatal = none := by
    intro w
    cases hi : w.session.arena.insert Host.kind w.host with
    | error e => simp [run_on, hi]
    | ok taken =>
      obtain ⟨handle, arena⟩ := taken
      obtain ⟨-, -, hinsert⟩ := Arena.insert_ok hi
      obtain ⟨hgrows, hreturns⟩ :=
        execute_onward hcall handle code message { w.session with arena }
      refine ⟨length_run hi ▸ Nat.le_trans hinsert hgrows, fun outcome h => ?_⟩
      simp only [run_on, hi] at h ⊢
      generalize execute (.ofCall call) handle code message { w.session with arena } = r
        at hgrows hreturns h ⊢
      cases hr : r.2.arena.reclaim handle Host.kind with
      | error e =>
        rw [hr] at h
        cases h
      | ok given =>
        rw [hr] at h
        obtain ⟨honward, hfatal, hplace⟩ := hreturns outcome h
        -- the slot that fills the arena has a handle without a place, and no frame returns with one
        have hroom : w.session.arena.slots.length < Handle.places →
            arena.slots.length < Handle.places := fun h =>
          Nat.lt_of_not_le fun full => hplace (Arena.insert_full hi h full)
        have hentered : w.session.Onward { w.session with arena } :=
          ⟨hinsert, id, fun h => Or.inl (hroom h)⟩
        exact ⟨(hentered.trans honward).trans (.of_same (Arena.reclaim_ok hr).1 rfl), hfatal⟩
  refine ⟨⟨fun w => (key w).1, fun {w w' outcome} h => ?_⟩, fun {w w' outcome} h => ?_⟩
  · have := ((key w).2 outcome (by rw [h])).1
    rwa [h] at this
  · have := ((key w).2 outcome (by rw [h])).2
    rwa [h] at this

theorem callVia_onward {run : Bytes → Message → Run Outcome}
    (hrun : ∀ code message, (run code message).Onward) (message : Message) :
    (callVia run message).Onward := by
  refine ⟨fun w => ?_, fun {w w' outcome} h => ?_⟩
  · rw [callVia_on]
    cases w.host.state.start message with
    | error failure => exact Nat.le_refl _
    | ok start =>
      have hgrows := (hrun start.code start.message).grows ((w.resolve message).enter start)
      simp only
      generalize (run start.code start.message).on ((w.resolve message).enter start) = r at hgrows
      obtain ⟨result, v⟩ := r
      cases result with
      | error failure => exact hgrows
      | ok outcome =>
        simp only [((w.resolve message).adopt_session v start outcome).1]
        exact hgrows
  · obtain ⟨start, inner, v, -, hr, hadopt⟩ := callVia_returns h
    have hv : Session.Onward ((w.resolve message).enter start).session v.session :=
      (hrun start.code start.message).returns hr
    obtain ⟨harena, hfatal⟩ := (w.resolve message).adopt_session v start inner
    rw [hadopt] at harena hfatal
    have henter : w.session.Onward ((w.resolve message).enter start).session := .of_same rfl rfl
    exact (henter.trans hv).trans (.of_same (congrArg (·.slots.length) harena) hfatal)

theorem runWithin_onward [Room] (depth : Nat) (code : Bytes) (message : Message) :
    (runWithin depth code message).Onward := by
  induction depth generalizing code message with
  | zero => exact (run_onward (fun _ => .pure _) code message).1
  | succ depth ih => exact (run_onward (callVia_onward ih) code message).1

theorem runWithin_returns [Room] {depth : Nat} {code : Bytes} {message : Message} {w w' : World}
    {outcome : Outcome} (h : (runWithin depth code message).on w = (.ok outcome, w')) :
    w'.session.fatal = none := by
  cases depth with
  | zero => exact (run_onward (fun _ => .pure _) code message).2 h
  | succ depth => exact (run_onward (callVia_onward (runWithin_onward depth)) code message).2 h

/-- A call that returns leaves no recorded error. -/
theorem call_returns_fatal [Room] {message : Message} {w w' : World} {outcome : Outcome}
    (h : (Host.call message).on w = (.ok outcome, w')) : w'.session.fatal = none := by
  obtain ⟨start, inner, v, -, hrun, hadopt⟩ := callVia_returns h
  obtain ⟨-, hfatal⟩ := (w.resolve message).adopt_session v start inner
  rwa [hadopt, runWithin_returns hrun] at hfatal

/-- A call that returns leaves every slot with a handle, since a frame that gets a slot without one
fails. -/
theorem call_returns_room [Room] {message : Message} {w w' : World} {outcome : Outcome}
    (room : w.session.arena.slots.length < Handle.places)
    (h : (Host.call message).on w = (.ok outcome, w')) :
    w'.session.arena.slots.length < Handle.places := by
  rcases ((callVia_onward (runWithin_onward _) message).returns h).room room with hroom | hpending
  · exact hroom
  · rw [call_returns_fatal h] at hpending
    cases hpending

end ContractHost
