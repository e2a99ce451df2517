import ContractHost.Proofs.Arena.Restored
import ContractHost.Proofs.Execution.Direct

/-!
# Nothing leaks

A run of code takes a host into the arena and lends outputs across the boundary. Once it is over, the
arena holds what it held before, no output is out that was not out before, and no handle given out in
between works any more; also if the run fails, however deep its frames were nested.

What every part of a run keeps is `Session.Settles`. It can be composed, so it is shown for each
function of the boundary once, and nested frames follow by induction on how deep they nest.

* `Session.Settles`, `Run.Settles`: the session is settled again in the end.
* `Methods.run_settles`, `callVia_settles`: a run, and a call.
* `nothing_leaks`: the sessions before and after.
-/

namespace ContractHost

open Interpreter

variable {α : Type}

/-! ## Settled sessions -/

/-- The arena of a later session is put back, and the same outputs are out. -/
structure Session.Settled (a b : Session) : Prop where
  arena : a.arena.Restores b.arena
  lent : b.lent.out = a.lent.out
  produced : b.produced.out = a.produced.out

/-- A later session is settled if its slots have handles. It never has fewer slots. -/
structure Session.Settles (a b : Session) : Prop where
  grows : a.arena.slots.length ≤ b.arena.slots.length
  settled : a.arena.Tidy → b.arena.slots.length < Handle.places → a.Settled b

/-- A program after which the session is settled, whether it returns or fails. -/
def Run.Settles (program : Run α) : Prop :=
  ∀ w : World, w.session.Settles (program.on w).2.session

/-- A host whose methods settle what they begin. -/
structure Methods.Settle (methods : Methods) : Prop where
  answer : ∀ q, (methods.answer q).Settles
  call : ∀ message, (methods.call message).Settles

/-- What is given back at once has not been out. -/
theorem Lending.out_lend (lending : Lending) (output : Bytes) :
    ((lending.lend output).2.giveBack (lending.lend output).1).out = lending.out := by
  unfold lend
  split
  · rfl
  · simp [giveBack]

namespace Session.Settles

theorem of_same {a b : Session} (harena : b.arena = a.arena) (hlent : b.lent.out = a.lent.out)
    (hproduced : b.produced.out = a.produced.out) : a.Settles b where
  grows := Nat.le_of_eq (harena ▸ rfl)
  settled tidy _ := by
    refine ⟨?_, hlent, hproduced⟩
    rw [harena]
    exact .refl tidy

theorem refl (a : Session) : a.Settles a := of_same rfl rfl rfl

theorem trans {a b c : Session} (hab : a.Settles b) (hbc : b.Settles c) : a.Settles c := by
  refine ⟨Nat.le_trans hab.grows hbc.grows, fun tidy room => ?_⟩
  have hb := hab.settled tidy (Nat.lt_of_le_of_lt hbc.grows room)
  have hc := hbc.settled hb.arena.tidy room
  exact ⟨hb.arena.trans hc.arena, hc.lent.trans hb.lent, hc.produced.trans hb.produced⟩

theorem record (a : Session) (function : String) (failure : Failure) :
    a.Settles (a.record function failure) := of_same rfl rfl rfl

theorem log (a : Session) (trace : List Event) : a.Settles (a.log trace) := of_same rfl rfl rfl

theorem clear (a : Session) : a.Settles { a with fatal := none } := of_same rfl rfl rfl

theorem update (a : Session) (loan : Loan Host) (host : Host) :
    a.Settles { a with arena := a.arena.update loan host } where
  grows := Nat.le_of_eq (Arena.length_update ..).symm
  settled tidy _ := ⟨.update tidy loan host, rfl, rfl⟩

/-- An interpreter's output is given back as soon as it is copied. -/
theorem conclude (a : Session) (ending : Ending) : a.Settles (a.conclude ending) :=
  of_same rfl rfl (a.produced.out_lend ending.outcome.output)

end Session.Settles

/-! ## The boundary -/

theorem Run.Settles.borrowing {program : Run α} (h : program.Settles) (handle : Handle)
    (session : Session) : session.Settles (borrowing handle program session).2 := by
  cases hresolve : session.arena.resolve handle Host.baseKind with
  | error e =>
    rw [borrowing_refused hresolve]
    exact .refl _
  | ok loan =>
    cases hprogram : program.on { host := loan.occupant.object, session } with
    | mk result w =>
      have hw := h { host := loan.occupant.object, session }
      rw [hprogram] at hw
      rw [borrowing_granted hresolve hprogram]
      exact hw.trans (.update ..)

variable {methods : Methods}

theorem dispatchQuestion_settles (hm : methods.Settle) (handle : Handle) (q : Query)
    (session : Session) : session.Settles (dispatchQuestion methods handle q session).2 := by
  have hborrow := (hm.answer q).borrowing handle session
  unfold dispatchQuestion
  generalize borrowing handle (methods.answer q) session = r at hborrow
  obtain ⟨result, session'⟩ := r
  cases result with
  | error failure => exact hborrow.trans (.record ..)
  | ok answer => exact hborrow.trans (.log _ [_])

/-- The interpreter gives the output of a call back. -/
theorem dispatchCall_settles (hm : methods.Settle) (handle : Handle) (raw : RawMessage)
    (session : Session) :
    let answer := dispatchCall methods handle raw session
    session.Settles (answer.2.release answer.1) := by
  have hfails : ∀ (s : Session) (failure : Failure),
      s.Settles ((s.record (Query.call raw).function failure).release (Query.call raw).neutral) :=
    fun s failure => .record ..
  unfold dispatchCall
  cases raw.toMessage with
  | error cause => exact hfails ..
  | ok message =>
    have hborrow := (hm.call message).borrowing handle session
    simp only
    generalize borrowing handle (methods.call message) session = r at hborrow
    obtain ⟨result, session'⟩ := r
    cases result with
    | error failure => exact hborrow.trans (hfails ..)
    | ok outcome =>
      simp only [Session.lend]
      cases int64? outcome.gasLeft with
      | none => exact hborrow.trans (hfails ..)
      | some gasLeft =>
        exact hborrow.trans (.of_same rfl (session'.lent.out_lend outcome.output) rfl)

theorem serve_settles (hm : methods.Settle) (handle : Handle) (q : Query) (session : Session) :
    session.Settles (serve methods handle q session).2 := by
  rcases q.call_or_not with ⟨raw, rfl⟩ | hq
  · exact dispatchCall_settles hm handle raw session
  · rw [serve_of_not_call session hq]
    exact (dispatchQuestion_settles hm handle q session).trans (.log ..)

/-! ## Runs -/

theorem execute_settles [Room] (hm : methods.Settle) (handle : Handle) (code : Bytes) (message : Message)
    (session : Session) : session.Settles (execute methods handle code message session).2 := by
  have htx := dispatchQuestion_settles hm handle .txContext session
  unfold execute
  simp only [dispatch, raiseFatal_eq]
  generalize (dispatchQuestion methods handle .txContext session).2 = s at htx
  have hclear := htx.trans (.clear s)
  cases s.fatal with
  | some e => exact hclear
  | none =>
    cases message.toRaw with
    | error cause => exact hclear
    | ok raw =>
      have hscript := (interpret message code).answerWith_rel Session.Settles.refl
        Session.Settles.trans (serve_settles hm handle) { s with fatal := none }
      simp only [produce_eq]
      generalize (interpret message code).answerWith (serve methods handle)
        { s with fatal := none } = played at hscript
      have hend := (hclear.trans hscript).trans
        ((Session.Settles.conclude played.2 played.1).trans (.clear _))
      cases (played.2.conclude played.1).fatal <;> exact hend

/-- The host that was taken in is given back whether the interpreter returned or not. -/
theorem Methods.run_settles [Room] (hm : methods.Settle) (kind : Kind) (code : Bytes) (message : Message) :
    (methods.run kind code message).Settles := by
  intro w
  rw [Methods.run_on]
  cases hinsert : w.session.arena.insert kind w.host with
  | error e => exact .refl _
  | ok taken =>
    obtain ⟨handle, arena⟩ := taken
    obtain ⟨-, -, hgrows⟩ := Arena.insert_ok hinsert
    have hexecute := execute_settles hm handle code message { w.session with arena }
    simp only
    generalize execute methods handle code message { w.session with arena } = r at hexecute
    obtain ⟨result, s⟩ := r
    -- with a slot that has a handle the host is found again
    have hreclaim : w.session.arena.Tidy → s.arena.slots.length < Handle.places →
        ∃ last d, s.arena.reclaim handle kind = .ok (last, d) ∧ w.session.arena.Restores d ∧
          s.lent.out = w.session.lent.out ∧ s.produced.out = w.session.produced.out := by
      intro tidy room
      have hroom := Nat.lt_of_le_of_lt hexecute.grows room
      obtain ⟨-, -, -, tidy', -⟩ := Arena.insert_seated tidy hinsert hroom
      have hsettled := hexecute.settled tidy' room
      obtain ⟨last, d, hgiven, hrestores⟩ := hsettled.arena.enclosed tidy hinsert hroom
      exact ⟨last, d, hgiven, hrestores, hsettled.lent, hsettled.produced⟩
    cases hgiven : s.arena.reclaim handle kind with
    | error e =>
      refine ⟨Nat.le_trans hgrows hexecute.grows, fun tidy room => ?_⟩
      obtain ⟨last, d, hgiven', -⟩ := hreclaim tidy room
      rw [hgiven] at hgiven'
      cases hgiven'
    | ok given =>
      obtain ⟨hlength, -⟩ := Arena.reclaim_ok hgiven
      refine ⟨hlength ▸ Nat.le_trans hgrows hexecute.grows, fun tidy room => ?_⟩
      obtain ⟨last, d, hgiven', hrestores, hlent, hproduced⟩ := hreclaim tidy (hlength ▸ room)
      rw [hgiven] at hgiven'
      cases hgiven'
      exact ⟨hrestores, hlent, hproduced⟩

theorem Methods.Settle.ofCall {call : Message → Run Outcome} (h : ∀ message, (call message).Settles) :
    (Methods.ofCall call).Settle where
  answer q w := by
    rw [Methods.ofCall, stateAnswer_on]
    exact .refl _
  call := h

theorem callVia_settles {run : Bytes → Message → Run Outcome}
    (hrun : ∀ code message, (run code message).Settles) (message : Message) :
    (callVia run message).Settles := by
  intro w
  have hresolve : w.session.Settles (w.resolve message).session := .log ..
  rw [callVia_on]
  cases w.host.state.start message with
  | error failure => exact hresolve
  | ok start =>
    have hnested := hrun start.code start.message ((w.resolve message).enter start)
    have henter : w.session.Settles ((w.resolve message).enter start).session :=
      hresolve.trans (.log ..)
    simp only
    generalize (run start.code start.message).on ((w.resolve message).enter start) = r at hnested
    obtain ⟨result, v⟩ := r
    cases result with
    | error failure => exact henter.trans hnested
    | ok outcome =>
      have hadopt : v.session.Settles ((w.resolve message).adopt start outcome v).2.session := by
        unfold World.adopt
        simp only
        cases (w.resolve message).host.state.merge (v.host.state.withCode start outcome) with
        | error e => exact .log ..
        | ok state => exact (Session.Settles.log ..).trans (.log ..)
      exact (henter.trans hnested).trans hadopt

theorem runWithin_settles [Room] (depth : Nat) (code : Bytes) (message : Message) :
    (runWithin depth code message).Settles := by
  induction depth generalizing code message with
  | zero => exact Methods.run_settles (.ofCall fun _ _ => .refl _) Host.kind code message
  | succ depth ih => exact Methods.run_settles (.ofCall (callVia_settles ih)) Host.kind code message

/-- A host that keeps a state is one whose methods settle what they begin. -/
theorem Host.methods_settle [Room] : Host.methods.Settle :=
  .ofCall fun message => callVia_settles (runWithin_settles message.gas.toNat) message

/-! ## Before and after -/

/-- What came in meanwhile is gone, and what was there before is there. -/
structure Session.Balanced (before after : Session) : Prop where
  live : after.arena.live = before.arena.live
  lent : after.lent.count = before.lent.count
  produced : after.produced.count = before.produced.count
  /-- No handle that was given out meanwhile resolves. -/
  issued : ∃ deeds, after.arena.book = deeds ++ before.arena.book ∧
    ∀ index handle occupant, .taken index handle occupant ∈ deeds → after.arena.Dead handle
  /-- What resolved before resolves, to the same object. -/
  kept : ∀ handle asked loan, before.arena.resolve handle asked = .ok loan →
    ∃ loan', after.arena.resolve handle asked = .ok loan' ∧ loan'.index = loan.index ∧
      loan'.occupant.kind = loan.occupant.kind ∧ loan'.occupant.serial = loan.occupant.serial

theorem Session.Settled.balanced {a b : Session} (h : a.Settled b) : a.Balanced b where
  live := h.arena.live
  lent := congrArg List.length h.lent
  produced := congrArg List.length h.produced
  issued := h.arena.dead_of_mem
  kept _ _ loan hresolve := Arena.resolve_of_mark hresolve (h.arena.mark loan.index)

/-- After a call, after a run of a host that keeps a state, and after a run of any host whose methods
settle what they begin, whether it returns or fails, if no slot is without a handle: as many objects are
in the arena and as many outputs are out as before, the handles given out meanwhile are dead, and the
older ones resolve to the objects that they resolved to, which calls and runs of hosts that keep a state
do not change. -/
theorem nothing_leaks [Room] {w : World} (tidy : w.session.arena.Tidy) (code : Bytes) (message : Message) :
    (∀ program, program = Host.call message ∨ program = Host.run code message →
        let after := (program.on w).2.session
        after.arena.slots.length < Handle.places →
          w.session.Balanced after ∧
            ∀ handle asked loan, w.session.arena.resolve handle asked = .ok loan →
              after.arena.resolve handle asked = .ok loan) ∧
      ∀ (methods : Methods) (kind : Kind), methods.Settle →
        let after := ((methods.run kind code message).on w).2.session
        after.arena.slots.length < Handle.places → w.session.Balanced after := by
  have key : ∀ {program direct : Run Outcome}, program.Settles → Mirrors program direct →
      (program.on w).2.session.arena.slots.length < Handle.places →
        w.session.Balanced (program.on w).2.session ∧
          ∀ handle asked loan, w.session.arena.resolve handle asked = .ok loan →
            (program.on w).2.session.arena.resolve handle asked = .ok loan := by
    intro program direct hsettles hmirrors room
    obtain ⟨-, -, hkeeps⟩ := hmirrors w tidy room
    exact ⟨((hsettles w).settled tidy room).balanced, fun _ _ _ => hkeeps.resolve⟩
  refine ⟨?_, fun methods kind hm room => ?_⟩
  · rintro program (rfl | rfl)
    · exact key (Host.methods_settle.call message) (call_mirrors message)
    · exact key (runWithin_settles _ code message) (runWithin_mirrors _ code message)
  · exact ((Methods.run_settles hm kind code message w).settled tidy room).balanced

section

attribute [local instance] Room.usual

/-- Nothing leaks from a nested frame that fails, nor from a host whose methods all fail. -/
theorem nothing_leaks_stranded :
    let w := World.calling strandedCode
    let message : Message := { gas := 50, destination := .ofNat 1 }
    let called := (Host.call message).on w
    let failing := Methods.failing (.fault .missingKey)
    let ran := (failing.run Host.kind strandedCode message).on w
    called.1 = .error (.fatal (.noCode (.ofNat 7) .call)) ∧ w.session.Balanced called.2.session ∧
      ran.1 = .error (.fatal (.wrapped "get_tx_context" .missingKey)) ∧
      w.session.Balanced ran.2.session := by
  have hfailing : (Methods.failing (.fault .missingKey)).Settle :=
    ⟨fun _ _ => .refl _, fun _ _ => .refl _⟩
  have room : ((Host.call { gas := 50, destination := .ofNat 1 }).on
      (.calling strandedCode)).2.session.arena.slots.length < Handle.places := by
    decide +kernel
  have room' : (((Methods.failing (.fault .missingKey)).run Host.kind strandedCode
      { gas := 50, destination := .ofNat 1 }).on
      (.calling strandedCode)).2.session.arena.slots.length < Handle.places := by
    decide +kernel
  obtain ⟨hcall, hrun⟩ := nothing_leaks (w := .calling strandedCode)
    (Arena.Tidy.empty Host.baseKind) strandedCode { gas := 50, destination := .ofNat 1 }
  exact ⟨by decide +kernel, (hcall _ (.inl rfl) room).1, by decide +kernel,
    hrun _ _ hfailing room'⟩

end

end ContractHost
