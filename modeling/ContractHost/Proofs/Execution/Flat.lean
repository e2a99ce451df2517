import ContractHost.Proofs.Execution.FirstFailure

/-!
# Execution on one state

The same execution without copies: all frames of a call work on one state in place. A nested frame only
changes the depth and the address that the state carries, and the frame that started it gets its own
back. Where a call of a host returns, this form of it returns the same and leaves the same behind.

* `Flat.call`: serving a call in this form.
* `Matches`: whatever the first program returns, the second returns too.
* `call_matches_flat`: a call and its form on one state.
-/

namespace ContractHost

open Interpreter

namespace Flat

/-- Serves a call: runs the callee on the state of the frame that called. -/
def callVia (run : Bytes → Message → Run Outcome) (message : Message) : Run Outcome := do
  let callee ← resolveCallee message
  let (code, message) ← codeFor message callee
  let caller ← Run.state
  Run.setState { caller with depth := message.depth + 1, currentAccount := callee }
  Run.note (.spawned {
    parentDepth := caller.depth, childDepth := message.depth + 1, kind := message.kind
    sender := message.sender, callee, gas := message.gas })
  let outcome ← run code message
  if outcome.isSuccess && message.kind.isCreate then
    Run.setState ((← Run.state).deploy callee outcome.output)
    Run.note (.deployed callee outcome.output)
  Run.setState { ← Run.state with depth := caller.depth, currentAccount := caller.currentAccount }
  let outcome := { outcome with createAddress := callee }
  Run.note (.finished message.kind callee outcome)
  return outcome

/-- Runs code on a host whose frames nest at most so deep. -/
def runWithin [Room] : (depth : Nat) → Bytes → Message → Run Outcome
  | 0, code, message => Direct.run (fun _ => return .failed .internalError) code message
  | depth + 1, code, message => Direct.run (callVia (runWithin depth)) code message

/-- Serves a call. -/
def call [Room] (message : Message) : Run Outcome := callVia (runWithin message.gas.toNat) message

end Flat

/-- The end of a call on one state, whose nested frame gave an outcome and left a world. -/
def World.leave (w : World) (start : Start) (outcome : Outcome) (child : World) : World where
  host := { child.host with
    state := (child.host.state.withCode start outcome).clone w.host.state.depth
      w.host.state.currentAccount }
  session := (child.session.log (start.deployment outcome)).log
    [.finished start.message.kind start.callee { outcome with createAddress := start.callee }]

theorem Flat.callVia_on (run : Bytes → Message → Run Outcome) (message : Message) (w : World) :
    (Flat.callVia run message).on w =
      match w.host.state.start message with
      | .error failure => (.error failure, w.resolve message)
      | .ok start =>
        match (run start.code start.message).on ((w.resolve message).enter start) with
        | (.error failure, v) => (.error failure, v)
        | (.ok outcome, v) =>
          (.ok { outcome with createAddress := start.callee },
            (w.resolve message).leave start outcome v) := by
  refine (start_on _ message w).trans ?_
  cases w.host.state.start message with
  | error failure => rfl
  | ok start =>
    have henter : World.mk
        { (w.resolve message).host with
          state := { (w.resolve message).host.state with
            depth := start.message.depth + 1, currentAccount := start.callee } }
        ((w.resolve message).session.note (.spawned
          { parentDepth := (w.resolve message).host.state.depth
            childDepth := start.message.depth + 1, kind := start.message.kind
            sender := start.message.sender, callee := start.callee
            gas := start.message.gas })) = (w.resolve message).enter start := rfl
    simp only [Run.on_bind, Run.on_state, Run.on_setState, Run.on_note, henter]
    cases hn : (run start.code start.message).on ((w.resolve message).enter start) with
    | mk result v =>
      cases result with
      | error failure => rfl
      | ok outcome =>
        simp only [World.leave, HostState.withCode, Start.deployment]
        cases outcome.isSuccess && start.message.kind.isCreate <;>
          simp [Run.on_bind, Run.on_map, Session.note_eq_log, Session.log, HostState.clone]

/-- A call that returns started a nested frame and left it. -/
theorem Flat.callVia_returns {run : Bytes → Message → Run Outcome} {message : Message}
    {w w' : World} {outcome : Outcome}
    (h : (Flat.callVia run message).on w = (.ok outcome, w')) :
    ∃ start inner v, w.host.state.start message = .ok start ∧
      (run start.code start.message).on ((w.resolve message).enter start) = (.ok inner, v) ∧
      w' = (w.resolve message).leave start inner v := by
  rw [Flat.callVia_on] at h
  cases hstart : w.host.state.start message with
  | error failure =>
    rw [hstart] at h
    cases h
  | ok start =>
    simp only [hstart] at h
    cases hr : (run start.code start.message).on ((w.resolve message).enter start) with
    | mk result v =>
      rw [hr] at h
      cases result with
      | error failure => cases h
      | ok inner =>
        cases h
        exact ⟨start, inner, v, rfl, hr, rfl⟩

/-! ## What returns on copies returns on one state -/

/-- Whatever a program returns, another one returns too, and leaves the same world. -/
def Matches {α : Type} (program other : Run α) : Prop :=
  ∀ {w w' : World} {a : α}, program.on w = (.ok a, w') → other.on w = (.ok a, w')

namespace Matches

variable {call flat : Message → Run Outcome}

theorem request (hmatches : ∀ m, Matches (call m) (flat m)) {raw : RawMessage} {w : World}
    (h : (Direct.request call raw w).2.session.fatal = none) :
    Direct.request flat raw w = Direct.request call raw w := by
  unfold Direct.request at h ⊢
  cases hraw : raw.toMessage with
  | error cause => rfl
  | ok message =>
    simp only [hraw] at h ⊢
    cases hcall : (call message).on w with
    | mk result v =>
      cases result with
      | error failure =>
        rw [hcall] at h
        simp [Session.record] at h
      | ok outcome => rw [hmatches message hcall]

theorem serve (hmatches : ∀ m, Matches (call m) (flat m)) {q : Query} {w : World}
    (h : (Direct.serve call q w).2.session.fatal = none) :
    Direct.serve flat q w = Direct.serve call q w := by
  rcases q.call_or_not with ⟨raw, rfl⟩ | hq
  · unfold Direct.serve
    simp only [request hmatches h]
  · rw [Direct.serve_of_not_call w hq, Direct.serve_of_not_call w hq]

theorem answerWith (hcall : ∀ m, (call m).Reports) (hmatches : ∀ m, Matches (call m) (flat m))
    {script : Script Ending} {w : World}
    (h : (script.answerWith (Direct.serve call) w).2.session.fatal = none) :
    script.answerWith (Direct.serve flat) w = script.answerWith (Direct.serve call) w := by
  induction script generalizing w with
  | done ending => rfl
  | ask q next ih =>
    simp only [Script.answerWith] at h ⊢
    -- what is still recorded at the end was recorded before, so this question did not fail
    have hasked : (Direct.serve call q w).2.session.fatal = none := by
      obtain ⟨trace, hrecords⟩ := Direct.answerWith_records hcall
        (next (Direct.serve call q w).1) (Direct.serve call q w).2
      have hfatal := hrecords.fatal
      rw [h] at hfatal
      exact (Option.or_eq_none_iff.1 hfatal.symm).1
    rw [serve hmatches hasked]
    exact ih _ h

theorem execute [Room] (hcall : ∀ m, (call m).Reports) (hmatches : ∀ m, Matches (call m) (flat m))
    {code : Bytes} {message : Message} {w w' : World} {outcome : Outcome}
    (h : Direct.execute call code message w = (.ok outcome, w')) :
    Direct.execute flat code message w = (.ok outcome, w') := by
  rw [Direct.execute_eq_ok_iff] at h ⊢
  obtain ⟨hopened, hraw, ending, u, hplayed, hend, rfl, rfl⟩ := h
  refine ⟨hopened, hraw, ending, u, ?_, hend, rfl, rfl⟩
  have hu : u.session.fatal = none := by
    cases ending <;> exact hend
  rw [answerWith hcall hmatches (by rwa [hplayed]), hplayed]

theorem run [Room] (hcall : ∀ m, (call m).Reports) (hmatches : ∀ m, Matches (call m) (flat m))
    (code : Bytes) (message : Message) :
    Matches (Direct.run call code message) (Direct.run flat code message) := by
  intro w w' outcome h
  rw [Direct.run_on] at h ⊢
  split at h
  · rename_i hkind
    rw [if_pos hkind]
    exact execute hcall hmatches h
  · cases h

theorem callVia {run flat : Bytes → Message → Run Outcome}
    (hrun : ∀ code m, (run code m).Reports) (hmatches : ∀ code m, Matches (run code m) (flat code m))
    (message : Message) :
    Matches (ContractHost.callVia run message) (Flat.callVia flat message) := by
  intro w w' outcome h
  obtain ⟨start, inner, v, hstart, hinner, hadopt⟩ := callVia_returns h
  rw [Flat.callVia_on, hstart]
  simp only [hmatches _ _ hinner]
  -- the transaction is that of the frame that called, whatever the nested frame did
  obtain ⟨trace, hadds, -⟩ := hrun start.code start.message ((w.resolve message).enter start)
  have htx : v.host.tx = w.host.tx := by
    rw [hinner] at hadds
    exact hadds.tx
  obtain ⟨-, rfl, rfl⟩ := World.adopt_ok hadopt
  rw [show (w.resolve message).host.tx = v.host.tx from htx.symm]
  rfl

end Matches

theorem runWithin_matches_flat [Room] (depth : Nat) (code : Bytes) (message : Message) :
    Matches (Direct.runWithin depth code message) (Flat.runWithin depth code message) := by
  induction depth generalizing code message with
  | zero => exact id
  | succ depth ih =>
    exact Matches.run (Direct.callVia_reports (Direct.runWithin_reports depth))
      (Matches.callVia (Direct.runWithin_reports depth) ih) code message

theorem call_matches_flat [Room] (message : Message) :
    Matches (Direct.call message) (Flat.call message) :=
  Matches.callVia (Direct.runWithin_reports _) (runWithin_matches_flat _) message

end ContractHost
