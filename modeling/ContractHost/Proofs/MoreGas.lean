import ContractHost.Proofs.Execution.Launch
import ContractHost.Proofs.GuestFailures
import ContractHost.Proofs.Interpreter.MoreGas

/-!
# Calls with more gas

Nothing but running out of gas depends on how much gas a call has. If no frame of a call runs out of it,
the same call with more gas goes through the same frames, which may have more gas as well, gets the same
answers, and ends in the same way.

The two runs are followed side by side. Their sessions differ in what is noted about gas, and in nothing
else.

* `Session.Alike`, `World.Alike`: the same but for what is noted.
* `Agrees`: two runs that fail in the same way, or give the same outcome but for the gas.
* `call_more_gas`: a call with more gas.
-/

namespace ContractHost

open Interpreter

/-! ## Sessions that differ in what is noted -/

/-- The same session but for what is noted in it. -/
def Session.Alike (a b : Session) : Prop := ∃ events, b = { a with events }

namespace Session.Alike

variable {a b : Session}

theorem log (h : a.Alike b) (trace trace' : List Event) : (a.log trace).Alike (b.log trace') := by
  obtain ⟨events, rfl⟩ := h
  exact ⟨_, rfl⟩

theorem record (h : a.Alike b) (function : String) (failure : Failure) :
    (a.record function failure).Alike (b.record function failure) := by
  obtain ⟨events, rfl⟩ := h
  exact ⟨_, rfl⟩

theorem settle (h : a.Alike b) (arena : Arena Host) :
    Alike { a with arena } { b with arena } := by
  obtain ⟨events, rfl⟩ := h
  exact ⟨_, rfl⟩

theorem clear (h : a.Alike b) : Alike { a with fatal := none } { b with fatal := none } := by
  obtain ⟨events, rfl⟩ := h
  exact ⟨_, rfl⟩

/-- The interpreter gives the same output back. -/
theorem release (h : a.Alike b) {raw raw' : RawOutcome} (hraw : raw.Alike raw') :
    (a.release raw).Alike (b.release raw') := by
  obtain ⟨events, rfl⟩ := h
  obtain ⟨gasLeft, rfl⟩ := hraw
  exact ⟨events, rfl⟩

theorem arena (h : a.Alike b) : b.arena = a.arena := by
  obtain ⟨events, rfl⟩ := h
  rfl

theorem fatal (h : a.Alike b) : b.fatal = a.fatal := by
  obtain ⟨events, rfl⟩ := h
  rfl

end Session.Alike

/-- The same world but for what is noted in its session. -/
structure World.Alike (w w' : World) : Prop where
  host : w'.host = w.host
  session : w.session.Alike w'.session

/-- Two runs that fail in the same way, or give related results, and leave worlds that are alike. -/
structure Agrees {α β : Type} (R : α → β → Prop) (r : Except Failure α × World)
    (r' : Except Failure β × World) : Prop where
  result : Relates R r.1 r'.1
  world : r.2.Alike r'.2

/-! ## Messages and outcomes that differ in their gas -/

/-- A message that crosses the boundary, and so it does with more gas. -/
structure Message.Spares (message : Message) (gas : Int) : Prop where
  more : message.gas ≤ gas
  sent : ∃ raw, int64? message.gas = some raw
  sent' : ∃ raw, int64? gas = some raw

theorem RawMessage.Spares.messages {raw raw' : RawMessage} (h : raw.Spares raw') :
    (∃ cause, raw.toMessage = .error cause ∧ raw'.toMessage = .error cause) ∨
      ∃ message gas, message.Spares gas ∧ raw.toMessage = .ok message ∧
        raw'.toMessage = .ok { message with gas } := by
  obtain ⟨gas, hmore, rfl⟩ := h
  unfold RawMessage.toMessage
  simp only
  cases CallKind.ofCode? raw.kind.toNat with
  | none => exact Or.inl ⟨_, rfl, rfl⟩
  | some kind =>
    refine Or.inr ⟨_, gas.toInt, ⟨hmore, ?_, ?_⟩, rfl, rfl⟩
    · exact ⟨raw.gas, int64?_eq_some_iff.2 rfl⟩
    · exact ⟨gas, int64?_eq_some_iff.2 rfl⟩

/-- The same outcome, with more gas left if any is left at all. Both cross the boundary. -/
structure Outcome.Richer (extra : Int) (outcome outcome' : Outcome) : Prop where
  status : outcome'.status = outcome.status
  output : outcome'.output = outcome.output
  createAddress : outcome'.createAddress = outcome.createAddress
  gasLeft :
    if outcome.status = .success ∨ outcome.status = .revert then
      outcome'.gasLeft = outcome.gasLeft + extra
    else outcome.gasLeft = 0 ∧ outcome'.gasLeft = 0
  sent : ∃ raw, int64? outcome.gasLeft = some raw
  sent' : ∃ raw, int64? outcome'.gasLeft = some raw

theorem Outcome.Richer.lend {extra : Int} {outcome outcome' : Outcome}
    (h : outcome.Richer extra outcome') {s s' : Session} (hs : s.Alike s') :
    ∃ raw raw' t t', s.lend outcome = .ok (raw, t) ∧ s'.lend outcome' = .ok (raw', t') ∧
      raw.Alike raw' ∧ t.Alike t' := by
  obtain ⟨gasLeft, hsent⟩ := h.sent
  obtain ⟨gasLeft', hsent'⟩ := h.sent'
  obtain ⟨events, rfl⟩ := hs
  unfold Session.lend
  simp only [hsent, hsent', h.output, h.status, h.createAddress]
  exact ⟨_, _, _, _, rfl, rfl, ⟨gasLeft', rfl⟩, ⟨events, rfl⟩⟩

/-! ## The boundary -/

section

variable {s s' : Session} {handle : Handle}

theorem borrowing_agrees {α β : Type} {R : α → β → Prop} {program : Run α} {program' : Run β}
    (hs : s.Alike s')
    (h : ∀ loan, s.arena.resolve handle Host.baseKind = .ok loan →
      Agrees R (program.on { host := loan.occupant.object, session := s })
        (program'.on { host := loan.occupant.object, session := s' })) :
    Relates R (borrowing handle program s).1 (borrowing handle program' s').1 ∧
      (borrowing handle program s).2.Alike (borrowing handle program' s').2 := by
  have harena := hs.arena
  cases hresolve : s.arena.resolve handle Host.baseKind with
  | error e =>
    rw [borrowing_refused hresolve, borrowing_refused (by rw [harena, hresolve])]
    exact ⟨.error _, hs⟩
  | ok loan =>
    have hagrees := h loan hresolve
    cases hprogram : program.on { host := loan.occupant.object, session := s } with
    | mk result w =>
      cases hprogram' : program'.on { host := loan.occupant.object, session := s' } with
      | mk result' w' =>
        rw [hprogram, hprogram'] at hagrees
        obtain ⟨hresult, hhost, hsession⟩ := hagrees
        simp only at hresult hhost hsession
        have harena' := hsession.arena
        rw [borrowing_granted hresolve hprogram,
          borrowing_granted (by rw [harena, hresolve]) hprogram', hhost, harena']
        refine ⟨hresult.bind fun a b hab => ?_, hsession.settle _⟩
        cases w.session.arena.endLoan loan with
        | error e => exact .error _
        | ok => exact .ok hab

theorem dispatchQuestion_alike (call : Message → Run Outcome) (handle : Handle) (q : Query)
    (hs : s.Alike s') :
    (dispatchQuestion (.ofCall call) handle q s').1 = (dispatchQuestion (.ofCall call) handle q s).1 ∧
      (dispatchQuestion (.ofCall call) handle q s).2.Alike
        (dispatchQuestion (.ofCall call) handle q s').2 := by
  have hborrow : Relates Eq (borrowing handle (Methods.stateAnswer q) s).1
        (borrowing handle (Methods.stateAnswer q) s').1 ∧
      (borrowing handle (Methods.stateAnswer q) s).2.Alike
        (borrowing handle (Methods.stateAnswer q) s').2 := by
    refine borrowing_agrees hs fun loan _ => ?_
    rw [stateAnswer_on, stateAnswer_on]
    exact ⟨.refl (fun _ => rfl) _, rfl, hs⟩
  unfold dispatchQuestion
  simp only [Methods.ofCall]
  generalize borrowing handle (Methods.stateAnswer q) s = r at hborrow
  generalize borrowing handle (Methods.stateAnswer q) s' = r' at hborrow
  obtain ⟨result, t⟩ := r
  obtain ⟨result', t'⟩ := r'
  obtain ⟨hresult, ht⟩ := hborrow
  simp only at hresult ht
  cases hresult with
  | error failure => exact ⟨rfl, ht.record ..⟩
  | ok h =>
    subst h
    exact ⟨rfl, ht.log [_] [_]⟩

/-- The answers to two calls that agree differ in their gas. -/
theorem dispatchCall_alike (call : Message → Run Outcome) (handle : Handle) {raw raw' : RawMessage}
    (hraw : raw.Spares raw') (hs : s.Alike s')
    (h : ∀ message gas loan, raw.toMessage = .ok message → message.Spares gas →
      s.arena.resolve handle Host.baseKind = .ok loan →
        Agrees (Outcome.Richer (gas - message.gas))
          ((call message).on { host := loan.occupant.object, session := s })
          ((call { message with gas }).on { host := loan.occupant.object, session := s' })) :
    (dispatchCall (.ofCall call) handle raw s).1.Alike
        (dispatchCall (.ofCall call) handle raw' s').1 ∧
      (dispatchCall (.ofCall call) handle raw s).2.Alike
        (dispatchCall (.ofCall call) handle raw' s').2 := by
  unfold dispatchCall
  rcases hraw.messages with ⟨cause, hmessage, hmessage'⟩ | ⟨message, gas, hspares, hmessage, hmessage'⟩
  · rw [hmessage, hmessage']
    exact ⟨⟨0, rfl⟩, hs.record ..⟩
  · have hborrow := borrowing_agrees hs fun loan => h message gas loan hmessage hspares
    simp only [hmessage, hmessage', Methods.ofCall]
    generalize borrowing handle (call message) s = r at hborrow
    generalize borrowing handle (call { message with gas }) s' = r' at hborrow
    obtain ⟨result, t⟩ := r
    obtain ⟨result', t'⟩ := r'
    obtain ⟨hresult, ht⟩ := hborrow
    simp only at hresult ht
    cases hresult with
    | error failure => exact ⟨⟨0, rfl⟩, ht.record ..⟩
    | ok hricher =>
      obtain ⟨raw, raw', u, u', hlend, hlend', hanswers, hu⟩ := hricher.lend ht
      simp only [hlend, hlend']
      exact ⟨hanswers, hu⟩

theorem serve_alike (call : Message → Run Outcome) {q : Query} (hq : ∀ raw, q ≠ .call raw)
    (hs : s.Alike s') :
    (serve (.ofCall call) handle q s').1 = (serve (.ofCall call) handle q s).1 ∧
      (serve (.ofCall call) handle q s).2.Alike (serve (.ofCall call) handle q s').2 := by
  rcases q.call_or_not with ⟨raw, rfl⟩ | hq'
  · exact absurd rfl (hq raw)
  · obtain ⟨hanswer, hlater⟩ := dispatchQuestion_alike call handle q hs
    rw [serve_of_not_call s hq', serve_of_not_call s' hq', hanswer]
    exact ⟨rfl, hlater.log ..⟩

/-- Whether a frame can start does not depend on how much gas its message has. -/
theorem ready_alike [Room] (handle : Handle) {message : Message} {gas : Int} (h : message.Spares gas)
    (hs : s.Alike s') :
    (Host.methods.ready handle { message with gas } s').1 =
        (Host.methods.ready handle message s).1 ∧
      (Host.methods.ready handle message s).2.Alike
        (Host.methods.ready handle { message with gas } s').2 := by
  obtain ⟨-, hopened⟩ := dispatchQuestion_alike Host.call handle .txContext hs
  have hraw := Message.toRaw_spares h.more h.sent h.sent'
  unfold Methods.ready Host.methods
  simp only [dispatch, raiseFatal_eq]
  generalize (dispatchQuestion (.ofCall Host.call) handle .txContext s).2 = t at hopened
  generalize (dispatchQuestion (.ofCall Host.call) handle .txContext s').2 = t' at hopened
  rw [hopened.fatal]
  cases t.fatal with
  | some e => exact ⟨rfl, hopened.clear⟩
  | none =>
    generalize message.toRaw = raw at hraw
    generalize Message.toRaw { message with gas } = raw' at hraw
    cases hraw <;> exact ⟨rfl, hopened.clear⟩

theorem close_agrees {extra : Int} {ending ending' : Ending} (h : ending.Richer extra ending')
    (hsent : ∃ raw, int64? ending.outcome.gasLeft = some raw)
    (hsent' : ∃ raw, int64? ending'.outcome.gasLeft = some raw) (hs : s.Alike s') :
    Relates (Outcome.Richer extra) (s.close ending).1 (s'.close ending').1 ∧
      (s.close ending).2.Alike (s'.close ending').2 := by
  have houtput : ending'.outcome.output = ending.outcome.output := by cases h <;> rfl
  have hcrash : ending'.crash = ending.crash := by cases h <;> rfl
  have hconclude : (s.conclude ending).Alike (s'.conclude ending') := by
    obtain ⟨events, rfl⟩ := hs
    unfold Session.conclude
    rw [houtput, hcrash]
    exact ⟨_, rfl⟩
  have hricher : ending.outcome.Richer extra ending'.outcome := by
    cases h with
    | left hstatus gas output =>
      refine ⟨rfl, rfl, rfl, ?_, hsent, hsent'⟩
      simp only [Ending.outcome, hstatus, if_true]
    | none hstatus output =>
      refine ⟨rfl, rfl, rfl, ?_, hsent, hsent'⟩
      simp only [Ending.outcome, hstatus, if_false, and_self]
    | crashed fault => exact ⟨rfl, rfl, rfl, ⟨rfl, rfl⟩, hsent, hsent'⟩
  unfold Session.close
  simp only [raiseFatal_eq]
  rw [hconclude.fatal]
  cases (s.conclude ending).fatal with
  | some e => exact ⟨.error _, hconclude.clear⟩
  | none => exact ⟨.ok hricher, hconclude.clear⟩

end

/-! ## One frame -/

/-- A script with more gas is answered like the one with less gas, if calls are, unless that one uses up
its gas. -/
theorem Interpreter.Script.Outlasts.answerWith {extra : Int} {script script' : Script Ending}
    (h : Script.Outlasts extra script script')
    {answer : (q : Query) → Session → q.Answer × Session} {s s' : Session} (hs : s.Alike s')
    (hask : ∀ q {t t'}, (∀ raw, q ≠ .call raw) → t.Alike t' →
      (answer q t').1 = (answer q t).1 ∧ (answer q t).2.Alike (answer q t').2)
    (hcall : ∀ {raw raw' t t'}, raw.Spares raw' → t.Alike t' →
      (.call raw, t) ∈ script.asked answer s →
        RawOutcome.Alike (answer (.call raw) t).1 (answer (.call raw') t').1 ∧
          (answer (.call raw) t).2.Alike (answer (.call raw') t').2)
    (hunspent : (script.answerWith answer s).1 ≠ .spent) :
    (script.answerWith answer s).1.Richer extra (script'.answerWith answer s').1 ∧
      (script.answerWith answer s).2.Alike (script'.answerWith answer s').2 := by
  induction h generalizing s s' with
  | spent script => exact absurd rfl hunspent
  | done hending => exact ⟨hending, hs⟩
  | @ask q next next' hq later ih =>
    obtain ⟨hanswer, hlater⟩ := hask q hq hs
    simp only [Script.answerWith, hanswer] at hunspent ⊢
    exact ih _ hlater (fun hraw ht hasked => hcall hraw ht (.tail _ hasked)) hunspent
  | @call raw raw' next next' hraw later ih =>
    obtain ⟨hanswers, hlater⟩ := hcall hraw hs (.head _)
    simp only [Script.answerWith] at hunspent ⊢
    exact ih _ _ hanswers hlater (fun hraw ht hasked => hcall hraw ht (.tail _ hasked)) hunspent

/-- A call agrees with the same call with more gas, unless a frame of it uses up its gas. -/
def CallAgrees [Room] (message : Message) : Prop :=
  ∀ gas (w w' : World), message.Spares gas → w.Alike w' →
    (∀ frame, w.launch message = some frame → frame.Unspent) →
      Agrees (Outcome.Richer (gas - message.gas)) ((Host.call message).on w)
        ((Host.call { message with gas }).on w')

/-- What is left of the gas of a message that crosses the boundary crosses it, too. -/
theorem ending_sent [Room] {σ : Type} {message : Message} (h : ∃ raw, int64? message.gas = some raw)
    (code : Bytes) (answer : (q : Query) → σ → q.Answer × σ) (s : σ) :
    ∃ raw, int64? ((interpret message code).answerWith answer s).1.outcome.gasLeft = some raw := by
  have hany (q : Query) (s : σ) (_ : message.Asks q) : (fun _ _ => True) s (answer q s).2 := trivial
  obtain ⟨-, hleaves⟩ :=
    (interpret_obeys message code).answerWith (fun _ => trivial) (fun _ _ => trivial) hany s
  exact hleaves.sendable h

theorem play_agrees [Room] {code : Bytes} {message : Message} {gas : Int} (hspares : message.Spares gas)
    (hcalls : ∀ nested : Message, nested.gas.toNat < message.gas.toNat → CallAgrees nested)
    {w : World} (hunspent : Launch.Unspent { code, message, world := w }) {handle : Handle}
    {t t' : Session} (hopening : Launch.opening { code, message, world := w } = some (handle, t))
    (ht : t.Alike t') :
    let played := (interpret message code).answerWith (serve Host.methods handle) t
    let played' :=
      (interpret { message with gas } code).answerWith (serve Host.methods handle) t'
    played.1.Richer (gas - message.gas) played'.1 ∧ played.2.Alike played'.2 := by
  have hfits : gas < twoTo 63 := (int64?_fits_iff.1 hspares.sent').2
  refine (interpret_outlasts hspares.more hfits code).answerWith ht ?_ ?_ ?_
  · intro q s s' hq hs
    exact serve_alike Host.call hq hs
  · -- a call whose message has less gas than this one
    intro raw raw' s s' hraw hs hasked
    obtain ⟨nested, hnested, hbegets⟩ := (interpret_obeys message code).asked hasked
    obtain ⟨hanswers, hlater⟩ := dispatchCall_alike Host.call handle hraw hs
      fun m gas' loan hm hspares' hresolve => by
        rw [hnested] at hm
        cases hm
        refine hcalls nested hbegets.gas gas' _ _ hspares' ⟨rfl, hs⟩ fun frame hframe => ?_
        exact (Launch.unspent_iff.1 hunspent).2 frame
          (Launch.mem_started hopening hasked hnested hresolve hframe)
    exact ⟨hanswers, hlater.release hanswers⟩
  · intro hspent
    refine hunspent _ _ .refl (congrArg (Option.map _) hopening) ?_
    exact congrArg (·.outcome.status) hspent

theorem execute_agrees [Room] {code : Bytes} {message : Message} {gas : Int} (hspares : message.Spares gas)
    (hcalls : ∀ nested : Message, nested.gas.toNat < message.gas.toNat → CallAgrees nested)
    {w w' : World} (hw : w.Alike w') (hunspent : Launch.Unspent { code, message, world := w })
    {handle : Handle} {arena : Arena Host}
    (hinsert : w.session.arena.insert Host.kind w.host = .ok (handle, arena)) :
    let r := execute Host.methods handle code message { w.session with arena }
    let r' := execute Host.methods handle code { message with gas } { w'.session with arena }
    Relates (Outcome.Richer (gas - message.gas)) r.1 r'.1 ∧ r.2.Alike r'.2 := by
  have hopened := ready_alike handle hspares (hw.session.settle arena)
  simp only [execute_eq]
  cases hready : Host.methods.ready handle message { w.session with arena } with
  | mk result t =>
    rw [hready] at hopened
    generalize Host.methods.ready handle { message with gas } { w'.session with arena } = opened
      at hopened
    obtain ⟨result', t'⟩ := opened
    obtain ⟨hresult, ht⟩ := hopened
    simp only at hresult ht
    subst hresult
    cases result' with
    | error failure => exact ⟨.error _, ht⟩
    | ok =>
      have hopening : Launch.opening { code, message, world := w } = some (handle, t) := by
        simp only [Launch.opening, hinsert, hready]
      obtain ⟨hending, hplayed⟩ := play_agrees hspares hcalls hunspent hopening ht
      have hsent' : ∃ raw, int64? (Message.gas { message with gas }) = some raw := hspares.sent'
      exact close_agrees hending (ending_sent hspares.sent ..) (ending_sent hsent' ..) hplayed

theorem run_agrees [Room] {code : Bytes} {message : Message} {gas : Int} (hspares : message.Spares gas)
    (hcalls : ∀ nested : Message, nested.gas.toNat < message.gas.toNat → CallAgrees nested)
    {w w' : World} (hw : w.Alike w') (hunspent : Launch.Unspent { code, message, world := w }) :
    Agrees (Outcome.Richer (gas - message.gas)) ((run Host.call code message).on w)
      ((run Host.call code { message with gas }).on w') := by
  have harena := hw.session.arena
  rw [run_on, run_on, harena, hw.host]
  cases hinsert : w.session.arena.insert Host.kind w.host with
  | error e => exact ⟨.error _, hw⟩
  | ok taken =>
    obtain ⟨handle, arena⟩ := taken
    have hexecute := execute_agrees hspares hcalls hw hunspent hinsert
    unfold Host.methods at hexecute
    simp only at hexecute ⊢
    generalize execute (.ofCall Host.call) handle code message { w.session with arena } = r
      at hexecute ⊢
    generalize execute (.ofCall Host.call) handle code { message with gas }
      { w'.session with arena } = r' at hexecute ⊢
    obtain ⟨hresult, hsession⟩ := hexecute
    rw [hsession.arena]
    cases r.2.arena.reclaim handle Host.kind with
    | error e => exact ⟨.error _, rfl, hsession⟩
    | ok given => exact ⟨hresult, rfl, hsession.settle _⟩

/-! ## Frames within frames -/

/-- The frame of a message with more gas is the same frame with more gas. -/
theorem HostState.start_gas (s : HostState) (message : Message) (gas : Int) :
    s.start { message with gas } =
      (s.start message).map fun start => { start with message := { start.message with gas } } := by
  have hresolve : s.resolveCallee { message with gas } = s.resolveCallee message := rfl
  unfold start
  rw [hresolve]
  generalize s.resolveCallee message = resolved
  obtain ⟨callee, s'⟩ := resolved
  cases callee with
  | error cause => rfl
  | ok callee =>
    simp only
    split
    · rfl
    · cases (s'.find? callee).bind (·.code) <;> rfl

theorem World.adopt_agrees {w w' v v' : World} (hw : w.Alike w') (hv : v.Alike v') (start : Start)
    (gas : Int) {extra : Int} {outcome outcome' : Outcome} (h : outcome.Richer extra outcome') :
    Agrees (Outcome.Richer extra) (w.adopt start outcome v)
      (w'.adopt { start with message := { start.message with gas } } outcome' v') := by
  have hcode : v'.host.state.withCode { start with message := { start.message with gas } } outcome' =
      v.host.state.withCode start outcome := by
    unfold HostState.withCode Outcome.isSuccess
    rw [hv.host, h.status, h.output]
  unfold World.adopt
  simp only [hcode, hw.host]
  cases w.host.state.merge (v.host.state.withCode start outcome) with
  | error e => exact ⟨.error _, rfl, hv.session.log ..⟩
  | ok state =>
    have hadopted : ({ outcome with createAddress := start.callee } : Outcome).Richer extra
        { outcome' with createAddress := start.callee } :=
      ⟨h.status, h.output, rfl, h.gasLeft, h.sent, h.sent'⟩
    exact ⟨.ok hadopted, rfl, (hv.session.log ..).log ..⟩

/-- The gas of the messages goes down from frame to frame. -/
theorem callAgrees [Room] (message : Message) : CallAgrees message := by
  generalize hgas : message.gas.toNat = units
  induction units using Nat.strongRecOn generalizing message with
  | ind units ih =>
    intro gas w w' hspares hw hunspent
    have hresolve : (w.resolve message).Alike (w'.resolve { message with gas }) := by
      refine ⟨?_, hw.session.log ..⟩
      unfold World.resolve
      simp only [hw.host]
      rfl
    rw [Host.call_eq, Host.call_eq, callVia_on, callVia_on, hw.host,
      HostState.start_gas w.host.state message gas]
    cases hstart : w.host.state.start message with
    | error failure => exact ⟨.error _, hresolve⟩
    | ok start =>
      have hstartgas : start.message.gas = message.gas := by rw [HostState.start_message hstart]
      have hlaunch : w.launch message = some
          { code := start.code, message := start.message
            world := (w.resolve message).enter start } := by
        unfold World.launch
        rw [hstart]
      have henter : ((w.resolve message).enter start).Alike
          ((w'.resolve { message with gas }).enter
            { start with message := { start.message with gas } }) := by
        refine ⟨?_, hresolve.session.log ..⟩
        unfold World.enter
        simp only [hresolve.host]
        rfl
      have hnested : start.message.Spares gas :=
        ⟨hstartgas ▸ hspares.more, hstartgas ▸ hspares.sent, hspares.sent'⟩
      have hrun := run_agrees hnested
        (fun nested hless => ih nested.gas.toNat (by omega) nested rfl) henter (hunspent _ hlaunch)
      simp only [Except.map]
      generalize (run Host.call start.code start.message).on ((w.resolve message).enter start) = r
        at hrun ⊢
      generalize (run Host.call start.code { start.message with gas }).on _ = r' at hrun ⊢
      obtain ⟨result, v⟩ := r
      obtain ⟨result', v'⟩ := r'
      obtain ⟨hresult, hv⟩ := hrun
      simp only at hresult hv
      cases hresult with
      | error failure => exact ⟨.error _, hresolve.host, hv.session⟩
      | ok hricher =>
        rw [hstartgas] at hricher
        exact World.adopt_agrees hresolve hv start gas hricher

/-- If no frame of a call uses up its gas, the same call with more gas returns or fails like it, and the
host is left as it is left by it. If the call returns with success or reverts, exactly the gas that was
added is left in addition; after any other status none is left of either. Both amounts of gas are to
cross the boundary. -/
theorem call_more_gas [Room] {message : Message} {gas : Int} {w : World} (more : message.gas ≤ gas)
    (sent : ∃ raw, int64? message.gas = some raw) (sent' : ∃ raw, int64? gas = some raw)
    (unspent : ∀ frame, w.launch message = some frame → frame.Unspent) :
    let before := (Host.call message).on w
    let after := (Host.call { message with gas }).on w
    after.2.host = before.2.host ∧
      ((∃ failure, before.1 = .error failure ∧ after.1 = .error failure) ∨
        ∃ outcome outcome', before.1 = .ok outcome ∧ after.1 = .ok outcome' ∧
          outcome'.status = outcome.status ∧ outcome'.output = outcome.output ∧
          outcome'.createAddress = outcome.createAddress ∧
          if outcome.status = .success ∨ outcome.status = .revert then
            outcome'.gasLeft = outcome.gasLeft + (gas - message.gas)
          else outcome.gasLeft = 0 ∧ outcome'.gasLeft = 0) := by
  intro before after
  have halike : w.Alike w := ⟨rfl, ⟨w.session.events, rfl⟩⟩
  obtain ⟨hresult, hhost, -⟩ := callAgrees message gas w w ⟨more, sent, sent'⟩ halike unspent
  refine ⟨hhost, ?_⟩
  change Relates _ before.1 after.1 at hresult
  generalize before.1 = result at hresult
  generalize after.1 = result' at hresult
  cases hresult with
  | error failure => exact Or.inl ⟨failure, rfl, rfl⟩
  | @ok outcome outcome' h =>
    exact Or.inr ⟨outcome, outcome', rfl, rfl, h.status, h.output, h.createAddress, h.gasLeft⟩

section

attribute [local instance] Room.usual

/-- A call and a creation below it use the gas up to the last unit without running out of it. With more
gas the nested call has more as well, which it does not give back. -/
theorem call_more_gas_nested :
    let w := World.calling [0x60, 0, 0x60, 0, 0x60, 0, 0xf0]
    let message : Message := { gas := 12, destination := .ofNat 1 }
    let before := (Host.call message).on w
    let after := (Host.call { message with gas := 100 }).on w
    before.1 = .ok { gasLeft := 4, createAddress := .ofNat 1 } ∧ after.2.host = before.2.host ∧
      ∃ outcome, after.1 = .ok outcome ∧ outcome.gasLeft = 92 := by
  intro w message before after
  have hbefore : before.1 = .ok { gasLeft := 4, createAddress := .ofNat 1 } := by decide +kernel
  have hmore : message.gas ≤ 100 := by decide
  have hunspent : ∀ frame, w.launch message = some frame → frame.Unspent :=
    w.unspent_of_unspentTo message 4 (by decide +kernel)
  obtain ⟨hhost, hresult⟩ := call_more_gas hmore ⟨12, rfl⟩ ⟨100, rfl⟩ hunspent
  refine ⟨hbefore, hhost, ?_⟩
  rcases hresult with ⟨failure, hfails, -⟩ | ⟨outcome, outcome', hreturns, hafter, -, -, -, hgas⟩
  · cases hbefore.symm.trans hfails
  · cases hbefore.symm.trans hreturns
    exact ⟨outcome', hafter, hgas⟩

end

section

attribute [local instance] Room.usual

/-- A message with too little gas to cross the boundary fails, though no frame of it uses up its gas, and
the same message without gas returns. -/
theorem call_more_gas_unsent :
    let w := World.calling []
    let message : Message := { gas := -9223372036854775809, destination := .ofNat 3 }
    message.gas ≤ 0 ∧ (∃ raw, int64? 0 = some raw) ∧
      (∀ frame, w.launch message = some frame → frame.Unspent) ∧
      ((Host.call message).on w).1 = .error (.fault .outOfRange) ∧
      ((Host.call { message with gas := 0 }).on w).1 = .ok { createAddress := .ofNat 3 } := by
  intro w message
  have hunspent : ∀ frame, w.launch message = some frame → frame.Unspent :=
    w.unspent_of_unspentTo message 1 (by decide +kernel)
  exact ⟨by decide, ⟨0, rfl⟩, hunspent, by decide +kernel, by decide +kernel⟩

end

end ContractHost
