import ContractHost.Execution

/-!
# What one step of a host does

Each operation of a host as a function of the world it starts from. Later modules read these equations
and open no program again.

* `stateAnswer_on`: the answer to a question other than a call, by `Host.reply`.
* `callVia_on`: how a call starts (`HostState.start`), runs its nested frame, and ends
  (`World.adopt`).
-/

namespace ContractHost

@[simp]
theorem mapError_ok {ε ε' α : Type} (f : ε → ε') (a : α) :
    (Except.ok a).mapError f = .ok a := rfl

@[simp]
theorem mapError_error {ε ε' α : Type} (f : ε → ε') (e : ε) :
    (Except.error e : Except ε α).mapError f = .error (f e) := rfl

/-- Whether two results are the same can be decided. -/
instance decEqResult {ε α : Type} [DecidableEq ε] [DecidableEq α] : DecidableEq (Except ε α)
  | .ok a, .ok b => decidable_of_iff (a = b) ⟨congrArg _, Except.ok.inj⟩
  | .error a, .error b => decidable_of_iff (a = b) ⟨congrArg _, Except.error.inj⟩
  | .ok _, .error _ => isFalse nofun
  | .error _, .ok _ => isFalse nofun

namespace Run

variable {α β : Type}

/-- The result of a program and the world it leaves. -/
def on (program : Run α) (w : World) : Except Failure α × World :=
  match program.run w with
  | .ok a w => (.ok a, w)
  | .error failure w => (.error failure, w)

theorem on_eq_ok_iff {program : Run α} {w w' : World} {a : α} :
    program.on w = (.ok a, w') ↔ program.run w = .ok a w' := by
  unfold on
  cases program.run w <;> simp

theorem on_eq_error_iff {program : Run α} {w w' : World} {failure : Failure} :
    program.on w = (.error failure, w') ↔ program.run w = .error failure w' := by
  unfold on
  cases program.run w <;> simp

theorem run_of_ok {program : Run α} {w : World} {a : α} (h : (program.on w).1 = .ok a) :
    program.run w = .ok a (program.on w).2 :=
  on_eq_ok_iff.1 (Prod.ext h rfl)

theorem run_of_error {program : Run α} {w : World} {failure : Failure}
    (h : (program.on w).1 = .error failure) : program.run w = .error failure (program.on w).2 :=
  on_eq_error_iff.1 (Prod.ext h rfl)

@[simp]
theorem on_pure (a : α) (w : World) : (pure a : Run α).on w = (.ok a, w) := rfl

@[simp]
theorem on_throw (failure : Failure) (w : World) :
    (throw failure : Run α).on w = (.error failure, w) := rfl

@[simp]
theorem on_get (w : World) : (get : Run World).on w = (.ok w, w) := rfl

@[simp]
theorem on_state (w : World) : state.on w = (.ok w.host.state, w) := rfl

@[simp]
theorem on_setState (s : HostState) (w : World) :
    (setState s).on w = (.ok (), { w with host := { w.host with state := s } }) := rfl

@[simp]
theorem on_note (event : Event) (w : World) :
    (note event).on w = (.ok (), { w with session := w.session.note event }) := rfl

theorem on_bind (program : Run α) (next : α → Run β) (w : World) :
    (program >>= next).on w =
      match program.on w with
      | (.ok a, w) => (next a).on w
      | (.error failure, w) => (.error failure, w) := by
  simp only [on, bind, EStateM.bind, EStateM.run]
  cases program w <;> rfl

theorem on_map (f : α → β) (program : Run α) (w : World) :
    (f <$> program).on w =
      match program.on w with
      | (.ok a, w) => (.ok (f a), w)
      | (.error failure, w) => (.error failure, w) := by
  rw [map_eq_pure_bind, on_bind]
  rfl

theorem on_ofFault (x : Except Fault α) (w : World) :
    (ofFault x).on w = (x.mapError .fault, w) := by
  cases x <;> rfl

theorem on_ofFatal (x : Except FatalError α) (w : World) :
    (ofFatal x).on w = (x.mapError .fatal, w) := by
  cases x <;> rfl

end Run

/-! ## Scripts -/

/-- What each answer keeps, a whole script keeps. -/
theorem Interpreter.Script.answerWith_rel {α σ : Type} {R : σ → σ → Prop}
    {answer : (q : Query) → σ → q.Answer × σ} (refl : ∀ s, R s s)
    (trans : ∀ {a b c}, R a b → R b c → R a c) (step : ∀ q s, R s (answer q s).2)
    (script : Script α) (s : σ) : R s (script.answerWith answer s).2 := by
  induction script generalizing s with
  | done value => exact refl s
  | ask q next ih => exact trans (step q s) (ih _ _)

/-! ## Questions -/

/-- The answer of a host to a question other than a call, and its state afterwards. -/
def Host.reply (host : Host) : (q : Query) → Except Failure q.Answer × HostState
  | .txContext => (host.tx.toRaw.mapError .fault, host.state)
  | .accountExists address => (.ok (host.state.accountExists address), host.state)
  | .getStorage address key => (.ok (host.state.getStorage address key), host.state)
  | .setStorage address key value =>
    let (status, s) := host.state.setStorage address key value
    (status.mapError .fatal, s)
  | .getBalance address => (.ok (host.state.getBalance address), host.state)
  | .getCodeSize address => (.ok (host.state.getCodeSize address), host.state)
  | .getCodeHash address => (.ok (host.state.getCodeHash address), host.state)
  | .copyCode address offset size =>
    (.ok (host.state.copyCode address offset.toNat size.toNat), host.state)
  | .selfdestruct address beneficiary => (.ok (), host.state.selfdestruct address beneficiary)
  | .call message => (.ok (Query.neutral (.call message)), host.state)
  | .getBlockHash number => (.ok (host.state.getBlockHash number.toInt), host.state)
  | .emitLog address data topics => (.ok (), host.state.emitLog address data topics)

theorem stateAnswer_on (q : Query) (w : World) :
    (Methods.stateAnswer q).on w =
      ((w.host.reply q).1, { w with host := { w.host with state := (w.host.reply q).2 } }) := by
  cases q with
  | txContext => simp [Methods.stateAnswer, Host.reply, Run.on_bind, Run.on_ofFault]
  | setStorage address key value =>
    simp [Methods.stateAnswer, Host.reply, Run.on_bind, Run.on_ofFatal]
  | _ => rfl

/-- What follows the answer to a question: the interpreter notes the status of a write. -/
def Query.told : (q : Query) → q.Answer → List Event
  | .setStorage .., status => [.told status]
  | _, _ => []

/-- Whether a question is a call. -/
def Query.isCall : Query → Bool
  | .call _ => true
  | _ => false

theorem Query.call_or_not (q : Query) : (∃ raw, q = .call raw) ∨ q.isCall = false := by
  cases q with
  | call raw => exact Or.inl ⟨raw, rfl⟩
  | _ => exact Or.inr rfl

/-! ## Calls -/

/-- The session with more events, given in the order in which they happened. -/
def Session.log (session : Session) (trace : List Event) : Session :=
  { session with events := trace.reverse ++ session.events }

theorem Session.note_eq_log (session : Session) (event : Event) :
    session.note event = session.log [event] := rfl

theorem Session.log_log (session : Session) (first second : List Event) :
    (session.log first).log second = session.log (first ++ second) := by
  simp [log]

/-- The first error stays, be it a fatal error itself or a fault wrapped in one. -/
theorem Session.record_fatal (session : Session) (function : String) (failure : Failure) :
    (session.record function failure).fatal =
      session.fatal.or (some (failure.recorded function)) := rfl

theorem Session.record_events (session : Session) (function : String) (failure : Failure) :
    (session.record function failure).events =
      .failed function (failure.recorded function) :: session.events := rfl

/-- The outcome that the native side makes of an ending. -/
def Interpreter.Ending.outcome : Interpreter.Ending → Outcome
  | .halted status gasLeft output => { status, gasLeft, output }
  | .crashed _ => .failed .internalError

/-- The crash that an ending is, if it is one. -/
def Interpreter.Ending.crash : Interpreter.Ending → List Event
  | .halted .. => []
  | .crashed cause => [.crashed cause]

/-- The session after an ending, whose output was lent and given back. -/
def Session.conclude (session : Session) (ending : Interpreter.Ending) : Session :=
  let (ticket, produced) := session.produced.lend ending.outcome.output
  { session.log ending.crash with produced := produced.giveBack ticket }

theorem produce_eq (ending : Interpreter.Ending) (session : Session) :
    produce ending session = (ending.outcome, session.conclude ending) := by
  cases ending <;> rfl

theorem raiseFatal_eq (session : Session) :
    raiseFatal session =
      (match session.fatal with
        | some e => .error (.fatal e)
        | none => .ok (),
        { session with fatal := none }) := by
  unfold raiseFatal Session.takeFatal
  cases session.fatal <;> rfl

/-- A nested frame that is about to start. -/
structure Start where
  callee : Address
  code : Bytes
  /-- The message as it runs. -/
  message : Message

namespace HostState

/-- Whether a message makes a contract whose address can be derived. -/
def derives (s : HostState) (message : Message) : Bool :=
  message.kind.isCreate && (s.resolveCallee message).1.isOk

theorem resolveCallee_state (s : HostState) (message : Message) :
    (s.resolveCallee message).2 =
      if s.derives message then (s.touch message.sender).advanceNonce message.sender
      else s.touch message.sender := by
  unfold derives resolveCallee
  cases message.kind with
  | create =>
    cases hd : Derivation.create message.sender
        ((s.touch message.sender).account message.sender).nonce <;>
      simp [hd, CallKind.isCreate, Except.isOk, Except.toBool]
  | _ => rfl

/-- What happens when a message is resolved. -/
def resolution (s : HostState) (message : Message) : List Event :=
  .touched message.sender ::
    if s.derives message then
      [.counted message.sender (s.account message.sender).nonce message.kind] else []

/-- The nested frame that a message starts, or why it starts none. -/
def start (s : HostState) (message : Message) : Except Failure Start :=
  match s.resolveCallee message with
  | (.error cause, _) => .error (.fault cause)
  | (.ok callee, s) =>
    if message.kind.isCreate then
      .ok { callee, code := message.input
            message := { message with destination := callee, input := [] } }
    else
      match (s.find? callee).bind (·.code) with
      | some code => .ok { callee, code, message }
      | none => .error (.fatal (.noCode callee message.kind))

/-- The state of a nested frame once it is over: a contract that was made is given its code. -/
def withCode (s : HostState) (start : Start) (outcome : Outcome) : HostState :=
  if outcome.isSuccess && start.message.kind.isCreate then s.deploy start.callee outcome.output
  else s

end HostState

/-- What happens when a contract that was made is given its code. -/
def Start.deployment (start : Start) (outcome : Outcome) : List Event :=
  if outcome.isSuccess && start.message.kind.isCreate then
    [.deployed start.callee outcome.output] else []

namespace World

/-- The world in which a message is resolved. -/
def resolve (w : World) (message : Message) : World where
  host := { w.host with state := (w.host.state.resolveCallee message).2 }
  session := w.session.log (w.host.state.resolution message)

/-- The start of a nested frame, as it is noted. -/
def spawn (w : World) (start : Start) : Spawn where
  parentDepth := w.host.state.depth
  childDepth := start.message.depth + 1
  kind := start.message.kind
  sender := start.message.sender
  callee := start.callee
  gas := start.message.gas

/-- The world of a nested frame. -/
def enter (w : World) (start : Start) : World where
  host := w.host.spawnChild start.message start.callee
  session := w.session.log [.spawned (w.spawn start)]

/-- The end of a call whose nested frame gave an outcome and left a world. -/
def adopt (w : World) (start : Start) (outcome : Outcome) (child : World) :
    Except Failure Outcome × World :=
  let session := child.session.log (start.deployment outcome)
  match w.host.state.merge (child.host.state.withCode start outcome) with
  | .error e => (.error (.fatal (.merge e)), { w with session })
  | .ok state =>
    let outcome := { outcome with createAddress := start.callee }
    (.ok outcome,
      { host := { w.host with state }
        session := session.log [.finished start.message.kind start.callee outcome] })

end World

theorem resolveCallee_on (message : Message) (w : World) :
    (resolveCallee message).on w =
      ((w.host.state.resolveCallee message).1.mapError .fault, w.resolve message) := by
  cases hr : w.host.state.resolveCallee message with
  | mk callee s =>
    cases callee with
    | error cause =>
      simp [resolveCallee, Run.on_bind, Run.on_ofFault, hr, World.resolve, HostState.resolution,
        HostState.derives, Except.isOk, Except.toBool, Session.note_eq_log]
    | ok callee =>
      cases hk : message.kind.isCreate <;>
        simp [resolveCallee, Run.on_bind, Run.on_map, Run.on_ofFault, hr, hk, World.resolve,
          HostState.resolution, HostState.derives, Except.isOk, Except.toBool,
          Session.note_eq_log, Session.log_log]

theorem onChild_on {α : Type} (child : Host) (program : Run α) (w : World) :
    (onChild child program).on w =
      match program.on { w with host := child } with
      | (.ok a, v) => (.ok (a, v.host), { w with session := v.session })
      | (.error failure, v) => (.error failure, { w with session := v.session }) := by
  simp only [onChild, Run.on, EStateM.run]
  cases program { w with host := child } <;> rfl

theorem codeFor_on {message : Message} {callee : Address} {s s' : HostState}
    (hr : s.resolveCallee message = (.ok callee, s')) {w : World} (hw : w.host.state = s') :
    (codeFor message callee).on w =
      ((s.start message).map fun start => (start.code, start.message), w) := by
  subst hw
  cases hk : message.kind.isCreate with
  | true => simp [codeFor, HostState.start, hr, hk, Except.map]
  | false =>
    cases hc : (w.host.state.find? callee).bind (·.code) <;>
      simp [codeFor, HostState.start, hr, hk, hc, Run.on_bind, Except.map]

theorem HostState.start_callee {s : HostState} {message : Message} {start : Start}
    (h : s.start message = .ok start) : (s.resolveCallee message).1 = .ok start.callee := by
  unfold HostState.start at h
  split at h
  · cases h
  · rename_i callee s' hr
    rw [hr]
    split at h
    · cases h
      rfl
    · split at h <;> cases h
      rfl

/-- A call goes on from the nested frame that its message starts, if it starts one. -/
theorem start_on {α : Type} (next : Address → Bytes × Message → Run α) (message : Message)
    (w : World) :
    (resolveCallee message >>= fun callee => codeFor message callee >>= next callee).on w =
      match w.host.state.start message with
      | .error failure => (.error failure, w.resolve message)
      | .ok start => (next start.callee (start.code, start.message)).on (w.resolve message) := by
  rw [Run.on_bind, resolveCallee_on]
  cases hr : w.host.state.resolveCallee message with
  | mk callee s =>
    cases callee with
    | error cause => simp [HostState.start, hr]
    | ok callee =>
      have hs : (w.resolve message).host.state = s := by simp [World.resolve, hr]
      simp only [mapError_ok, Run.on_bind, codeFor_on hr hs]
      cases hstart : w.host.state.start message with
      | error failure => rfl
      | ok start =>
        have hc : callee = start.callee := by
          have := HostState.start_callee hstart
          rw [hr] at this
          exact Except.ok.inj this
        rw [hc]
        rfl

theorem callVia_on (run : Bytes → Message → Run Outcome) (message : Message) (w : World) :
    (callVia run message).on w =
      match w.host.state.start message with
      | .error failure => (.error failure, w.resolve message)
      | .ok start =>
        match (run start.code start.message).on ((w.resolve message).enter start) with
        | (.error failure, v) => (.error failure, { w.resolve message with session := v.session })
        | (.ok outcome, v) => (w.resolve message).adopt start outcome v := by
  refine (start_on _ message w).trans ?_
  cases w.host.state.start message with
  | error failure => rfl
  | ok start =>
    have henter : World.mk ((w.resolve message).host.spawnChild start.message start.callee)
        ((w.resolve message).session.note (.spawned
          { parentDepth := (w.resolve message).host.state.depth
            childDepth :=
              ((w.resolve message).host.spawnChild start.message start.callee).state.depth
            kind := start.message.kind, sender := start.message.sender, callee := start.callee
            gas := start.message.gas })) = (w.resolve message).enter start := rfl
    simp only [Run.on_bind, Run.on_get, Run.on_note, onChild_on, henter]
    cases hn : (run start.code start.message).on ((w.resolve message).enter start) with
    | mk result v =>
      cases result with
      | error failure => rfl
      | ok outcome =>
        simp only [World.adopt, HostState.withCode, Start.deployment]
        cases outcome.isSuccess && start.message.kind.isCreate with
        | true =>
          cases hm : (w.resolve message).host.state.merge
              (v.host.state.deploy start.callee outcome.output) <;>
            simp [Run.on_bind, Run.on_map, Run.on_ofFatal, hm, Session.note_eq_log, Session.log_log]
        | false =>
          cases hm : (w.resolve message).host.state.merge v.host.state <;>
            simp [Run.on_bind, Run.on_map, Run.on_ofFatal, hm, Session.note_eq_log, Session.log]

/-- A call that returns started a nested frame and adopted what it left. -/
theorem callVia_returns {run : Bytes → Message → Run Outcome} {message : Message} {w w' : World}
    {outcome : Outcome} (h : (callVia run message).on w = (.ok outcome, w')) :
    ∃ start inner v, w.host.state.start message = .ok start ∧
      (run start.code start.message).on ((w.resolve message).enter start) = (.ok inner, v) ∧
      (w.resolve message).adopt start inner v = (.ok outcome, w') := by
  rw [callVia_on] at h
  cases hs : w.host.state.start message with
  | error failure =>
    rw [hs] at h
    cases h
  | ok start =>
    rw [hs] at h
    simp only at h
    cases hr : (run start.code start.message).on ((w.resolve message).enter start) with
    | mk result v =>
      rw [hr] at h
      cases result with
      | error failure => cases h
      | ok inner => exact ⟨start, inner, v, rfl, hr, h⟩

/-- A call fails before its nested frame starts, with it, or in adopting it. -/
theorem callVia_fails {run : Bytes → Message → Run Outcome} {message : Message} {w w' : World}
    {failure : Failure} (h : (callVia run message).on w = (.error failure, w')) :
    w.host.state.start message = .error failure ∧ w' = w.resolve message ∨
      ∃ start, w.host.state.start message = .ok start ∧
        ((∃ v, (run start.code start.message).on ((w.resolve message).enter start) =
            (.error failure, v) ∧ w' = { w.resolve message with session := v.session }) ∨
          ∃ inner v, (run start.code start.message).on ((w.resolve message).enter start) =
              (.ok inner, v) ∧ (w.resolve message).adopt start inner v = (.error failure, w')) := by
  rw [callVia_on] at h
  cases hs : w.host.state.start message with
  | error failure' =>
    rw [hs] at h
    cases h
    exact Or.inl ⟨rfl, rfl⟩
  | ok start =>
    rw [hs] at h
    simp only at h
    refine Or.inr ⟨start, rfl, ?_⟩
    cases hr : (run start.code start.message).on ((w.resolve message).enter start) with
    | mk result v =>
      rw [hr] at h
      cases result with
      | error failure' =>
        cases h
        exact Or.inl ⟨v, rfl, rfl⟩
      | ok inner => exact Or.inr ⟨inner, v, rfl, h⟩

theorem World.adopt_session (w v : World) (start : Start) (outcome : Outcome) :
    (w.adopt start outcome v).2.session.arena = v.session.arena ∧
      (w.adopt start outcome v).2.session.fatal = v.session.fatal := by
  unfold World.adopt
  simp only
  cases w.host.state.merge (v.host.state.withCode start outcome) <;> exact ⟨rfl, rfl⟩

theorem World.adopt_ok {w v w' : World} {start : Start} {inner outcome : Outcome}
    (h : w.adopt start inner v = (.ok outcome, w')) :
    (v.host.state.withCode start inner).overlap = [] ∧
      outcome = { inner with createAddress := start.callee } ∧
      w' =
        { host :=
            { state := (v.host.state.withCode start inner).clone w.host.state.depth
                w.host.state.currentAccount
              tx := w.host.tx }
          session := (v.session.log (start.deployment inner)).log
            [.finished start.message.kind start.callee outcome] } := by
  unfold World.adopt at h
  simp only at h
  cases hmerge : w.host.state.merge (v.host.state.withCode start inner) with
  | error e =>
    rw [hmerge] at h
    cases h
  | ok state =>
    obtain ⟨-, hoverlap, rfl⟩ := HostState.merge_ok_iff.1 hmerge
    rw [hmerge] at h
    cases h
    exact ⟨hoverlap, rfl, rfl⟩

theorem World.adopt_error {w v w' : World} {start : Start} {inner : Outcome} {failure : Failure}
    (h : w.adopt start inner v = (.error failure, w')) : w'.host = w.host := by
  unfold World.adopt at h
  simp only at h
  cases hmerge : w.host.state.merge (v.host.state.withCode start inner) with
  | error e =>
    rw [hmerge] at h
    cases h
    rfl
  | ok state =>
    rw [hmerge] at h
    cases h

/-! ## Small worlds -/

/-- A world in which nothing has happened. The code of one address calls another one, whose code is
given. -/
def World.calling (code : Bytes) : World where
  host := { state := (({} : HostState).deploy (.ofNat 1)
    [0x60, 0, 0x60, 0, 0x60, 0, 0x60, 0, 0x60, 0, 0x60, 3, 0x60, 30, 0xf1]).deploy (.ofNat 3) code }
  session := {}

/-- Code that writes a slot and then calls an address without code. -/
def strandedCode : Bytes :=
  [0x60, 1, 0x60, 0, 0x55, 0x60, 0, 0x60, 0, 0x60, 0, 0x60, 0, 0x60, 0, 0x60, 7, 0x60, 9, 0xf1]

end ContractHost
