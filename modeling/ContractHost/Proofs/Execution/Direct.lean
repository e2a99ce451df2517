import ContractHost.Proofs.Execution.Boundary

/-!
# Execution without handles

The same execution with the arena taken out: a nested frame gets its host in hand, so a question is put
to it without a look-up. What hosts answer, what is recorded and what is noted is as before. The two
agree while every slot of the arena has a handle, and then most statements about a run need not mention
the arena at all.

* `Direct.run`, `Direct.call`: running and calling in this form.
* `Mirrors`: the two forms of a program agree.
* `call_mirrors`: the two forms of a call agree.
-/

namespace ContractHost

open Interpreter

/-- The session without what the arena holds. -/
def Session.bare (session : Session) : Session :=
  { session with arena := { base := session.arena.base } }

/-- The world without what the arena holds. -/
def World.bare (w : World) : World := { w with session := w.session.bare }

namespace Direct

/-- Puts a question other than a call to a host. -/
def question (q : Query) (w : World) : q.Answer × World :=
  match w.host.reply q with
  | (.ok answer, state) =>
    (answer, { host := { w.host with state }, session := w.session.note (.answered q answer) })
  | (.error failure, state) =>
    (q.neutral, { host := { w.host with state }, session := w.session.record q.function failure })

/-- Asks a host for a call. -/
def request (call : Message → Run Outcome) (raw : RawMessage) (w : World) : RawOutcome × World :=
  let q : Query := .call raw
  let fail (failure : Failure) (w : World) : RawOutcome × World :=
    (q.neutral, { w with session := w.session.record q.function failure })
  match raw.toMessage with
  | .error cause => fail (.fault cause) w
  | .ok message =>
    match (call message).on w with
    | (.error failure, w) => fail failure w
    | (.ok outcome, w) =>
      match w.session.lend outcome with
      | .error cause => fail (.fault cause) w
      | .ok (raw, session) => (raw, { w with session })

/-- Serves the interpreter's question. -/
def serve (call : Message → Run Outcome) : (q : Query) → World → q.Answer × World
  | .call raw, w =>
    let (answer, w) := request call raw w
    (answer, { w with session := w.session.release answer })
  | q, w =>
    let (answer, w) := question q w
    (answer, { w with session := w.session.log (q.told answer) })

/-- Runs code for a message on the host of a world. -/
def execute [Room] (call : Message → Run Outcome) (code : Bytes) (message : Message) (w : World) :
    Except Failure Outcome × World :=
  let w := (question .txContext w).2
  match raiseFatal w.session with
  | (.error failure, session) => (.error failure, { w with session })
  | (.ok (), session) =>
    match message.toRaw with
    | .error cause => (.error (.fault cause), { w with session })
    | .ok _ =>
      let (ending, w) := (interpret message code).answerWith (serve call) { w with session }
      match raiseFatal (w.session.conclude ending) with
      | (.error failure, session) => (.error failure, { w with session })
      | (.ok (), session) => (.ok ending.outcome, { w with session })

/-- Runs code for a message on a host that the arena would take in. -/
def run [Room] (call : Message → Run Outcome) (code : Bytes) (message : Message) : Run Outcome := fun w =>
  if Host.kind.isA w.session.arena.base then
    match execute call code message w with
    | (.ok outcome, w) => .ok outcome w
    | (.error failure, w) => .error failure w
  else .error (.fatal (.arena (.unregistrable Host.kind.name w.session.arena.base.name))) w

/-- Runs code on a host whose frames nest at most so deep. -/
def runWithin [Room] : (depth : Nat) → Bytes → Message → Run Outcome
  | 0, code, message => run (fun _ => return .failed .internalError) code message
  | depth + 1, code, message => run (callVia (runWithin depth)) code message

/-- Serves a call. -/
def call [Room] (message : Message) : Run Outcome := callVia (runWithin message.gas.toNat) message

theorem serve_of_not_call {call : Message → Run Outcome} {q : Query} (w : World)
    (hq : q.isCall = false) :
    serve call q w = ((question q w).1,
      { (question q w).2 with
        session := (question q w).2.session.log (q.told (question q w).1) }) := by
  cases q with
  | call => cases hq
  | _ => rfl

theorem run_on [Room] (call : Message → Run Outcome) (code : Bytes) (message : Message) (w : World) :
    (run call code message).on w =
      if Host.kind.isA w.session.arena.base then execute call code message w
      else
        (.error (.fatal (.arena (.unregistrable Host.kind.name w.session.arena.base.name))), w) := by
  unfold Run.on EStateM.run run
  cases Host.kind.isA w.session.arena.base with
  | false => rfl
  | true =>
    simp only [if_true]
    obtain ⟨result, v⟩ := execute call code message w
    cases result <;> rfl

/-- A frame that returns found no recorded error, neither before its interpreter started nor after. -/
theorem execute_eq_ok_iff [Room] {call : Message → Run Outcome} {code : Bytes} {message : Message}
    {w w' : World} {outcome : Outcome} :
    execute call code message w = (.ok outcome, w') ↔
      (question .txContext w).2.session.fatal = none ∧ (∃ raw, message.toRaw = .ok raw) ∧
        ∃ ending u, (interpret message code).answerWith (serve call)
            (question .txContext w).2 = (ending, u) ∧
          (u.session.conclude ending).fatal = none ∧ outcome = ending.outcome ∧
          w' = { u with session := u.session.conclude ending } := by
  unfold execute
  simp only [raiseFatal_eq]
  generalize (question .txContext w).2 = v
  cases hv : v.session.fatal with
  | some e => simp
  | none =>
    have hclear : { v with session := { v.session with fatal := none } } = v := by rw [← hv]
    cases message.toRaw with
    | error cause => simp
    | ok raw =>
      simp only [hclear]
      generalize (interpret message code).answerWith (serve call) v = played
      obtain ⟨ending, u⟩ := played
      have hcleared (hend : (u.session.conclude ending).fatal = none) :
          { u.session.conclude ending with fatal := none } = u.session.conclude ending := by
        rw [← hend]
      constructor
      · intro h
        cases hend : (u.session.conclude ending).fatal with
        | some e =>
          simp only [hend] at h
          cases h
        | none =>
          simp only [hend, hcleared hend] at h
          cases h
          exact ⟨trivial, ⟨raw, rfl⟩, ending, u, rfl, hend, rfl, rfl⟩
      · rintro ⟨-, -, ending', u', hplayed, hend, rfl, rfl⟩
        cases hplayed
        simp only [hend, hcleared hend]

end Direct

/-! ## One frame -/

theorem Host.isA_baseKind : Host.kind.isA Host.baseKind = true := rfl

/-- The session of a frame whose host has a seat, and the same frame with its host in hand. `before` is
the arena that the frame started from. -/
structure FrameMirror (before : Arena Host) (seat : Seat) (session : Session) (w : World) : Prop where
  tidy : session.arena.Tidy
  seated : session.arena.Seated seat Host.kind w.host
  vacant : before.Vacant seat.index
  keeps : before.Keeps session.arena
  bare : w.session = session.bare

/-- Two forms of a program agree as long as every slot has a handle. The form on the arena leaves it
tidy, with the objects that it held. -/
def Mirrors {α : Type} (program direct : Run α) : Prop :=
  ∀ w, w.session.arena.Tidy → (program.on w).2.session.arena.slots.length < Handle.places →
    direct.on w.bare = ((program.on w).1, (program.on w).2.bare) ∧
      (program.on w).2.session.arena.Tidy ∧
      w.session.arena.Keeps (program.on w).2.session.arena

theorem Mirrors.pure {α : Type} (a : α) : Mirrors (Pure.pure a) (Pure.pure a) :=
  fun _ tidy _ => ⟨rfl, tidy, Arena.Keeps.refl _⟩

section Frame

variable {α : Type} {before : Arena Host} {seat : Seat} {session : Session} {w : World}

theorem FrameMirror.change (frame : FrameMirror before seat session w) (change : Session → Session)
    (harena : (change session).arena = session.arena)
    (hbare : (change session).bare = change session.bare) :
    FrameMirror before seat (change session) { w with session := change w.session } where
  tidy := harena ▸ frame.tidy
  seated := harena ▸ frame.seated
  vacant := frame.vacant
  keeps := harena ▸ frame.keeps
  bare := by rw [frame.bare, hbare]

/-- A program on the host of a frame: the host is found, and its last form goes back to its slot. -/
theorem FrameMirror.borrowing (frame : FrameMirror before seat session w) {program : Run α}
    {result : Except Failure α} {v : World}
    (hprogram : program.on { host := w.host, session } = (result, v)) (tidy : v.session.arena.Tidy)
    (keeps : session.arena.Keeps v.session.arena) :
    ∃ session', ContractHost.borrowing seat.handle program session = (result, session') ∧
      FrameMirror before seat session' v.bare := by
  obtain ⟨hholds, hseated, htidy, hothers⟩ :=
    Arena.update_seated (frame.seated.of_keeps keeps) tidy w.host v.host
  have hkeeps := (frame.keeps.trans keeps).of_vacant frame.vacant hothers
  have hgranted := borrowing_granted (Arena.resolve_seated frame.seated Host.isA_baseKind) hprogram
  refine ⟨_, hgranted.trans (Prod.ext ?_ rfl), htidy, hseated, frame.vacant, hkeeps, ?_⟩
  · simp only [Arena.endLoan, hholds, if_true]
    cases result <;> rfl
  · simp only [World.bare, Session.bare, Arena.base_update]

theorem FrameMirror.dispatchQuestion (frame : FrameMirror before seat session w)
    (call : Message → Run Outcome) (q : Query) :
    ∃ session', ContractHost.dispatchQuestion (.ofCall call) seat.handle q session =
        ((Direct.question q w).1, session') ∧
      FrameMirror before seat session' (Direct.question q w).2 := by
  have hprogram := stateAnswer_on q { host := w.host, session }
  obtain ⟨session', hborrow, hframe⟩ :=
    frame.borrowing hprogram frame.tidy (Arena.Keeps.refl _)
  unfold ContractHost.dispatchQuestion Direct.question
  simp only [Methods.ofCall, hborrow, frame.bare]
  cases hreply : w.host.reply q with
  | mk result state =>
    simp only [hreply] at hframe
    cases result with
    | error failure => exact ⟨_, rfl, hframe.change (·.record q.function failure) rfl rfl⟩
    | ok answer => exact ⟨_, rfl, hframe.change (·.note (.answered q answer)) rfl rfl⟩

theorem FrameMirror.dispatchCall (frame : FrameMirror before seat session w)
    {call direct : Message → Run Outcome} (hmirrors : ∀ m, Mirrors (call m) (direct m))
    (raw : RawMessage)
    (room : (ContractHost.dispatchCall (.ofCall call) seat.handle raw session).2.arena.slots.length <
      Handle.places) :
    ∃ session', ContractHost.dispatchCall (.ofCall call) seat.handle raw session =
        ((Direct.request direct raw w).1, session') ∧
      FrameMirror before seat session' (Direct.request direct raw w).2 := by
  unfold ContractHost.dispatchCall Direct.request
  cases hraw : raw.toMessage with
  | error cause =>
    exact ⟨_, rfl, frame.change (·.record (Query.call raw).function (.fault cause)) rfl rfl⟩
  | ok message =>
    have hw : w = World.bare { host := w.host, session } := by rw [World.bare, ← frame.bare]
    cases hprogram : (call message).on { host := w.host, session } with
    | mk result v =>
      have hresolve := Arena.resolve_seated frame.seated Host.isA_baseKind
      rw [dispatchCall_arena hraw hresolve hprogram, Arena.length_update] at room
      obtain ⟨hdirect, htidy, hkeeps⟩ :=
        hmirrors message { host := w.host, session } frame.tidy (by rwa [hprogram])
      rw [hprogram] at hdirect htidy hkeeps
      obtain ⟨session', hborrow, hframe⟩ := frame.borrowing hprogram htidy hkeeps
      rw [← hw] at hdirect
      simp only [Methods.ofCall, hborrow, hdirect]
      cases result with
      | error failure => exact ⟨_, rfl, hframe.change (·.record _ failure) rfl rfl⟩
      | ok outcome =>
        have hlent : v.bare.session.lent = session'.lent := by rw [hframe.bare]; rfl
        simp only [Session.lend, hlent]
        cases int64? outcome.gasLeft with
        | none => exact ⟨_, rfl, hframe.change (·.record _ (.fault .outOfRange)) rfl rfl⟩
        | some gasLeft =>
          exact ⟨_, rfl, hframe.change
            (fun s => { s with lent := (session'.lent.lend outcome.output).2 }) rfl rfl⟩

theorem FrameMirror.serve (frame : FrameMirror before seat session w)
    {call direct : Message → Run Outcome} (hmirrors : ∀ m, Mirrors (call m) (direct m)) (q : Query)
    (room : (ContractHost.serve (.ofCall call) seat.handle q session).2.arena.slots.length <
      Handle.places) :
    ∃ session', ContractHost.serve (.ofCall call) seat.handle q session =
        ((Direct.serve direct q w).1, session') ∧
      FrameMirror before seat session' (Direct.serve direct q w).2 := by
  rcases q.call_or_not with ⟨raw, rfl⟩ | hq
  · obtain ⟨session', hcall, hframe⟩ := frame.dispatchCall hmirrors raw room
    unfold ContractHost.serve Direct.serve
    simp only [hcall]
    exact ⟨_, rfl, hframe.change (·.release (Direct.request direct raw w).1) rfl rfl⟩
  · obtain ⟨session', hquestion, hframe⟩ := frame.dispatchQuestion call q
    rw [serve_of_not_call session hq, Direct.serve_of_not_call w hq, hquestion]
    exact ⟨_, rfl, hframe.change (·.log (q.told (Direct.question q w).1)) rfl rfl⟩

theorem FrameMirror.answerWith (frame : FrameMirror before seat session w)
    {call direct : Message → Run Outcome} (hcall : ∀ m, (call m).Onward)
    (hmirrors : ∀ m, Mirrors (call m) (direct m)) (script : Script α)
    (room : (script.answerWith (ContractHost.serve (.ofCall call) seat.handle)
      session).2.arena.slots.length < Handle.places) :
    ∃ session', script.answerWith (ContractHost.serve (.ofCall call) seat.handle) session =
        ((script.answerWith (Direct.serve direct) w).1, session') ∧
      FrameMirror before seat session' (script.answerWith (Direct.serve direct) w).2 := by
  induction script generalizing session w with
  | done value => exact ⟨session, rfl, frame⟩
  | ask q next ih =>
    simp only [Script.answerWith] at room ⊢
    generalize hasked : ContractHost.serve (.ofCall call) seat.handle q session = asked at room ⊢
    -- no slot is lost later, so the room in the end is room enough for this question
    have hlater := (next asked.1).answerWith_rel Session.Onward.refl Session.Onward.trans
      (serve_onward hcall seat.handle) asked.2
    obtain ⟨session', hserve, hframe⟩ :=
      frame.serve hmirrors q (hasked ▸ Nat.lt_of_le_of_lt hlater.grows room)
    rw [hasked] at hserve
    subst hserve
    exact ih _ hframe room

theorem FrameMirror.execute [Room] (frame : FrameMirror before seat session w)
    {call direct : Message → Run Outcome} (hcall : ∀ m, (call m).Onward)
    (hmirrors : ∀ m, Mirrors (call m) (direct m)) (code : Bytes) (message : Message)
    (room : (ContractHost.execute (.ofCall call) seat.handle code message
      session).2.arena.slots.length < Handle.places) :
    ∃ session', ContractHost.execute (.ofCall call) seat.handle code message session =
        ((Direct.execute direct code message w).1, session') ∧
      FrameMirror before seat session' (Direct.execute direct code message w).2 := by
  obtain ⟨opened, hopened, hframe⟩ := frame.dispatchQuestion call .txContext
  unfold ContractHost.execute Direct.execute at *
  simp only [dispatch, hopened, raiseFatal_eq, produce_eq] at room ⊢
  generalize (Direct.question .txContext w).2 = w' at hframe
  have hcleared := hframe.change (fun s => { s with fatal := none }) rfl rfl
  have hfatal : w'.session.fatal = opened.fatal := by rw [hframe.bare]; rfl
  rw [hfatal]
  cases ho : opened.fatal with
  | some e => exact ⟨_, rfl, hcleared⟩
  | none =>
    simp only [ho] at room ⊢
    cases hm : message.toRaw with
    | error cause => exact ⟨_, rfl, hcleared⟩
    | ok raw =>
      have hstart := hcleared.answerWith hcall hmirrors (interpret message code)
      simp only [hm] at room ⊢
      generalize (interpret message code).answerWith (ContractHost.serve (.ofCall call) seat.handle)
        { opened with fatal := none } = played at hstart room ⊢
      generalize (interpret message code).answerWith (Direct.serve direct) _ = mirrored at hstart ⊢
      have hroom : played.2.arena.slots.length < Handle.places := by
        cases hf : (played.2.conclude played.1).fatal <;> rw [hf] at room <;> exact room
      obtain ⟨session', hplayed, hend⟩ := hstart hroom
      subst hplayed
      have hconcluded := hend.change (·.conclude mirrored.1) rfl rfl
      have hfatal : (mirrored.2.session.conclude mirrored.1).fatal =
          (session'.conclude mirrored.1).fatal := by rw [hend.bare]; rfl
      rw [hfatal]
      cases (session'.conclude mirrored.1).fatal with
      | some e => exact ⟨_, rfl, hconcluded.change (fun s => { s with fatal := none }) rfl rfl⟩
      | none => exact ⟨_, rfl, hconcluded.change (fun s => { s with fatal := none }) rfl rfl⟩

end Frame

/-! ## Frames within frames -/

theorem Mirrors.run [Room] {call direct : Message → Run Outcome} (hcall : ∀ m, (call m).Onward)
    (hmirrors : ∀ m, Mirrors (call m) (direct m)) (code : Bytes) (message : Message) :
    Mirrors (ContractHost.run call code message) (Direct.run direct code message) := by
  intro w htidy room
  rw [Direct.run_on]
  cases hi : w.session.arena.insert Host.kind w.host with
  | error e =>
    obtain ⟨hkind, rfl⟩ := Arena.insert_error hi
    have hbare : Host.kind.isA w.bare.session.arena.base = false := hkind
    simp only [ContractHost.run_on, hi, hbare]
    exact ⟨rfl, htidy, Arena.Keeps.refl _⟩
  | ok taken =>
    obtain ⟨handle, arena⟩ := taken
    obtain ⟨hkind, hbase, -⟩ := Arena.insert_ok hi
    have hbare : Host.kind.isA w.bare.session.arena.base = true := hkind
    have hgrows := (execute_onward hcall handle code message { w.session with arena }).1
    rw [length_run hi] at room
    obtain ⟨seat, rfl, hseated, htidy', hkeeps, hvacant⟩ :=
      Arena.insert_seated htidy hi (Nat.lt_of_le_of_lt hgrows room)
    have frame : FrameMirror w.session.arena seat { w.session with arena } w.bare :=
      ⟨htidy', hseated, hvacant, hkeeps, by simp only [World.bare, Session.bare, hbase]⟩
    obtain ⟨session', hexecute, hframe⟩ := frame.execute hcall hmirrors code message room
    obtain ⟨arena', hreclaim, htidy'', hothers⟩ :=
      Arena.reclaim_seated hframe.seated hframe.tidy rfl
    -- the slot was vacant before, so giving the host back leaves all earlier objects where they were
    obtain ⟨-, hbase'⟩ := Arena.reclaim_ok hreclaim
    have hkeeps' := hframe.keeps.of_vacant hvacant hothers
    have hend : (Direct.execute direct code message w.bare).2 =
        World.bare { host := (Direct.execute direct code message w.bare).2.host
                     session := { session' with arena := arena' } } := by
      have hbare' := hframe.bare
      generalize (Direct.execute direct code message w.bare).2 = v at hbare' ⊢
      rw [World.bare, Session.bare, hbase']
      exact congrArg (World.mk v.host) hbare'
    simp only [ContractHost.run_on, hi, hexecute, hreclaim, hbare, if_true]
    exact ⟨Prod.ext rfl hend, htidy'', hkeeps'⟩

theorem World.adopt_bare (w v : World) (start : Start) (outcome : Outcome) :
    w.bare.adopt start outcome v.bare =
      ((w.adopt start outcome v).1, (w.adopt start outcome v).2.bare) := by
  have hmerge : w.bare.host.state.merge (v.bare.host.state.withCode start outcome) =
    w.host.state.merge (v.host.state.withCode start outcome) := rfl
  unfold World.adopt
  simp only [hmerge]
  cases w.host.state.merge (v.host.state.withCode start outcome) <;> rfl

theorem Mirrors.callVia {run direct : Bytes → Message → Run Outcome}
    (hmirrors : ∀ code m, Mirrors (run code m) (direct code m)) (message : Message) :
    Mirrors (ContractHost.callVia run message) (ContractHost.callVia direct message) := by
  intro w htidy room
  have hbare : w.bare.host.state = w.host.state := rfl
  rw [callVia_on] at room
  simp only [callVia_on, hbare]
  cases hs : w.host.state.start message with
  | error failure => exact ⟨rfl, htidy, Arena.Keeps.refl _⟩
  | ok start =>
    have hnested := hmirrors start.code start.message ((w.resolve message).enter start) htidy
    have henter : (w.bare.resolve message).enter start =
      ((w.resolve message).enter start).bare := rfl
    simp only [hs] at room ⊢
    rw [henter]
    generalize (run start.code start.message).on ((w.resolve message).enter start) = r
      at room hnested ⊢
    obtain ⟨result, v⟩ := r
    cases result with
    | error failure =>
      obtain ⟨hdirect, htidy', hkeeps⟩ := hnested room
      rw [hdirect]
      exact ⟨rfl, htidy', hkeeps⟩
    | ok outcome =>
      obtain ⟨harena, -⟩ := (w.resolve message).adopt_session v start outcome
      simp only [harena] at room ⊢
      obtain ⟨hdirect, htidy', hkeeps⟩ := hnested room
      rw [hdirect]
      exact ⟨(w.resolve message).adopt_bare v start outcome, htidy', hkeeps⟩

theorem runWithin_mirrors [Room] (depth : Nat) (code : Bytes) (message : Message) :
    Mirrors (runWithin depth code message) (Direct.runWithin depth code message) := by
  induction depth generalizing code message with
  | zero =>
    exact Mirrors.run (fun _ => .pure _) (fun _ => .pure _) code message
  | succ depth ih =>
    exact Mirrors.run (callVia_onward (runWithin_onward depth)) (Mirrors.callVia ih) code message

/-- A host serves a call as it would without handles, if every slot has one in the end. -/
theorem call_mirrors [Room] (message : Message) : Mirrors (Host.call message) (Direct.call message) :=
  Mirrors.callVia (runWithin_mirrors _) message

/-- A call that returns has left every slot with a handle, so the two forms of it agree. -/
theorem call_returns_mirrors [Room] {message : Message} {w w' : World} {outcome : Outcome}
    (tidy : w.session.arena.Tidy) (room : w.session.arena.slots.length < Handle.places)
    (h : (Host.call message).on w = (.ok outcome, w')) :
    (Direct.call message).on w.bare = (.ok outcome, w'.bare) := by
  have hroom := call_returns_room room h
  have hmirrors := (call_mirrors message w tidy (by rwa [h])).1
  rwa [h] at hmirrors

end ContractHost
