import ContractHost.Proofs.Arena.Loans
import ContractHost.Proofs.Execution.Launch
import ContractHost.Proofs.Interpreter.Buffers
import ContractHost.Proofs.Provenance

/-!
# Hosts that bring in words

The interpreter gets numbers from its host: the size of a code and the number of the block. If no host of
a session has a block with a negative number, nor a code larger than any buffer, then no frame of a call
or run brings in anything but words. A code can only come from the output of a creation, and an output
has a size that is a word where the sizes on the stack are words; so the property goes from the frame
that is run to those that it starts, and from them back.

* `Host.Worded`, `Session.Worded`, `World.Worded`: what is asked of hosts.
* `serve_words`: a question answered.
* `runWithin_words`, `Host.call_words`: a run and a call, by induction on how deep frames nest.
* `Launch.Worded`: the frames that a frame starts.
-/

namespace ContractHost

open Interpreter

/-! ## Hosts -/

/-- Every code has a size that is a word. -/
def HostState.Coded (s : HostState) : Prop := ∀ a, IsWord (s.code a).length

/-- The number of the block is not negative, and every code has a size that is a word. -/
structure Host.Worded (host : Host) : Prop where
  number : 0 ≤ host.tx.blockNumber
  codes : host.state.Coded

/-- All hosts of a session bring in words. -/
def Session.Worded (session : Session) : Prop := session.arena.Holds Host.Worded

/-- A host and those of its session bring in words. -/
structure World.Worded (w : World) : Prop where
  host : w.host.Worded
  session : w.session.Worded

namespace HostState

variable {s : HostState}

theorem code_eq_account (s : HostState) (a : Address) : s.code a = (s.account a).code.getD [] := by
  rw [code_account]
  rfl

/-- Only the end of a creation gives an account another code. -/
theorem Coded.effect (h : s.Coded) {event : Event}
    (hcode : ∀ callee code, event = .deployed callee code → IsWord code.length) :
    (event.effect s).Coded := by
  intro a
  by_cases hdestructed : event.destructed? = some a
  · have hgone := event.effect_find? s a
    rw [if_pos hdestructed] at hgone
    rw [code, hgone]
    exact isWord_zero
  · rw [code_eq_account]
    by_cases hsame : ((event.effect s).account a).code = (s.account a).code
    · rw [hsame, ← code_eq_account]
      exact h a
    · obtain ⟨code, rfl⟩ := Event.deployed_of_code hdestructed hsame
      show IsWord (((s.deploy a code).account a).code.getD []).length
      rw [code_deploy, if_pos rfl]
      exact hcode a code rfl

theorem Coded.replay (h : s.Coded) {trace : List Event}
    (hcodes : ∀ callee code, .deployed callee code ∈ trace → IsWord code.length) :
    (replay trace s).Coded := by
  induction trace generalizing s with
  | nil => exact h
  | cons event rest ih =>
    rw [replay_cons]
    refine ih (h.effect ?_) fun callee code hrest => hcodes callee code (.tail _ hrest)
    rintro callee code rfl
    exact hcodes callee code (.head _)

theorem Coded.resolveCallee (h : s.Coded) (message : Message) :
    (s.resolveCallee message).2.Coded := by
  rw [← replay_resolution]
  refine h.replay fun callee code hdeployed => ?_
  cases s.resolution_deploys message _ hdeployed

theorem Coded.deploy (h : s.Coded) (callee : Address) {code : Bytes} (hcode : IsWord code.length) :
    (s.deploy callee code).Coded := by
  show (Event.effect (.deployed callee code) s).Coded
  refine h.effect ?_
  rintro _ _ ⟨⟩
  exact hcode

theorem Coded.withCode (h : s.Coded) (start : Start) {outcome : Outcome}
    (houtput : IsWord outcome.output.length) : (s.withCode start outcome).Coded := by
  unfold HostState.withCode
  split
  · exact h.deploy start.callee houtput
  · exact h

end HostState

theorem Query.fair_neutral (q : Query) : Query.Fair q q.neutral := by
  cases q with
  | txContext => exact Int.le_refl 0
  | getCodeSize a => exact isWord_zero
  | _ => trivial

namespace Host.Worded

variable {host : Host}

theorem reply (h : host.Worded) (q : Query) :
    ({ host with state := (host.reply q).2 } : Host).Worded := by
  refine ⟨h.number, ?_⟩
  show (host.reply q).2.Coded
  rw [← Event.effect_answered host q q.neutral]
  exact h.codes.effect nofun

theorem fair (h : host.Worded) {q : Query} {answer : q.Answer}
    (hreply : (host.reply q).1 = .ok answer) : Query.Fair q answer := by
  cases q with
  | txContext =>
    have hcontext := TxContext.toContext_of_toRaw (mapError_eq_ok_iff.1 hreply)
    have hnumber := h.number
    rwa [← hcontext] at hnumber
  | getCodeSize a =>
    cases hreply
    exact h.codes a
  | _ => trivial

end Host.Worded

/-! ## The boundary -/

/-- A program keeps a world one that brings in words, whether it returns or fails. -/
def Run.KeepsWords {α : Type} (program : Run α) : Prop := ∀ w : World, w.Worded → (program.on w).2.Worded

section

variable {session : Session} {handle : Handle}

theorem borrowing_words {α : Type} {program : Run α} (hprogram : program.KeepsWords)
    (h : session.Worded) : (borrowing handle program session).2.Worded := by
  cases hresolve : session.arena.resolve handle Host.baseKind with
  | error e =>
    rw [borrowing_refused hresolve]
    exact h
  | ok loan =>
    have hafter := hprogram { host := loan.occupant.object, session } ⟨h.resolve hresolve, h⟩
    rw [borrowing_granted hresolve rfl]
    exact hafter.session.update loan hafter.host

theorem dispatchQuestion_words (call : Message → Run Outcome) (h : session.Worded) (q : Query) :
    Query.Fair q (dispatchQuestion (.ofCall call) handle q session).1 ∧
      (dispatchQuestion (.ofCall call) handle q session).2.Worded := by
  unfold dispatchQuestion
  cases hresolve : session.arena.resolve handle Host.baseKind with
  | error e =>
    rw [borrowing_refused hresolve]
    exact ⟨q.fair_neutral, h⟩
  | ok loan =>
    have hhost : loan.occupant.object.Worded := h.resolve hresolve
    have hprogram := stateAnswer_on q { host := loan.occupant.object, session }
    simp only [Methods.ofCall, borrowing_granted hresolve hprogram]
    cases hreply : (loan.occupant.object.reply q).1 with
    | error failure => exact ⟨q.fair_neutral, h.update loan (hhost.reply q)⟩
    | ok answer =>
      have hfair := hhost.fair hreply
      simp only [Except.bind]
      cases session.arena.endLoan loan with
      | error e => exact ⟨q.fair_neutral, h.update loan (hhost.reply q)⟩
      | ok => exact ⟨hfair, h.update loan (hhost.reply q)⟩

theorem dispatchCall_words {call : Message → Run Outcome}
    (hcall : ∀ message, IsWord message.input.length → (call message).KeepsWords) {raw : RawMessage}
    (hraw : IsWord raw.input.length) (h : session.Worded) :
    (dispatchCall (.ofCall call) handle raw session).2.Worded := by
  unfold dispatchCall
  cases hmessage : raw.toMessage with
  | error cause => exact h
  | ok message =>
    have hinput : IsWord message.input.length := by
      rwa [← Message.toRaw_input (Message.toRaw_eq_ok_iff.2 hmessage)]
    have hborrow : (borrowing handle (call message) session).2.Worded :=
      borrowing_words (hcall message hinput) h
    simp only [Methods.ofCall]
    generalize borrowing handle (call message) session = r at hborrow
    obtain ⟨result, after⟩ := r
    cases result with
    | error failure => exact hborrow
    | ok outcome =>
      simp only [Session.lend]
      cases int64? outcome.gasLeft <;> exact hborrow

theorem serve_words {call : Message → Run Outcome}
    (hcall : ∀ message, IsWord message.input.length → (call message).KeepsWords) (handle : Handle) :
    Brings (serve (.ofCall call) handle) Session.Worded := by
  intro q session hq h
  rcases q.call_or_not with ⟨raw, rfl⟩ | hnot
  · exact ⟨trivial, dispatchCall_words hcall hq h⟩
  · rw [serve_of_not_call session hnot]
    exact dispatchQuestion_words call h q

end

/-! ## Runs -/

/-- A run or call keeps a world one that brings in words, and its output has a size that is a word. -/
def Run.GivesWords (program : Run Outcome) : Prop :=
  ∀ w : World, w.Worded → (program.on w).2.Worded ∧
    ∀ outcome, (program.on w).1 = .ok outcome → IsWord outcome.output.length

theorem Interpreter.Ending.Countable.outcome {ending : Ending} (h : ending.Countable) :
    IsWord ending.outcome.output.length := by
  cases ending with
  | halted status gasLeft output => exact h
  | crashed fault => exact isWord_zero

theorem Session.Worded.close {session : Session} (h : session.Worded) (ending : Ending) :
    (session.close ending).2.Worded := by
  unfold Session.close
  simp only [raiseFatal_eq]
  split <;> rename_i heq
  all_goals
    cases congrArg Prod.snd heq
    exact h

theorem ready_words (call : Message → Run Outcome) (handle : Handle) (message : Message)
    {session : Session} (h : session.Worded) :
    ((Methods.ofCall call).ready handle message session).2.Worded := by
  have hasked : (dispatch (.ofCall call) handle .txContext session).2.Worded :=
    (dispatchQuestion_words call h .txContext).2
  unfold Methods.ready
  simp only [raiseFatal_eq]
  split <;> rename_i heq
  all_goals
    cases congrArg Prod.snd heq
    exact hasked

theorem ready_sends (methods : Methods) (handle : Handle) (message : Message) (session : Session)
    (h : (methods.ready handle message session).1 = .ok ()) : ∃ raw, message.toRaw = .ok raw := by
  unfold Methods.ready at h
  simp only [raiseFatal_eq] at h
  split at h
  · cases h
  · cases hraw : message.toRaw with
    | error cause =>
      rw [hraw] at h
      cases h
    | ok raw => exact ⟨raw, rfl⟩

section

variable {call : Message → Run Outcome}
  (hcall : ∀ message, IsWord message.input.length → (call message).KeepsWords)

include hcall

theorem execute_words [Room] (handle : Handle) (code : Bytes) {message : Message}
    (hinput : IsWord message.input.length) {session : Session} (h : session.Worded) :
    (execute (.ofCall call) handle code message session).2.Worded ∧
      ∀ outcome, (execute (.ofCall call) handle code message session).1 = .ok outcome →
        IsWord outcome.output.length := by
  have hready := ready_words call handle message h
  rw [execute_eq]
  generalize (Methods.ofCall call).ready handle message session = opened at hready
  obtain ⟨result, opened⟩ := opened
  cases result with
  | error failure => exact ⟨hready, nofun⟩
  | ok =>
    obtain ⟨hending, hplayed⟩ :=
      (interpret_finishes { message, code } (serve (.ofCall call) handle) opened).words hinput
        (serve_words hcall handle) hready
    refine ⟨hplayed.close _, fun outcome houtcome => ?_⟩
    rw [Session.close_ok houtcome]
    exact hending.outcome

theorem run_words [Room] (code : Bytes) {message : Message} (hinput : IsWord message.input.length) :
    (run call code message).GivesWords := by
  intro w hw
  rw [run_on]
  cases hinsert : w.session.arena.insert Host.kind w.host with
  | error e => exact ⟨hw, nofun⟩
  | ok taken =>
    obtain ⟨handle, arena⟩ := taken
    have hentered : Session.Worded { w.session with arena } := hw.session.insert hw.host hinsert
    obtain ⟨hafter, houtput⟩ := execute_words hcall handle code hinput hentered
    simp only
    generalize execute (.ofCall call) handle code message { w.session with arena } = r at hafter houtput
    obtain ⟨result, session⟩ := r
    cases hreclaim : session.arena.reclaim handle Host.kind with
    | error e => exact ⟨⟨hw.host, hafter⟩, nofun⟩
    | ok given =>
      obtain ⟨hhost, harena⟩ := Arena.Holds.reclaim hafter hreclaim
      exact ⟨⟨hhost, harena⟩, houtput⟩

end

theorem World.Worded.resolve {w : World} (h : w.Worded) (message : Message) :
    (w.resolve message).Worded :=
  ⟨⟨h.host.number, h.host.codes.resolveCallee message⟩, h.session⟩

theorem World.Worded.enter {w : World} (h : w.Worded) (start : Start) : (w.enter start).Worded :=
  ⟨⟨h.host.number, h.host.codes⟩, h.session⟩

theorem HostState.start_input {s : HostState} {message : Message} {start : Start}
    (h : s.start message = .ok start) (hinput : IsWord message.input.length) :
    IsWord start.message.input.length := by
  rw [start_message h]
  dsimp only
  split
  · exact isWord_zero
  · exact hinput

theorem World.Worded.adopt {w v : World} (hw : w.Worded) (hv : v.Worded) (start : Start)
    {outcome : Outcome} (houtput : IsWord outcome.output.length) :
    (w.adopt start outcome v).2.Worded ∧
      ∀ outcome', (w.adopt start outcome v).1 = .ok outcome' → IsWord outcome'.output.length := by
  have hchild := hv.host.codes.withCode start houtput
  unfold World.adopt
  simp only
  cases hmerge : w.host.state.merge (v.host.state.withCode start outcome) with
  | error e => exact ⟨⟨hw.host, hv.session⟩, nofun⟩
  | ok state =>
    obtain ⟨-, -, rfl⟩ := HostState.merge_ok_iff.1 hmerge
    refine ⟨⟨⟨hw.host.number, hchild⟩, hv.session⟩, ?_⟩
    rintro _ ⟨rfl⟩
    exact houtput

theorem callVia_words {run : Bytes → Message → Run Outcome}
    (hrun : ∀ code message, IsWord message.input.length → (run code message).GivesWords)
    {message : Message} (hinput : IsWord message.input.length) : (callVia run message).GivesWords := by
  intro w hw
  have hresolved := hw.resolve message
  rw [callVia_on]
  cases hstart : w.host.state.start message with
  | error failure => exact ⟨hresolved, nofun⟩
  | ok start =>
    obtain ⟨hafter, houtput⟩ := hrun start.code start.message (HostState.start_input hstart hinput)
      ((w.resolve message).enter start) (hresolved.enter start)
    simp only
    generalize (run start.code start.message).on ((w.resolve message).enter start) = r at hafter houtput
    obtain ⟨result, v⟩ := r
    cases result with
    | error failure => exact ⟨⟨hresolved.host, hafter.session⟩, nofun⟩
    | ok outcome => exact hresolved.adopt hafter start (houtput outcome rfl)

theorem runWithin_words [Room] (depth : Nat) (code : Bytes) {message : Message}
    (hinput : IsWord message.input.length) : (runWithin depth code message).GivesWords := by
  induction depth generalizing code message with
  | zero =>
    refine run_words (fun message hmessage w hw => ?_) code hinput
    exact hw
  | succ depth ih =>
    exact run_words (fun message hmessage w hw =>
      (callVia_words (fun code _ h => ih code h) hmessage w hw).1) code hinput

theorem Host.call_words [Room] {message : Message} (hinput : IsWord message.input.length) :
    (Host.call message).GivesWords :=
  callVia_words (fun code _ h => runWithin_words _ code h) hinput

/-- The interpreter of any frame is answered with words. -/
theorem Host.serve_words [Room] (handle : Handle) : Brings (serve Host.methods handle) Session.Worded :=
  ContractHost.serve_words (fun _ hinput w hw => (Host.call_words hinput w hw).1) handle

/-! ## Codes -/

/-- The code of an account as the host behind a handle has it. -/
def Session.codeAt (handle : Handle) (session : Session) (a : Address) : Bytes :=
  match session.arena.resolve handle Host.baseKind with
  | .error _ => []
  | .ok loan => loan.occupant.object.state.code a

theorem Host.serve_shows [Room] (handle : Handle) :
    Shows (serve Host.methods handle) (Session.codeAt handle) := by
  intro session a offset size
  rw [serve_of_not_call session rfl]
  unfold dispatchQuestion Session.codeAt
  cases hresolve : session.arena.resolve handle Host.baseKind with
  | error e =>
    rw [borrowing_refused hresolve]
    show ([] : Bytes) = (([] : Bytes).drop offset.toNat).take size.toNat
    rw [List.drop_nil, List.take_nil]
  | ok loan =>
    have hprogram := stateAnswer_on (.copyCode a offset size) { host := loan.occupant.object, session }
    have hend := (Arena.owns_of_resolve hresolve).endLoan
    simp only [Host.methods, Methods.ofCall, borrowing_granted hresolve hprogram, Host.reply,
      Except.bind, hend]
    exact slice_eq_take ..

/-! ## Frames -/

section

variable {σ : Type} {frame : Frame} {answer : (q : Query) → σ → q.Answer × σ} {first s later : σ}
  {past : List (Executed σ)} {ahead : List (Nat × Instruction)} {m : Machine} {q : Query}

/-- An instruction asks its question, and the others are asked later. -/
theorem Interpreter.asked_cons [Room] {position : Nat} {i : Instruction} (hpaid : 0 ≤ m.paid.gas)
    (h : (q, later) ∈ (exec frame ((position, i) :: ahead) m).asked answer s) :
    later = s ∧ (∃ resume, i.move frame m.paid = .ok (.ask q resume)) ∨
      (q, later) ∈ (resumed frame ahead m.paid.gas (i.act frame answer m.paid s).1).asked answer
        (i.act frame answer m.paid s).2 := by
  rw [exec_cons, if_neg (Int.not_lt.2 hpaid)] at h
  unfold Instruction.act
  cases hmove : i.move frame m.paid with
  | error stop =>
    rw [hmove] at h
    exact .inr h
  | ok move =>
    rw [hmove] at h
    cases move with
    | go next => exact .inr h
    | ask asked resume =>
      rcases List.mem_cons.1 h with heq | hrest
      · cases heq
        exact .inl ⟨rfl, resume, rfl⟩
      · exact .inr hrest

/-- Every question of code is asked at a point that it goes through. -/
theorem Interpreter.exec_asked [Room] (h : Reached frame answer first past ahead m s)
    (hasked : (q, later) ∈ (exec frame ahead m).asked answer s) :
    ∃ past position i ahead m resume, Reached frame answer first past ((position, i) :: ahead) m later ∧
      i.move frame m.paid = .ok (.ask q resume) := by
  induction ahead generalizing past m s with
  | nil => cases hasked
  | cons item ahead ih =>
    obtain ⟨position, i⟩ := item
    by_cases hspent : m.paid.gas < 0
    · rw [exec_cons, if_pos hspent] at hasked
      cases hasked
    · have hpaid := Int.not_lt.1 hspent
      rcases asked_cons hpaid hasked with ⟨rfl, resume, hmove⟩ | hrest
      · exact ⟨past, position, i, ahead, m, resume, h, hmove⟩
      · cases hact : i.act frame answer m.paid s with
        | mk result s' =>
          rw [hact] at hrest
          cases result with
          | error stop => cases hrest
          | ok next => exact ih (.step h hpaid hact) hrest

end

/-- A frame that is about to run brings in words, and so does its host. -/
structure Launch.Worded (frame : Launch) : Prop where
  world : frame.world.Worded
  input : IsWord frame.message.input.length

theorem World.Worded.launch {w : World} (h : w.Worded) {message : Message}
    (hinput : IsWord message.input.length) {frame : Launch} (hlaunch : w.launch message = some frame) :
    frame.Worded := by
  unfold World.launch at hlaunch
  cases hstart : w.host.state.start message with
  | error failure =>
    rw [hstart] at hlaunch
    cases hlaunch
  | ok start =>
    rw [hstart] at hlaunch
    cases hlaunch
    exact ⟨(h.resolve message).enter start, HostState.start_input hstart hinput⟩

namespace Launch

/-- The code of a frame and the message for which it runs. -/
def guest (frame : Launch) : Frame := { message := frame.message, code := frame.code }

variable [Room] {frame nested : Launch} {handle : Handle} {session : Session}

theorem exists_of_mem_started (h : nested ∈ frame.started) :
    ∃ handle session raw later message loan, frame.opening = some (handle, session) ∧
      (.call raw, later) ∈
        (interpret frame.message frame.code).asked (serve Host.methods handle) session ∧
      raw.toMessage = .ok message ∧ later.arena.resolve handle Host.baseKind = .ok loan ∧
      World.launch { host := loan.occupant.object, session := later } message = some nested := by
  unfold started at h
  split at h
  · cases h
  · rename_i handle session hopening
    obtain ⟨⟨q, later⟩, hasked, hlaunch⟩ := List.mem_filterMap.1 h
    rcases q.call_or_not with ⟨raw, rfl⟩ | hnot
    · simp only at hlaunch
      cases hraw : raw.toMessage with
      | error cause =>
        rw [hraw] at hlaunch
        cases hlaunch
      | ok message =>
        cases hresolve : later.arena.resolve handle Host.baseKind with
        | error e =>
          rw [hraw, hresolve] at hlaunch
          cases hlaunch
        | ok loan =>
          rw [hraw, hresolve] at hlaunch
          exact ⟨handle, session, raw, later, message, loan, hopening, hasked, hraw, hresolve, hlaunch⟩
    · cases q with
      | call => cases hnot
      | _ => cases hlaunch

theorem Worded.opening (h : frame.Worded) (hopening : frame.opening = some (handle, session)) :
    session.Worded ∧ ∃ raw, frame.message.toRaw = .ok raw := by
  unfold Launch.opening at hopening
  cases hinsert : frame.world.session.arena.insert Host.kind frame.world.host with
  | error e =>
    rw [hinsert] at hopening
    cases hopening
  | ok taken =>
    obtain ⟨handle, arena⟩ := taken
    have hentered : Session.Worded { frame.world.session with arena } :=
      h.world.session.insert h.world.host hinsert
    have hready := ready_words Host.call handle frame.message hentered
    have hsends := ready_sends Host.methods handle frame.message { frame.world.session with arena }
    simp only [hinsert] at hopening
    cases hopened : Host.methods.ready handle frame.message { frame.world.session with arena } with
    | mk result opened =>
      rw [Host.methods] at hopened
      rw [hopened] at hready
      rw [Host.methods, hopened] at hopening hsends
      cases result with
      | error failure => cases hopening
      | ok =>
        cases hopening
        exact ⟨hready, hsends rfl⟩

theorem Worded.started (h : frame.Worded) (hnested : nested ∈ frame.started) : nested.Worded := by
  obtain ⟨handle, session, raw, later, message, loan, hopening, hasked, hraw, hresolve, hlaunch⟩ :=
    exists_of_mem_started hnested
  obtain ⟨hsession, -⟩ := h.opening hopening
  -- the point at which the nested frame's message is sent
  have hstart : Reached frame.guest (serve Host.methods handle) session [] (decode frame.code)
      { gas := frame.message.gas } session := .start
  obtain ⟨past, position, i, ahead, m, resume, hreached, hmove⟩ := exec_asked hstart hasked
  obtain ⟨hwords, hlater⟩ := hreached.words h.input (Host.serve_words handle) hsession
  have hmoves := hreached.move_words h.input hwords
  have hinput : IsWord message.input.length := by
    rw [← Message.toRaw_input (Message.toRaw_eq_ok_iff.2 hraw)]
    exact (hmoves.gives _ hmove).1
  exact World.Worded.launch ⟨hlater.resolve hresolve, hlater⟩ hinput hlaunch

theorem Worded.within (h : frame.Worded) (hwithin : frame.Within nested) : nested.Worded := by
  induction hwithin with
  | refl => exact h
  | tail _ hstarted ih => exact ih.started hstarted

/-- The interpreter of a frame comes to a point. -/
def Reaches (frame : Launch) (handle : Handle) (past : List (Executed Session))
    (ahead : List (Nat × Instruction)) (m : Machine) (s : Session) : Prop :=
  ∃ session, frame.opening = some (handle, session) ∧
    Reached frame.guest (serve Host.methods handle) session past ahead m s

end Launch

/-- A frame is run when a message is called or when some code is run for it: the first frame, or one
within it. -/
inductive World.Plays [Room] (w : World) (message : Message) (frame : Launch) : Prop
  | called (first : Launch) (h : w.launch message = some first) (within : first.Within frame)
  | ran (code : Bytes) (within : (Launch.mk code message w).Within frame)

theorem World.Worded.plays [Room] {w : World} (h : w.Worded) {message : Message}
    (hinput : IsWord message.input.length) {frame : Launch} (hframe : w.Plays message frame) :
    frame.Worded := by
  cases hframe with
  | called first hlaunch within => exact (h.launch hinput hlaunch).within within
  | ran code within => exact Launch.Worded.within ⟨h, hinput⟩ within

/-- A world in which nothing has happened brings in words. -/
theorem World.calling_worded {code : Bytes} (h : IsWord code.length) : (World.calling code).Worded := by
  have hempty : ({} : HostState).Coded := fun _ => isWord_zero
  exact ⟨⟨Int.le_refl 0, (hempty.deploy (.ofNat 1) (by decide)).deploy (.ofNat 3) h⟩, nofun⟩

end ContractHost
