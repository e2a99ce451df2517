import ContractHost.Proofs.Execution.Unfolding
import Mathlib.Logic.Relation

/-!
# The frames of a call

Which frames a call runs, and how the interpreter of each of them ends. A call launches the frame of its
message. A frame starts other ones by the calls that its interpreter asks for, each of them on the host
behind the frame's handle, as it is when the question is put. How a frame ends can be told even of
frames whose outcome is lost, because an error was recorded meanwhile or an adoption was refused.

* `Launch.started`: the frames that a frame starts.
* `Launch.ending`: how the interpreter of a frame ends.
* `Launch.Unspent`: no frame of a call uses up its gas.
-/

namespace ContractHost

open Interpreter

/-- The questions that a script asks when it is answered, each with the state in which it asks it. -/
def Interpreter.Script.asked {α σ : Type} (answer : (q : Query) → σ → q.Answer × σ) :
    Script α → σ → List (Query × σ)
  | .done _, _ => []
  | .ask q next, s => (q, s) :: (next (answer q s).1).asked answer (answer q s).2

theorem Interpreter.Script.Obeys.asked {α σ : Type} {asks : Query → Prop} {ends : α → Prop}
    {script : Script α} (h : script.Obeys asks ends) {answer : (q : Query) → σ → q.Answer × σ}
    {s s' : σ} {q : Query} (hq : (q, s') ∈ script.asked answer s) : asks q := by
  induction h generalizing s with
  | done hends => cases hq
  | ask hasks later ih =>
    rcases List.mem_cons.1 hq with heq | hlater
    · cases heq
      exact hasks
    · exact ih _ hlater

/-- A frame that is about to run. -/
structure Launch where
  code : Bytes
  message : Message
  world : World

/-- The frame of a call, if the call does not fail before. -/
def World.launch (w : World) (message : Message) : Option Launch :=
  match w.host.state.start message with
  | .error _ => none
  | .ok start =>
    some { code := start.code, message := start.message, world := (w.resolve message).enter start }

/-- What happens before the interpreter of a frame starts, which may keep it from starting. -/
def Methods.ready (methods : Methods) (handle : Handle) (message : Message) (session : Session) :
    Except Failure Unit × Session :=
  let (_, session) := dispatch methods handle .txContext session
  match raiseFatal session with
  | (.error failure, session) => (.error failure, session)
  | (.ok (), session) => (message.toRaw.mapError .fault |>.map fun _ => (), session)

/-- What a frame gives once its interpreter is done. -/
def Session.close (session : Session) (ending : Ending) : Except Failure Outcome × Session :=
  match raiseFatal (session.conclude ending) with
  | (.error failure, session) => (.error failure, session)
  | (.ok (), session) => (.ok ending.outcome, session)

theorem Session.close_ok {session : Session} {ending : Ending} {outcome : Outcome}
    (h : (session.close ending).1 = .ok outcome) : outcome = ending.outcome := by
  unfold close at h
  simp only [raiseFatal_eq] at h
  split at h
  · cases h
  · cases h
    rfl

variable [Room]

theorem execute_eq (methods : Methods) (handle : Handle) (code : Bytes) (message : Message)
    (session : Session) :
    execute methods handle code message session =
      match methods.ready handle message session with
      | (.error failure, session) => (.error failure, session)
      | (.ok (), session) =>
        let (ending, session) :=
          (interpret message code).answerWith (serve methods handle) session
        session.close ending := by
  unfold execute Methods.ready Session.close
  simp only [produce_eq]
  generalize raiseFatal (dispatch methods handle .txContext session).2 = raised
  obtain ⟨result, opened⟩ := raised
  cases result with
  | error failure => rfl
  | ok => cases message.toRaw <;> rfl

namespace Launch

/-- The handle of a frame's host and the session in which its interpreter starts, if it does. -/
def opening (frame : Launch) : Option (Handle × Session) :=
  match frame.world.session.arena.insert Host.kind frame.world.host with
  | .error _ => none
  | .ok (handle, arena) =>
    match Host.methods.ready handle frame.message { frame.world.session with arena } with
    | (.error _, _) => none
    | (.ok (), session) => some (handle, session)

/-- How the interpreter of a frame ends, if it starts. -/
def ending (frame : Launch) : Option Ending :=
  frame.opening.map fun (handle, session) =>
    ((interpret frame.message frame.code).answerWith (serve Host.methods handle) session).1

/-- The frames that the interpreter of a frame starts by asking for calls. -/
def started (frame : Launch) : List Launch :=
  match frame.opening with
  | none => []
  | some (handle, session) =>
    ((interpret frame.message frame.code).asked (serve Host.methods handle) session).filterMap fun
      | (.call raw, later) =>
        match raw.toMessage, later.arena.resolve handle Host.baseKind with
        | .ok message, .ok loan =>
          World.launch { host := loan.occupant.object, session := later } message
        | _, _ => none
      | _ => none

theorem mem_started {frame nested : Launch} {handle : Handle} {session later : Session}
    {raw : RawMessage} {message : Message} {loan : Loan Host}
    (hopening : frame.opening = some (handle, session))
    (hasked : (.call raw, later) ∈
      (interpret frame.message frame.code).asked (serve Host.methods handle) session)
    (hraw : raw.toMessage = .ok message)
    (hresolve : later.arena.resolve handle Host.baseKind = .ok loan)
    (hlaunch : World.launch { host := loan.occupant.object, session := later } message =
      some nested) : nested ∈ frame.started := by
  unfold started
  simp only [hopening]
  refine List.mem_filterMap.2 ⟨_, hasked, ?_⟩
  simp only [hraw, hresolve]
  exact hlaunch

/-- A frame that is run within another one, or that frame itself. -/
abbrev Within (frame nested : Launch) : Prop :=
  Relation.ReflTransGen (fun outer inner => inner ∈ outer.started) frame nested

/-- No frame within a frame uses up its gas, nor does the frame itself. -/
def Unspent (frame : Launch) : Prop :=
  ∀ nested ending, frame.Within nested → nested.ending = some ending →
    ending.outcome.status ≠ .outOfGas

theorem unspent_iff {frame : Launch} :
    frame.Unspent ↔ (∀ ending, frame.ending = some ending → ending.outcome.status ≠ .outOfGas) ∧
      ∀ nested ∈ frame.started, nested.Unspent := by
  constructor
  · intro h
    exact ⟨fun ending => h frame ending .refl, fun nested hstarted deeper ending hwithin =>
      h deeper ending (.head hstarted hwithin)⟩
  · rintro ⟨hself, hnested⟩ deeper ending hwithin
    rcases Relation.ReflTransGen.cases_head hwithin with rfl | ⟨nested, hstarted, hdeeper⟩
    · exact hself ending
    · exact hnested nested hstarted deeper ending hdeeper

/-- Whether it can be told by looking so many levels deep that no frame uses up its gas. -/
def unspentTo : Nat → Launch → Bool
  | 0, _ => false
  | levels + 1, frame =>
    frame.ending.all (fun ending => ending.outcome.status ≠ .outOfGas) &&
      frame.started.all (unspentTo levels)

theorem unspent_of_unspentTo {levels : Nat} {frame : Launch} (h : frame.unspentTo levels = true) :
    frame.Unspent := by
  induction levels generalizing frame with
  | zero => cases h
  | succ levels ih =>
    obtain ⟨hself, hnested⟩ := Bool.and_eq_true_iff.1 h
    refine unspent_iff.2 ⟨fun ending hending => ?_, fun nested hstarted => ih ?_⟩
    · rw [hending] at hself
      exact of_decide_eq_true hself
    · exact List.all_eq_true.1 hnested nested hstarted

/-- A frame that returns has the outcome that its interpreter ended with. -/
theorem returns {frame : Launch} {w : World} {outcome : Outcome}
    (h : (Host.run frame.code frame.message).on frame.world = (.ok outcome, w)) :
    ∃ ending, frame.ending = some ending ∧ outcome = ending.outcome := by
  rw [Host.run_eq, run_on] at h
  unfold ending opening
  cases hinsert : frame.world.session.arena.insert Host.kind frame.world.host with
  | error e =>
    rw [hinsert] at h
    cases h
  | ok taken =>
    obtain ⟨handle, arena⟩ := taken
    simp only [hinsert, execute_eq, Host.methods] at h ⊢
    generalize (Methods.ofCall Host.call).ready handle frame.message _ = opened at h
    obtain ⟨result, session⟩ := opened
    cases result with
    | error failure =>
      simp only at h
      split at h <;> cases h
    | ok =>
      simp only at h
      split at h
      · cases h
      · exact ⟨_, rfl, Session.close_ok (congrArg Prod.fst h)⟩

end Launch

theorem World.unspent_of_unspentTo (w : World) (message : Message) (levels : Nat)
    (h : (w.launch message).all (·.unspentTo levels) = true) (frame : Launch)
    (hframe : w.launch message = some frame) : frame.Unspent := by
  rw [hframe] at h
  exact Launch.unspent_of_unspentTo h

end ContractHost
