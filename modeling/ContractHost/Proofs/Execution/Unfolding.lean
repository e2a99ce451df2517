import ContractHost.Proofs.Execution.Boundary
import ContractHost.Proofs.Execution.Course
import ContractHost.Proofs.Interpreter.Budget

/-!
# Calls within calls, unfolded

A run looks at nothing of the way in which calls are served but what it does with the calls that the code
asks for, and those cost gas. Unfolding calls into nested frames a few times therefore leaves nothing of
what serves the calls below them.

* `serving`: calls unfolded into so many nested frames, below which they are served in a given way.
* `run_congr`: a run depends on the calls only that its message can fund.
* `run_serving`: the number of unfoldings does not matter, if there are enough of them.
* `Host.call_eq`, `Host.run_eq`: a host serves a call by running code that calls the host.
-/

namespace ContractHost

open Interpreter

theorem Run.ext_on {α : Type} {program other : Run α} (h : ∀ w, program.on w = other.on w) :
    program = other := by
  funext w
  have hw := h w
  cases hp : program.run w with
  | ok a v =>
    rw [on_eq_ok_iff.2 hp] at hw
    exact hp.trans (on_eq_ok_iff.1 hw.symm).symm
  | error failure v =>
    rw [on_eq_error_iff.2 hp] at hw
    exact hp.trans (on_eq_error_iff.1 hw.symm).symm

/-- Two ways of answering that agree on what a script asks lead it to the same end. -/
theorem Interpreter.Script.Obeys.answerWith_congr {α σ : Type} {asks : Query → Prop}
    {ends : α → Prop} {script : Script α} (h : script.Obeys asks ends)
    {answer other : (q : Query) → σ → q.Answer × σ}
    (hagree : ∀ q s, asks q → answer q s = other q s) (s : σ) :
    script.answerWith answer s = script.answerWith other s := by
  induction h generalizing s with
  | done hends => rfl
  | ask hasks later ih =>
    simp only [Script.answerWith, hagree _ s hasks]
    exact ih _ _

section

variable {call call' : Message → Run Outcome} {message : Message}

theorem serve_congr (hcalls : ∀ nested, message.Funds nested → call nested = call' nested)
    (handle : Handle) {q : Query} (hq : message.Affords q) (session : Session) :
    serve (.ofCall call) handle q session = serve (.ofCall call') handle q session := by
  cases q with
  | call raw =>
    obtain ⟨nested, hraw, hfunds⟩ := hq raw rfl
    simp only [serve, dispatchCall, hraw, Methods.ofCall, hcalls nested hfunds]
  | _ => rfl

theorem run_congr [Room] (hcalls : ∀ nested, message.Funds nested → call nested = call' nested)
    (code : Bytes) : run call code message = run call' code message := by
  have hexecute (handle : Handle) (session : Session) :
      execute (.ofCall call) handle code message session =
        execute (.ofCall call') handle code message session := by
    have hplayed := (interpret_affords message code).answerWith_congr
      (fun q s hq => serve_congr hcalls handle hq s)
    unfold execute
    simp only [hplayed]
    rfl
  refine Run.ext_on fun w => ?_
  simp only [run_on, hexecute]

end

/-- A call depends on runs only with the gas of its message. -/
theorem callVia_congr {run run' : Bytes → Message → Run Outcome} {message : Message}
    (hruns : ∀ code m, m.gas = message.gas → run code m = run' code m) :
    callVia run message = callVia run' message := by
  refine Run.ext_on fun w => ?_
  rw [callVia_on, callVia_on]
  cases hstart : w.host.state.start message with
  | error failure => rfl
  | ok start =>
    have hgas : start.message.gas = message.gas := by rw [HostState.start_message hstart]
    simp only [hruns start.code start.message hgas]

variable [Room]

/-- Calls unfolded into so many nested frames, one within the other. The calls of the last one are served
in another way. -/
def serving (deeper : Message → Run Outcome) : Nat → Message → Run Outcome
  | 0 => deeper
  | levels + 1 => callVia (run (serving deeper levels))

/-- Each level takes four units of gas, so what serves the calls below the last level does not matter if
there is not enough gas to get there. -/
theorem run_serving {deeper deeper' : Message → Run Outcome} {levels levels' : Nat}
    {message : Message} (h : message.gas < 4 * (levels + 1)) (h' : message.gas < 4 * (levels' + 1))
    (code : Bytes) :
    run (serving deeper levels) code message = run (serving deeper' levels') code message := by
  induction levels generalizing message levels' code with
  | zero =>
    refine run_congr (fun nested hfunds => ?_) code
    have := hfunds.enough
    omega
  | succ levels ih =>
    refine run_congr (fun nested hfunds => ?_) code
    have hgas := hfunds.gas
    have henough := hfunds.enough
    cases levels' with
    | zero => omega
    | succ levels' =>
      refine callVia_congr fun code m hm => ih ?_ ?_ code
      · omega
      · omega

theorem runWithin_eq_serving (depth : Nat) :
    runWithin depth = run (serving (fun _ => return .failed .internalError) depth) := by
  induction depth with
  | zero => rfl
  | succ depth ih =>
    funext code message
    rw [runWithin, ih]
    rfl

theorem Host.run_eq_serving (deeper : Message → Run Outcome) {levels : Nat} {message : Message}
    (h : message.gas < 4 * (levels + 1)) (code : Bytes) :
    ContractHost.run (serving deeper levels) code message = Host.run code message := by
  rw [Host.run, runWithin_eq_serving]
  exact run_serving h (by omega) code

theorem Host.call_eq_serving (deeper : Message → Run Outcome) {levels : Nat} {message : Message}
    (h : message.gas < 4 * (levels + 1)) :
    serving deeper (levels + 1) message = Host.call message := by
  refine callVia_congr fun code m hm => ?_
  rw [runWithin_eq_serving]
  exact run_serving (by omega) (by omega) code

/-- The code that a host runs calls the same host. -/
theorem Host.run_eq (code : Bytes) (message : Message) :
    Host.run code message = ContractHost.run Host.call code message := by
  have hlevels : message.gas < 4 * (message.gas.toNat + 1) := by omega
  calc Host.run code message
    _ = ContractHost.run (serving Host.call (message.gas.toNat + 1)) code message :=
      (Host.run_eq_serving Host.call (by omega) code).symm
    _ = ContractHost.run Host.call code message := by
      refine run_congr (fun nested hfunds => Host.call_eq_serving Host.call ?_) code
      have := hfunds.gas
      omega

/-- A host serves a call by running code that calls the host. -/
theorem Host.call_eq (message : Message) :
    Host.call message = callVia (ContractHost.run Host.call) message := by
  refine callVia_congr fun code m hm => ?_
  rw [← hm]
  exact Host.run_eq code m

end ContractHost
