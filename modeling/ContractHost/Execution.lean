import ContractHost.Boundary.Dispatch
import ContractHost.Interpreter.Machine

/-!
# Nested execution

A host serves a call by running the interpreter on the callee's code. The nested frame is a host of
its own, on a copy of the state; the arena holds it while the interpreter runs, and afterwards the
frame that started it adopts its accounts, however the frame ended. A creation runs the message's
input as code and, if it succeeds, gives the callee its output as code.

Running and calling need each other. Each instruction costs gas before it asks anything, so a nested
frame has less gas than its parent, and the gas of the first message bounds the nesting. The bound
shows in `runWithin`, and in none of the functions after it.

* `Methods.run`: the interpreter on a host, given its methods.
* `callVia`: a host serving a call, given how hosts are run.
* `Host.run`, `Host.call`: the two tied together.
-/

namespace ContractHost

open Interpreter

variable [Room]

/-- What the native side makes of an ending: a crash is an internal error without gas. -/
def produce (ending : Ending) (session : Session) : Outcome × Session :=
  let (status, gasLeft, output, session) := match ending with
    | .halted status gasLeft output => (status, gasLeft, output, session)
    | .crashed cause => (StatusCode.internalError, 0, ([] : Bytes), session.note (.crashed cause))
  -- the output is lent to the host, copied, and given back
  let (ticket, produced) := session.produced.lend output
  ({ status, gasLeft, output }, { session with produced := produced.giveBack ticket })

/-- Raises the error that a session has recorded, if there is one. -/
def raiseFatal (session : Session) : Except Failure Unit × Session :=
  match session.takeFatal with
  | (some e, session) => (.error (.fatal e), session)
  | (none, session) => (.ok (), session)

/-- Runs code for a message with the host behind a handle. The transaction's context is asked for
first. A recorded error is raised before the interpreter starts and again once it is done. -/
def execute (methods : Methods) (handle : Handle) (code : Bytes) (message : Message)
    (session : Session) : Except Failure Outcome × Session :=
  let (_, session) := dispatch methods handle .txContext session
  match raiseFatal session with
  | (.error failure, session) => (.error failure, session)
  | (.ok (), session) =>
    match message.toRaw with
    | .error cause => (.error (.fault cause), session)
    | .ok _ =>
      let (ending, session) := (interpret message code).answerWith (serve methods handle) session
      let (outcome, session) := produce ending session
      match raiseFatal session with
      | (.error failure, session) => (.error failure, session)
      | (.ok (), session) => (.ok outcome, session)

/-- Runs code for a message on a host of a class. The arena takes the host in and always gives it
back. -/
def Methods.run (methods : Methods) (kind : Kind) (code : Bytes) (message : Message) :
    Run Outcome := fun w =>
  match w.session.arena.insert kind w.host with
  | .error e => .error (.fatal (.arena e)) w
  | .ok (handle, arena) =>
    let (result, session) := execute methods handle code message { w.session with arena }
    match session.arena.reclaim handle kind with
    | .error e => .error (.fatal (.arena e)) { w with session }
    | .ok (host, arena) =>
      let w := { host, session := { session with arena } }
      match result with
      | .ok outcome => .ok outcome w
      | .error failure => .error failure w

/-- Runs code for a message on a host that keeps a state. -/
def run (call : Message → Run Outcome) (code : Bytes) (message : Message) : Run Outcome :=
  (Methods.ofCall call).run Host.kind code message

/-- The host of a nested frame. -/
def Host.spawnChild (host : Host) (message : Message) (callee : Address) : Host :=
  { host with state := host.state.clone (message.depth + 1) callee }

/-- Runs a program on another host and gives that host's last form along. -/
def onChild {α : Type} (child : Host) (program : Run α) : Run (α × Host) := fun w =>
  match program.run { w with host := child } with
  | .ok a w' => .ok (a, w'.host) { w with session := w'.session }
  | .error failure w' => .error failure { w with session := w'.session }

/-- The address a message is executed at. The sender's account is there afterwards. -/
def resolveCallee (message : Message) : Run Address := do
  let s ← Run.state
  let (callee, s') := s.resolveCallee message
  Run.setState s'
  Run.note (.touched message.sender)
  let callee ← Run.ofFault callee
  if message.kind.isCreate then
    Run.note (.counted message.sender (s.account message.sender).nonce message.kind)
  return callee

/-- The code that a message runs, and the message as it runs: a creation's input is its code. -/
def codeFor (message : Message) (callee : Address) : Run (Bytes × Message) := do
  if message.kind.isCreate then
    return (message.input, { message with destination := callee, input := [] })
  else
    match ((← Run.state).find? callee).bind (·.code) with
    | some code => return (code, message)
    | none => throw (.fatal (.noCode callee message.kind))

/-- Serves a call: runs the callee on a copy of the state and adopts the copy. -/
def callVia (run : Bytes → Message → Run Outcome) (message : Message) : Run Outcome := do
  let callee ← resolveCallee message
  let (code, message) ← codeFor message callee
  let parent := (← get).host
  let child := parent.spawnChild message callee
  Run.note (.spawned {
    parentDepth := parent.state.depth, childDepth := child.state.depth, kind := message.kind
    sender := message.sender, callee, gas := message.gas })
  let (outcome, child) ← onChild child (run code message)
  let deployed := outcome.isSuccess && message.kind.isCreate
  let adopted := if deployed then child.state.deploy callee outcome.output else child.state
  if deployed then Run.note (.deployed callee outcome.output)
  let state ← Run.ofFatal ((parent.state.merge adopted).mapError .merge)
  Run.setState state
  let outcome := { outcome with createAddress := callee }
  Run.note (.finished message.kind callee outcome)
  return outcome

/-- Runs code on a host whose frames nest at most so deep. A frame without gas runs no instruction, so
the calls of the last level are never made. -/
def runWithin : (depth : Nat) → Bytes → Message → Run Outcome
  | 0, code, message => run (fun _ => return .failed .internalError) code message
  | depth + 1, code, message => run (callVia (runWithin depth)) code message

/-- Runs code for a message on a host. -/
def Host.run (code : Bytes) (message : Message) : Run Outcome :=
  runWithin message.gas.toNat code message

/-- Serves a call. -/
def Host.call (message : Message) : Run Outcome :=
  callVia (runWithin message.gas.toNat) message

/-- The methods of a host. -/
def Host.methods : Methods := .ofCall Host.call

end ContractHost
