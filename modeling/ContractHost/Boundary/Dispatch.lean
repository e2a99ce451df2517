import ContractHost.Boundary.Session
import ContractHost.Host.Queries

/-!
# The native boundary

An interpreter names its host by a handle. Each question borrows the host from the arena, runs the
method behind it and gives the answer, fit for the native side. No failure crosses the boundary: it is
recorded in the session, and the interpreter gets the neutral answer.

* `Run`: a program on a host and the session; both keep what was done before a failure.
* `Methods.ofCall`: the methods of a host, given how it serves calls.
* `dispatch`: one question put through the boundary.
-/

namespace ContractHost

/-- A host at work, with the session. -/
structure World where
  host : Host
  session : Session

/-- A program of a host, which may fail and keeps what it did before. -/
abbrev Run := EStateM Failure World

namespace Run

/-- The result of a step that may have a fault. -/
def ofFault {α : Type} : Except Fault α → Run α
  | .ok a => pure a
  | .error cause => throw (.fault cause)

/-- The result of a step that may have a fatal error. -/
def ofFatal {α : Type} : Except FatalError α → Run α
  | .ok a => pure a
  | .error e => throw (.fatal e)

/-- The state of the frame. -/
def state : Run HostState := do return (← get).host.state

/-- Replaces the state of the frame. -/
def setState (s : HostState) : Run Unit :=
  modify fun w => { w with host := { w.host with state := s } }

/-- Notes an event. -/
def note (event : Event) : Run Unit :=
  modify fun w => { w with session := w.session.note event }

end Run

/-- What a host does for each question. -/
structure Methods where
  /-- The answer to a question other than a call. -/
  answer : (q : Query) → Run q.Answer
  /-- The outcome of a call. -/
  call : Message → Run Outcome

namespace Methods

/-- The answer of a host to a question other than a call. -/
def stateAnswer : (q : Query) → Run q.Answer
  | .txContext => do Run.ofFault (← get).host.tx.toRaw
  | .accountExists address => do return (← Run.state).accountExists address
  | .getStorage address key => do return (← Run.state).getStorage address key
  | .setStorage address key value => do
    let (status, s) := (← Run.state).setStorage address key value
    Run.setState s
    Run.ofFatal status
  | .getBalance address => do return (← Run.state).getBalance address
  | .getCodeSize address => do return (← Run.state).getCodeSize address
  | .getCodeHash address => do return (← Run.state).getCodeHash address
  | .copyCode address offset size => do
    return (← Run.state).copyCode address offset.toNat size.toNat
  | .selfdestruct address beneficiary => do
    Run.setState ((← Run.state).selfdestruct address beneficiary)
  | .call message => return Query.neutral (.call message)
  | .getBlockHash number => do return (← Run.state).getBlockHash number.toInt
  | .emitLog address data topics => do
    Run.setState ((← Run.state).emitLog address data topics)

/-- The methods of a host that serves calls in a given way. -/
def ofCall (call : Message → Run Outcome) : Methods where
  answer := stateAnswer
  call := call

/-- Methods that all fail. -/
def failing (failure : Failure) : Methods where
  answer _ := throw failure
  call _ := throw failure

end Methods

/-- Runs a program on the host behind a handle, which stays in the arena. -/
def borrowing {α : Type} (handle : Handle) (program : Run α) (session : Session) :
    Except Failure α × Session :=
  match session.arena.resolve handle Host.baseKind with
  | .error e => (.error (.fatal (.arena e)), session)
  | .ok loan =>
    let settle (w : World) : Session :=
      { w.session with arena := w.session.arena.update loan w.host }
    match program.run { host := loan.occupant.object, session } with
    | .error failure w => (.error failure, settle w)
    | .ok a w =>
      match w.session.arena.endLoan loan with
      | .error e => (.error (.fatal (.arena e)), settle w)
      | .ok () => (.ok a, settle w)

/-- A call put through the boundary. -/
def dispatchCall (methods : Methods) (handle : Handle) (raw : RawMessage) (session : Session) :
    RawOutcome × Session :=
  let q : Query := .call raw
  let fail (failure : Failure) (session : Session) : RawOutcome × Session :=
    (q.neutral, session.record q.function failure)
  match raw.toMessage with
  | .error cause => fail (.fault cause) session
  | .ok message =>
    match borrowing handle (methods.call message) session with
    | (.error failure, session) => fail failure session
    | (.ok outcome, session) =>
      match session.lend outcome with
      | .error cause => fail (.fault cause) session
      | .ok (raw, session) => (raw, session)

/-- A question other than a call put through the boundary. -/
def dispatchQuestion (methods : Methods) (handle : Handle) (q : Query) (session : Session) :
    q.Answer × Session :=
  match borrowing handle (methods.answer q) session with
  | (.error failure, session) => (q.neutral, session.record q.function failure)
  | (.ok answer, session) => (answer, session.note (.answered q answer))

/-- A question put through the boundary. -/
def dispatch (methods : Methods) (handle : Handle) : (q : Query) → Session → q.Answer × Session
  | .call raw => dispatchCall methods handle raw
  | q => dispatchQuestion methods handle q

/-- Puts the interpreter's question through the boundary. The interpreter notes the status of a write
and gives the output of a call back once it has copied it. -/
def serve (methods : Methods) (handle : Handle) : (q : Query) → Session → q.Answer × Session
  | .call raw, session =>
    let (answer, session) := dispatchCall methods handle raw session
    (answer, session.release answer)
  | .setStorage address key value, session =>
    let (status, session) := dispatch methods handle (.setStorage address key value) session
    (status, session.note (.told status))
  | q, session => dispatch methods handle q session

/-- Bytes put over the start of a buffer. -/
def overwrite (buffer bytes : Bytes) : Bytes := bytes ++ buffer.drop bytes.length

end ContractHost
