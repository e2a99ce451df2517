import ContractHost.Boundary.Query
import ContractHost.Host.Failure

/-!
# Sessions

A session is what all frames of an execution share: the arena of their hosts, the one slot for a fatal
error, the outputs lent to the other side and not yet given back, and the history of what happened,
newest event first.

* `Session.record`: the first fatal error stays until it is taken.
* `Session.lend`: an outcome made fit for the native side.
-/

namespace ContractHost

/-- A host: the state of its frame and the transaction's context. -/
structure Host where
  state : HostState := {}
  tx : TxContext := {}

/-- The class of all hosts. -/
def Host.baseKind : Kind := ⟨"HostContext", ["object"]⟩

/-- The class of the hosts that keep a state. -/
def Host.kind : Kind := ⟨"StateHost", ["HostContext", "object"]⟩

/-- Buffers that were handed out and not yet given back. -/
structure Lending where
  /-- The number of buffers ever handed out. -/
  issued : Nat := 0
  /-- The tickets of those that are still out. -/
  out : List Nat := []

namespace Lending

/-- Hands out an output; an empty one needs no buffer. -/
def lend (lending : Lending) (output : Bytes) : Option Nat × Lending :=
  if output.isEmpty then (none, lending)
  else (some lending.issued,
    { issued := lending.issued + 1, out := lending.issued :: lending.out })

/-- Takes an output back. -/
def giveBack (lending : Lending) : Option Nat → Lending
  | none => lending
  | some ticket => { lending with out := lending.out.erase ticket }

/-- The number of buffers that are out. -/
def count (lending : Lending) : Nat := lending.out.length

end Lending

/-- The start of a nested frame. -/
structure Spawn where
  parentDepth : Int
  childDepth : Int
  kind : CallKind
  sender : Address
  callee : Address
  gas : Int
  deriving DecidableEq

/-- Something that happened. -/
inductive Event
  /-- A message's sender was given an account. -/
  | touched (sender : Address)
  /-- A creator's count was moved on from a number. -/
  | counted (sender : Address) (nonce : Int) (kind : CallKind)
  /-- A nested frame started. -/
  | spawned (frame : Spawn)
  /-- A host answered a question other than a call. -/
  | answered (q : Query) (answer : q.Answer)
  /-- The interpreter was told the status of a write. -/
  | told (status : StorageStatus)
  /-- A function of the boundary failed. -/
  | failed (function : String) (error : FatalError)
  /-- The interpreter crashed. -/
  | crashed (fault : Fault)
  /-- A created contract was given its code. -/
  | deployed (callee : Address) (code : Bytes)
  /-- A nested frame was adopted. -/
  | finished (kind : CallKind) (callee : Address) (outcome : Outcome)

/-- What all frames of an execution share. -/
structure Session where
  arena : Arena Host := { base := Host.baseKind }
  /-- The outputs that hosts lent to interpreters. -/
  lent : Lending := {}
  /-- The outputs that interpreters lent to hosts. -/
  produced : Lending := {}
  /-- The oldest fatal error not yet taken. -/
  fatal : Option FatalError := none
  /-- Whether a failing function is to abort the process. -/
  abortOnFatal : Bool := false
  /-- How often the process was to be aborted. -/
  aborts : Nat := 0
  /-- What happened, newest event first. -/
  events : List Event := []

namespace Session

/-- The session with one more event. -/
def note (session : Session) (event : Event) : Session :=
  { session with events := event :: session.events }

/-- Records that a function failed. Of the errors recorded the first one stays. -/
def record (session : Session) (function : String) (failure : Failure) : Session :=
  let error := failure.recorded function
  { session with
    fatal := session.fatal.or (some error)
    aborts := if session.abortOnFatal then session.aborts + 1 else session.aborts
    events := .failed function error :: session.events }

/-- The recorded error, and the session without it. -/
def takeFatal (session : Session) : Option FatalError × Session :=
  (session.fatal, { session with fatal := none })

/-- An outcome for the native side, its output lent. -/
def lend (session : Session) (outcome : Outcome) : Except Fault (RawOutcome × Session) :=
  match int64? outcome.gasLeft with
  | none => .error .outOfRange
  | some gasLeft =>
    let (ticket, lent) := session.lent.lend outcome.output
    .ok ({ status := outcome.status, gasLeft, output := outcome.output,
           createAddress := outcome.createAddress, ticket }, { session with lent })

/-- Takes a lent output back. -/
def release (session : Session) (raw : RawOutcome) : Session :=
  { session with lent := session.lent.giveBack raw.ticket }

/-- The statuses that the interpreter was told, first one first. -/
def statuses (session : Session) : List StorageStatus :=
  (session.events.filterMap fun
    | .told status => some status
    | _ => none).reverse

/-- The nested frames that started, first one first. -/
def spawns (session : Session) : List Spawn :=
  (session.events.filterMap fun
    | .spawned frame => some frame
    | _ => none).reverse

/-- The faults that the interpreter crashed with, first one first. -/
def crashes (session : Session) : List Fault :=
  (session.events.filterMap fun
    | .crashed fault => some fault
    | _ => none).reverse

end Session

end ContractHost
