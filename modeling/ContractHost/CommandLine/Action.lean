import ContractHost.CommandLine.Error
import ContractHost.Execution

/-!
# Actions on a state

What a command does to a state. Creations and calls run the interpreter and keep the state after them,
whatever the outcome was; removing takes an account away; listing and inspecting only report. An action
that has no result keeps nothing.

* `Action.apply`: the report of an action, and the state to keep.
* `apply_reports`: a report without a state to keep is that of listing or inspecting.
-/

namespace ContractHost.CommandLine

/-- What a command prints, and whether it counts as a success. -/
structure Report where
  lines : List String
  success : Bool := true
  deriving DecidableEq, Repr

/-- The printed text of a report. -/
def Report.text (report : Report) : String :=
  String.join (report.lines.map fun line => line ++ "\n")

/-- How the process ends after a report. -/
def Report.exitCode (report : Report) : Nat := if report.success then 0 else 1

/-- What a command does to a state. -/
inductive Action
  /-- Creates a contract. -/
  | create (code : Bytes) (sender : Address) (gas : Int)
  /-- Calls a contract. -/
  | call (address sender : Address) (input : Bytes) (isStatic : Bool) (gas : Int)
  /-- Lists the accounts. -/
  | list
  /-- Reports one account. -/
  | inspect (address : Address)
  /-- Removes an account. -/
  | remove (address : Address)
  deriving DecidableEq

namespace Action

variable [Room]

/-- Whether an action runs an interpreter. -/
def runs : Action → Bool
  | .create .. | .call .. => true
  | _ => false

/-- The line about an account in a list. -/
def accountLine (address : Address) (account : Account) : String :=
  s!"{Derivation.checksum address}  nonce={Decimal.intText account.nonce}" ++
    s!"  code={account.codeSize}B  slots={account.storage.size}  logs={account.logs.length}"

/-- The lines about all accounts. -/
def accountLines (s : HostState) : List String :=
  if s.accounts.isEmpty then ["No accounts"]
  else s.accounts.entries.map fun (address, account) => accountLine address account

/-- The lines about an outcome. -/
def outcomeLines (outcome : Outcome) (showAddress : Bool) : List String :=
  [s!"Status:   {outcome.status.name}", s!"Gas left: {Decimal.intText outcome.gasLeft}"] ++
    (if showAddress then [s!"Address:  {Derivation.checksum outcome.createAddress}"] else []) ++
    [s!"Output:   {Hex.encode outcome.output}"]

/-- The outcome of a message on a state, and the state after it. -/
def execute (tx : TxContext) (abortOnFatal : Bool) (s : HostState) (message : Message) :
    Except CommandError (Outcome × HostState) :=
  match (Host.call message).run { host := { state := s, tx }, session := { abortOnFatal } } with
  | .ok outcome w => .ok (outcome, w.host.state)
  | .error failure _ => .error (.escaped failure)

/-- The report of a message on a state, and the state after it. -/
def executed (config : Config) (s : HostState) (message : Message) (showAddress : Bool) :
    Except CommandError (Report × Option HostState) := do
  let tx ← config.txContext.mapError CommandError.ofFault
  let (outcome, s) ← execute tx config.abortOnFatal s message
  return (⟨outcomeLines outcome showAddress, outcome.isSuccess⟩, some s)

/-- The account at an address. -/
def accountAt (s : HostState) (address : Address) : Except CommandError Account :=
  match s.find? address with
  | some account => .ok account
  | none => .error (.noAccount address)

/-- The code at an address. -/
def codeAt (s : HostState) (address : Address) : Except CommandError Bytes :=
  match (s.find? address).bind (·.code) with
  | some code => .ok code
  | none => .error (.noContract address)

/-- The report of an action, and the state to keep if there is one. The interpreter may be missing. -/
def apply (config : Config) (vm : Except CommandError Unit) (s : HostState) :
    Action → Except CommandError (Report × Option HostState)
  | .create code sender gas => do
    vm
    executed config s { kind := .create, gas, sender, input := code } true
  | .call address sender input isStatic gas => do
    let _ ← codeAt s address
    vm
    executed config s
      { flags := if isStatic then 1 else 0, gas, destination := address, sender, input } false
  | .list => .ok (⟨accountLines s, true⟩, none)
  | .inspect address => do
    let account ← accountAt s address
    return (⟨[Json.write .indented account.toValue], true⟩, none)
  | .remove address => do
    let _ ← accountAt s address
    return (⟨[s!"Removed {Derivation.checksum address}"], true⟩,
      some { s with accounts := s.accounts.erase address })

/-- What ran keeps a state. -/
theorem executed_keeps {config : Config} {s : HostState} {message : Message} {showAddress : Bool}
    {report : Report} {kept : Option HostState}
    (h : executed config s message showAddress = .ok (report, kept)) : kept.isSome = true := by
  unfold executed at h
  cases htx : config.txContext.mapError CommandError.ofFault with
  | error e =>
    rw [htx] at h
    cases h
  | ok tx =>
    rw [htx] at h
    cases hrun : execute tx config.abortOnFatal s message with
    | error e => simp [bind, Except.bind, hrun] at h
    | ok result =>
      obtain ⟨outcome, after⟩ := result
      simp only [bind, Except.bind, hrun, pure, Except.pure, Except.ok.injEq, Prod.mk.injEq] at h
      rw [← h.2]
      rfl

theorem apply_reports {config : Config} {vm : Except CommandError Unit} {s : HostState}
    {action : Action} {report : Report} (h : action.apply config vm s = .ok (report, none)) :
    action = .list ∨ ∃ address, action = .inspect address := by
  cases action with
  | list => exact .inl rfl
  | inspect address => exact .inr ⟨address, rfl⟩
  | create code sender gas =>
    rw [apply] at h
    cases vm with
    | error e => cases h
    | ok _ => cases executed_keeps h
  | call address sender input isStatic gas =>
    rw [apply] at h
    cases hcode : codeAt s address with
    | error e =>
      rw [hcode] at h
      cases h
    | ok code =>
      rw [hcode] at h
      cases vm with
      | error e => cases h
      | ok _ => cases executed_keeps h
  | remove address =>
    rw [apply] at h
    cases haccount : accountAt s address with
    | error e =>
      rw [haccount] at h
      cases h
    | ok account =>
      rw [haccount] at h
      cases h

end Action

end ContractHost.CommandLine
