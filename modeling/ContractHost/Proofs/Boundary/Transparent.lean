import ContractHost.Proofs.GuestFailures
import ContractHost.Proofs.Leaks

/-!
# The boundary is transparent

A question put through the native boundary is answered as the host's method answers it when it is called
directly, and leaves the host as that method leaves it. The one exception is a transaction's context with
a number that has no raw form: it can be read directly and cannot be sent.

* `Query.decode`, `Host.method`: raw answers, and methods called directly.
* `call_returns_sendable`, `call_leaves_fatal`: the outcome of a call can be sent, and no error is left.
* `borrowing_live`: a program run on the host behind a live handle.
* `dispatch_transparent`: both ways give the same.
-/

namespace ContractHost

open Interpreter

namespace Query

/-- What the method behind a question returns. -/
abbrev Result : Query → Type
  | txContext => TxContext
  | accountExists _ => Bool
  | getStorage .. => Bytes32
  | setStorage .. => StorageStatus
  | getBalance _ => Uint256
  | getCodeSize _ => Nat
  | getCodeHash _ => Bytes32
  | copyCode .. => Bytes
  | selfdestruct .. => Unit
  | call _ => Outcome
  | getBlockHash _ => Bytes32
  | emitLog .. => Unit

/-- What a raw answer stands for. -/
def decode : (q : Query) → q.Answer → q.Result
  | txContext, raw => raw.toContext
  | accountExists _, exists? => exists?
  | getStorage .., word => word
  | setStorage .., status => status
  | getBalance _, balance => balance
  | getCodeSize _, size => size
  | getCodeHash _, hash => hash
  | copyCode .., code => code
  | selfdestruct .., () => ()
  | call _, raw => raw.toOutcome
  | getBlockHash _, hash => hash
  | emitLog .., () => ()

/-- How many outputs are lent with a result. -/
def lends : (q : Query) → q.Result → Nat
  | call _, outcome => if outcome.output.isEmpty then 0 else 1
  | _, _ => 0

end Query

/-- The method behind a question, called directly. -/
def Host.method [Room] : (q : Query) → Run q.Result
  | .txContext => do return (← get).host.tx
  | .accountExists address => Methods.stateAnswer (.accountExists address)
  | .getStorage address key => Methods.stateAnswer (.getStorage address key)
  | .setStorage address key value => Methods.stateAnswer (.setStorage address key value)
  | .getBalance address => Methods.stateAnswer (.getBalance address)
  | .getCodeSize address => Methods.stateAnswer (.getCodeSize address)
  | .getCodeHash address => Methods.stateAnswer (.getCodeHash address)
  | .copyCode address offset size => Methods.stateAnswer (.copyCode address offset size)
  | .selfdestruct address beneficiary => Methods.stateAnswer (.selfdestruct address beneficiary)
  | .call raw => do Host.call (← Run.ofFault raw.toMessage)
  | .getBlockHash number => Methods.stateAnswer (.getBlockHash number)
  | .emitLog address data topics => Methods.stateAnswer (.emitLog address data topics)

/-- A question other than a call is answered by the method behind it, in raw form. -/
theorem Host.method_of_not_call [Room] {q : Query} (hq : q.isCall = false) {w : World}
    (context : q = .txContext → ∃ raw, w.host.tx.toRaw = .ok raw) :
    (Host.method q).on w =
      (((Methods.stateAnswer q).on w).1.map q.decode, ((Methods.stateAnswer q).on w).2) := by
  cases q with
  | call => cases hq
  | txContext =>
    obtain ⟨raw, hraw⟩ := context rfl
    rw [stateAnswer_on]
    have hcontext := TxContext.toContext_of_toRaw hraw
    simp [Host.method, Host.reply, Run.on_map, hraw, Query.decode, Except.map, hcontext]
  | setStorage address key value =>
    have hmap : ∀ x : Except Failure StorageStatus, x.map (fun status => status) = x := by
      intro x
      cases x <;> rfl
    exact Prod.ext (hmap _).symm rfl
  | _ => rfl

theorem Host.method_call [Room] {raw : RawMessage} {message : Message} (h : raw.toMessage = .ok message) :
    Host.method (.call raw) = Host.call message := by
  show (Run.ofFault raw.toMessage >>= Host.call) = Host.call message
  rw [h]
  rfl

/-! ## Calls -/

theorem Direct.runWithin_sendable [Room] {depth : Nat} {code : Bytes} {message : Message} {w w' : World}
    {outcome : Outcome} (h : (Direct.runWithin depth code message).on w = (.ok outcome, w')) :
    ∃ gas, int64? outcome.gasLeft = some gas := by
  have key : ∀ {call : Message → Run Outcome},
      (Direct.run call code message).on w = (.ok outcome, w') →
        ∃ gas, int64? outcome.gasLeft = some gas := by
    intro call hrun
    rw [Direct.run_on] at hrun
    split at hrun
    · obtain ⟨-, hraw, ending, u, hplayed, -, rfl, -⟩ := Direct.execute_eq_ok_iff.1 hrun
      have hgas := (Message.sendable_iff.1 hraw).2.2
      have hends : ((interpret message code).answerWith (Direct.serve call)
          (Direct.question .txContext w).2).1.Leaves message.gas :=
        ((interpret_obeys message code).answerWith (R := fun _ _ => True) (fun _ => trivial)
          (fun _ _ => trivial) (fun _ _ _ => trivial) _).2
      rw [hplayed] at hends
      exact hends.sendable hgas
    · cases hrun
  cases depth with
  | zero => exact key h
  | succ depth => exact key h

/-- The outcome of a call that returns can be sent. -/
theorem call_returns_sendable [Room] {message : Message} {w w' : World} {outcome : Outcome}
    (tidy : w.session.arena.Tidy) (room : w.session.arena.slots.length < Handle.places)
    (h : (Host.call message).on w = (.ok outcome, w')) :
    ∃ gas, int64? outcome.gasLeft = some gas := by
  have hdirect := call_returns_mirrors tidy room h
  obtain ⟨start, inner, v, -, hrun, hadopt⟩ := callVia_returns hdirect
  obtain ⟨gas, hgas⟩ := Direct.runWithin_sendable hrun
  obtain ⟨-, rfl, -⟩ := World.adopt_ok hadopt
  exact ⟨gas, hgas⟩

/-- A call leaves no recorded error, whether it returns or fails. -/
theorem call_leaves_fatal [Room] {message : Message} {w : World} (tidy : w.session.arena.Tidy)
    (room : ((Host.call message).on w).2.session.arena.slots.length < Handle.places)
    (empty : w.session.fatal = none) : ((Host.call message).on w).2.session.fatal = none := by
  obtain ⟨hdirect, -⟩ := call_mirrors message w tidy room
  have hreports : Reports ((Direct.call message).on w.bare).1 w.bare
      ((Direct.call message).on w.bare).2 :=
    Direct.callVia_reports (Direct.runWithin_reports message.gas.toNat) message w.bare
  rw [hdirect] at hreports
  obtain ⟨trace, -, hslot⟩ := hreports
  rcases hslot with ⟨htaken, -⟩ | ⟨hkept, -⟩
  · exact htaken
  · exact hkept.trans empty

/-! ## Live handles -/

/-- An arena with the same live handles, in which one object may have another form. -/
structure Arena.SameBut {α : Type} (a b : Arena α) (index : Nat) : Prop where
  live : b.live = a.live
  handles : ∀ handle asked, (∃ loan, a.resolve handle asked = .ok loan) ↔
    ∃ loan, b.resolve handle asked = .ok loan
  others : ∀ handle asked loan, a.resolve handle asked = .ok loan → loan.index ≠ index →
    b.resolve handle asked = .ok loan

theorem Arena.resolves_of_marks {α : Type} {a b : Arena α} (hmark : ∀ i, b.mark? i = a.mark? i)
    (handle : Handle) (asked : Kind) :
    (∃ loan, a.resolve handle asked = .ok loan) ↔ ∃ loan, b.resolve handle asked = .ok loan := by
  constructor
  · rintro ⟨loan, hloan⟩
    obtain ⟨loan', hloan', -⟩ := resolve_of_mark hloan (hmark loan.index)
    exact ⟨loan', hloan'⟩
  · rintro ⟨loan, hloan⟩
    obtain ⟨loan', hloan', -⟩ := resolve_of_mark hloan (hmark loan.index).symm
    exact ⟨loan', hloan'⟩

/-- A loan that began before other work can end after it, and then only the object on loan is another. -/
theorem Arena.update_live {α : Type} {a b : Arena α} {handle : Handle} {asked : Kind} {loan : Loan α}
    (live : a.resolve handle asked = .ok loan) (restores : a.Restores b) (keeps : a.Keeps b)
    (object : α) :
    b.holds loan = true ∧
      (∃ loan', (b.update loan object).resolve handle asked = .ok loan' ∧
        loan'.occupant.object = object) ∧
      a.SameBut (b.update loan object) loan.index := by
  obtain ⟨hplace, hslot, hkind⟩ := resolve_ok_iff.1 live
  have hlt : loan.index < a.slots.length := lt_of_occupant (by rw [hslot])
  let seat : Seat := ⟨handle, loan.index, hplace, loan.occupant.serial⟩
  have hseated : a.Seated seat loan.occupant.kind loan.occupant.object :=
    (slot_of_lt hlt).trans (congrArg some hslot)
  obtain ⟨hholds, hseated', -, hothers⟩ :=
    update_seated (hseated.of_keeps keeps) restores.tidy loan.occupant.object object
  change b.holds loan = true at hholds
  change (b.update loan object).Seated seat loan.occupant.kind object at hseated'
  have hmark : ∀ i, (b.update loan object).mark? i = a.mark? i := fun i =>
    (mark?_update ..).trans (restores.mark i)
  have hlive : (b.update loan object).live = a.live :=
    (Restores.update restores.tidy loan object).live.trans restores.live
  refine ⟨hholds, ⟨_, resolve_seated hseated' hkind, rfl⟩, hlive, resolves_of_marks hmark, ?_⟩
  intro other asked found hfound hne
  obtain ⟨hplace', hslot', hkind'⟩ := resolve_ok_iff.1 (keeps.resolve hfound)
  refine resolve_ok_iff.2 ⟨hplace', ?_, hkind'⟩
  rw [← hslot']
  exact congrArg (·.getD {}) (hothers found.index hne)

/-- A program on the host behind a live handle: its result comes through, and the handle then resolves to
the host that it left. -/
theorem borrowing_live {α : Type} {session : Session} {handle : Handle} {loan : Loan Host}
    (live : session.arena.resolve handle Host.baseKind = .ok loan) {program : Run α}
    {result : Except Failure α} {w : World}
    (hprogram : program.on { host := loan.occupant.object, session } = (result, w))
    (restores : session.arena.Restores w.session.arena)
    (keeps : session.arena.Keeps w.session.arena) :
    ∃ arena, borrowing handle program session = (result, { w.session with arena }) ∧
      (∃ loan', arena.resolve handle Host.baseKind = .ok loan' ∧ loan'.occupant.object = w.host) ∧
      session.arena.SameBut arena loan.index := by
  obtain ⟨hholds, hhost, hsame⟩ := Arena.update_live live restores keeps w.host
  refine ⟨w.session.arena.update loan w.host, ?_, hhost, hsame⟩
  rw [borrowing_granted live hprogram]
  simp only [Arena.endLoan, hholds, if_true]
  cases result <;> rfl

/-! ## Questions and calls -/

/-- What became of a question that was put through the boundary, where the method behind it, called
directly on the same host, had a result and left a world. -/
structure Transparent {q : Query} (session : Session) (handle : Handle) (index : Nat)
    (direct : Except Failure q.Result × World) (crossed : q.Answer × Session) : Prop where
  host : ∃ loan, crossed.2.arena.resolve handle Host.baseKind = .ok loan ∧
    loan.occupant.object = direct.2.host
  arena : session.arena.SameBut crossed.2.arena index
  returned : ∀ result, direct.1 = .ok result →
    q.decode crossed.1 = result ∧ crossed.2.fatal = none ∧
      crossed.2.lent.count = session.lent.count + q.lends result
  raised : ∀ failure, direct.1 = .error failure →
    crossed.1 = q.neutral ∧ crossed.2.takeFatal.1 = some (failure.recorded q.function)

variable {session : Session} {handle : Handle} {loan : Loan Host}

theorem dispatchQuestion_transparent [Room] {q : Query} (hq : q.isCall = false)
    (tidy : session.arena.Tidy)
    (live : session.arena.resolve handle Host.baseKind = .ok loan) (unfailed : session.fatal = none)
    (context : q = .txContext → ∃ raw, loan.occupant.object.tx.toRaw = .ok raw) :
    Transparent session handle loan.index
      ((Host.method q).on { host := loan.occupant.object, session })
      (dispatchQuestion Host.methods handle q session) := by
  have hmethod := Host.method_of_not_call hq (w := ⟨loan.occupant.object, session⟩) context
  have hprogram := stateAnswer_on q { host := loan.occupant.object, session }
  rw [hmethod]
  generalize hran : (Methods.stateAnswer q).on { host := loan.occupant.object, session } = ran
    at hprogram ⊢
  obtain ⟨result, host, session'⟩ := ran
  obtain rfl : session' = session := by
    cases hprogram
    rfl
  obtain ⟨arena, hborrow, hhost, hsame⟩ :=
    borrowing_live live hran (.refl tidy) (Arena.Keeps.refl _)
  unfold dispatchQuestion
  change borrowing handle (Host.methods.answer q) session' = _ at hborrow
  rw [hborrow]
  have hlends : ∀ result, q.lends result = 0 := by
    intro result
    cases q with
    | call => cases hq
    | _ => rfl
  cases result with
  | ok answer =>
    refine ⟨hhost, hsame, fun result h => ?_, fun _ h => by cases h⟩
    cases h
    exact ⟨rfl, unfailed, (congrArg (session'.lent.count + ·) (hlends _)).symm⟩
  | error failure =>
    refine ⟨hhost, hsame, fun _ h => (by cases h), fun failure' h => ?_⟩
    cases h
    refine ⟨rfl, ?_⟩
    show session'.fatal.or (some (failure.recorded q.function)) = _
    rw [unfailed, Option.none_or]

theorem Lending.count_lend (lending : Lending) (output : Bytes) :
    (lending.lend output).2.count = lending.count + if output.isEmpty then 0 else 1 := by
  unfold lend
  split <;> rfl

/-- Until a call that returns is lent its output, nothing is pending that was not pending before. -/
theorem dispatchCall_transparent [Room] {raw : RawMessage} {message : Message} (tidy : session.arena.Tidy)
    (live : session.arena.resolve handle Host.baseKind = .ok loan) (unfailed : session.fatal = none)
    (hraw : raw.toMessage = .ok message)
    (room : ((Host.call message).on
      { host := loan.occupant.object, session }).2.session.arena.slots.length < Handle.places) :
    Transparent (q := .call raw) session handle loan.index
      ((Host.call message).on { host := loan.occupant.object, session })
      (dispatchCall Host.methods handle raw session) := by
  have hfatal := call_leaves_fatal (w := ⟨loan.occupant.object, session⟩) tidy room unfailed
  have hsettles := Host.methods_settle.call message ⟨loan.occupant.object, session⟩
  have hroom : session.arena.slots.length < Handle.places := Nat.lt_of_le_of_lt hsettles.grows room
  have hsettled := hsettles.settled tidy room
  obtain ⟨-, -, hkeeps⟩ := call_mirrors message ⟨loan.occupant.object, session⟩ tidy room
  have hsent : ∀ outcome w, (Host.call message).on ⟨loan.occupant.object, session⟩ = (.ok outcome, w) →
      ∃ gas, int64? outcome.gasLeft = some gas := fun outcome w =>
    call_returns_sendable tidy hroom
  change session.Settled ((Host.call message).on ⟨loan.occupant.object, session⟩).2.session
    at hsettled
  generalize hran : (Host.call message).on ⟨loan.occupant.object, session⟩ = ran
    at hfatal hsettled hkeeps hsent ⊢
  obtain ⟨result, w⟩ := ran
  obtain ⟨arena, hborrow, hhost, hsame⟩ := borrowing_live live hran hsettled.arena hkeeps
  change borrowing handle (Host.methods.call message) session = _ at hborrow
  unfold dispatchCall
  simp only [hraw, hborrow]
  cases result with
  | error failure =>
    refine ⟨hhost, hsame, fun _ h => (by cases h), fun failure' h => ?_⟩
    cases h
    refine ⟨rfl, ?_⟩
    show w.session.fatal.or (some (failure.recorded (Query.call raw).function)) = _
    rw [hfatal, Option.none_or]
  | ok outcome =>
    obtain ⟨gas, hgas⟩ := hsent outcome w rfl
    have hcount : w.session.lent.count = session.lent.count := congrArg List.length hsettled.lent
    simp only [Session.lend, hgas]
    refine ⟨hhost, hsame, fun result h => ?_, fun _ h => by cases h⟩
    cases h
    refine ⟨?_, hfatal, ?_⟩
    · show RawOutcome.toOutcome _ = outcome
      unfold RawOutcome.toOutcome
      rw [int64?_eq_some_iff.1 hgas]
    · show (w.session.lent.lend outcome.output).2.count = _
      rw [Lending.count_lend, hcount]
      rfl

/-- Every question whose message was made from one, and for the context of the transaction one that can
be sent, is answered through the boundary as it is directly: what the method returns is the answer, and
no error is recorded; what it raises is recorded, wrapped if it is a fault, and the answer is the neutral
one. The host is the one that the method left, every handle is as live as before, and an output is lent
for a call that has one. The arena is to have a handle for each slot it came to need. -/
theorem dispatch_transparent [Room] {q : Query} (tidy : session.arena.Tidy)
    (live : session.arena.resolve handle Host.baseKind = .ok loan) (unfailed : session.fatal = none)
    (sendable : ∀ raw, q = .call raw → ∃ message : Message, message.toRaw = .ok raw)
    (context : q = .txContext → ∃ raw, loan.occupant.object.tx.toRaw = .ok raw)
    (room : ((Host.method q).on
      { host := loan.occupant.object, session }).2.session.arena.slots.length < Handle.places) :
    Transparent session handle loan.index
      ((Host.method q).on { host := loan.occupant.object, session })
      (dispatch Host.methods handle q session) := by
  rcases q.call_or_not with ⟨raw, rfl⟩ | hq
  · obtain ⟨message, hraw⟩ := sendable raw rfl
    rw [Message.toRaw_eq_ok_iff] at hraw
    rw [Host.method_call hraw] at room ⊢
    exact dispatchCall_transparent tidy live unfailed hraw room
  · have hdispatch : dispatch Host.methods handle q session =
        dispatchQuestion Host.methods handle q session := by
      cases q with
      | call => cases hq
      | _ => rfl
    rw [hdispatch]
    exact dispatchQuestion_transparent hq tidy live unfailed context

/-- A session whose arena has taken in one host, which has the handle 1. -/
def Session.hosting (host : Host) : Session where
  arena :=
    { base := Host.baseKind
      slots := [{ generation := 0, occupant := some { object := host, kind := Host.kind, serial := 0 } }]
      live := 1
      serial := 1
      book := [.taken 0 1 { object := host, kind := Host.kind, serial := 0 }] }

theorem Session.hosting_tidy (host : Host) : (Session.hosting host).arena.Tidy :=
  ⟨List.nodup_nil, nofun⟩

theorem Session.hosting_live (host : Host) :
    (Session.hosting host).arena.resolve 1 Host.baseKind =
      .ok { index := 0, occupant := { object := host, kind := Host.kind, serial := 0 } } := by
  have hplace : Handle.place 1 = 0 + 1 := by decide +kernel
  have hgeneration : 0 = Handle.generation 1 := by decide +kernel
  exact Arena.resolve_of_place hplace rfl rfl hgeneration rfl

section

attribute [local instance] Room.usual

/-- A call of code that returns a byte of memory is answered with that byte, which is lent. -/
theorem dispatch_transparent_lending :
    let host := (World.calling [0x60, 1, 0x60, 31, 0xf3]).host
    let raw : RawMessage := ⟨0, 0, 0, 50, .ofNat 3, .zero, [], .zero, .zero⟩
    let (answer, after) := dispatch Host.methods 1 (.call raw) (.hosting host)
    answer.toOutcome = { gasLeft := 47, output := [0], createAddress := .ofNat 3 } ∧
      after.fatal = none ∧ after.lent.count = 1 := by
  intro host raw
  have hmessage : Message.toRaw { gas := 50, destination := .ofNat 3 } = .ok raw := by
    decide +kernel
  have room : ((Host.method (.call raw)).on
      { host, session := .hosting host }).2.session.arena.slots.length < Handle.places := by
    decide +kernel
  have hreturns : ((Host.method (.call raw)).on { host, session := .hosting host }).1 =
      .ok { gasLeft := 47, output := [0], createAddress := .ofNat 3 } := by
    decide +kernel
  have htransparent := dispatch_transparent (q := .call raw) (Session.hosting_tidy host)
    (Session.hosting_live host) rfl (fun raw' h => ⟨_, Query.call.inj h ▸ hmessage⟩) nofun room
  exact htransparent.returned _ hreturns

end

section

attribute [local instance] Room.usual

/-- A transaction's context with a block number of `2 ^ 63` is read directly, but cannot be sent, although
the handle is live and no error is recorded. -/
theorem dispatch_context_opaque :
    let host : Host := { tx := { blockNumber := 9223372036854775808 } }
    let direct := (Host.method .txContext).on { host, session := .hosting host }
    let crossed := dispatch Host.methods 1 .txContext (.hosting host)
    (∃ loan, (Session.hosting host).arena.resolve 1 Host.baseKind = .ok loan ∧
        loan.index = 0 ∧ loan.occupant.object = host) ∧
      (Session.hosting host).fatal = none ∧
      direct.1 = .ok host.tx ∧ crossed.1 = RawTxContext.zero ∧
      crossed.2.fatal = some (.wrapped "get_tx_context" .outOfRange) ∧
      ¬ Transparent (q := .txContext) (.hosting host) 1 0 direct crossed := by
  intro host direct crossed
  have hdirect : direct.1 = .ok host.tx := rfl
  have hfatal : crossed.2.fatal = some (.wrapped "get_tx_context" .outOfRange) := by
    decide +kernel
  refine ⟨⟨_, Session.hosting_live host, rfl, rfl⟩, rfl, hdirect, by decide +kernel, hfatal, ?_⟩
  intro htransparent
  obtain ⟨-, hnone, -⟩ := htransparent.returned _ hdirect
  rw [hfatal] at hnone
  cases hnone

end

end ContractHost
