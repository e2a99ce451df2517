import ContractHost.Proofs.Execution.Regular
import ContractHost.Proofs.Execution.Course

/-!
# The failures that a guest can cause

A function of a host may fail in many ways, but the code of a contract can bring about two of them only:
it may call an address without code, and it may leave an account that it destructed. Whatever else could
fail is excluded by what every step keeps. No count of the state is negative, the list of destructed
accounts does not get shorter, the arena takes hosts, and an error that is waiting to be taken up is one
of the two.

* `World.Sound`: what every step keeps.
* `Run.Expected`: a program that returns an outcome fit to be sent, or fails in one of the two ways.
* `call_fails_byGuest`: all failures of a call, at whatever depth, are of these two kinds.
-/

namespace ContractHost

open Interpreter

/-- A fatal error that the code of a contract can bring about. -/
inductive FatalError.ByGuest : FatalError → Prop
  | noCode (callee : Address) (kind : CallKind) : ByGuest (.noCode callee kind)
  | held (depth : Int) (addresses : List Address) : ByGuest (.merge (.held depth addresses))

/-- The result of a frame: an outcome whose gas can be sent, or an error that the guest caused. -/
inductive Expected : Except Failure Outcome → Prop
  | returned {outcome : Outcome} (h : ∃ gas, int64? outcome.gasLeft = some gas) :
      Expected (.ok outcome)
  | failed {e : FatalError} (h : e.ByGuest) : Expected (.error (.fatal e))

/-- A world in which only the guest can make a function fail, and no other error is waiting. -/
structure World.Sound (w : World) : Prop where
  regular : w.host.state.Regular
  context : ∃ raw, w.host.tx.toRaw = .ok raw
  hosts : Host.kind.isA w.session.arena.base = true
  pending : ∀ e, w.session.fatal = some e → e.ByGuest

/-- A later world that is sound as well, and the failures on the way were the guest's. -/
structure Upheld (w w' : World) : Prop where
  sound : w'.Sound
  listed : w.host.state.destructed.length ≤ w'.host.state.destructed.length
  failures : ∃ trace, Adds trace w w' ∧ ∀ function e, .failed function e ∈ trace → e.ByGuest

/-- What leads from sound worlds to sound ones. -/
def Upholds (w w' : World) : Prop := w.Sound → Upheld w w'

/-- A program that upholds what is sound and whose result is an expected one. -/
def Run.Expected (program : Run Outcome) : Prop :=
  ∀ {w : World}, w.Sound →
    ContractHost.Expected (program.on w).1 ∧ Upheld w (program.on w).2

theorem HostState.le_replay_destructed (trace : List Event) (s : HostState) :
    s.destructed.length ≤ (replay trace s).destructed.length := by
  rw [replay_destructed, List.length_append]
  omega

section

variable {u v w w' : World}

/-- Steps without failures on regular states. -/
theorem World.Sound.quiet (h : w.Sound) {trace : List Event} (hquiet : Quiet trace w w')
    (hregular : w'.host.state.Regular)
    (hlisted : w.host.state.destructed.length ≤ w'.host.state.destructed.length)
    (hbase : w'.session.arena.base = w.session.arena.base) : Upheld w w' := by
  refine ⟨⟨hregular, ?_, ?_, ?_⟩, hlisted, trace, hquiet.toAdds, fun function e hmem => ?_⟩
  · rw [hquiet.tx]
    exact h.context
  · rw [hbase]
    exact h.hosts
  · rw [hquiet.fatal]
    exact h.pending
  · cases List.findSome?_eq_none_iff.1 hquiet.silent _ hmem

theorem Upheld.refl (h : w.Sound) : Upheld w w := by
  have hquiet : Quiet [] w w := ⟨.refl w, rfl, rfl⟩
  exact h.quiet hquiet h.regular (Nat.le_refl _) rfl

theorem Upheld.trans (h : Upheld u v) (h' : Upheld v w) : Upheld u w := by
  obtain ⟨first, hfirst, hguest⟩ := h.failures
  obtain ⟨second, hsecond, hguest'⟩ := h'.failures
  refine ⟨h'.sound, Nat.le_trans h.listed h'.listed, first ++ second, hfirst.trans hsecond, ?_⟩
  intro function e hmem
  exact (List.mem_append.1 hmem).elim (hguest function e) (hguest' function e)

/-- What else the session holds does not matter, and an error may be taken up. -/
theorem Upheld.of_session (h : Upheld w v) {session : Session}
    (hfatal : ∀ e, session.fatal = some e → v.session.fatal = some e)
    (hbase : session.arena.base = v.session.arena.base)
    (hevents : session.events = v.session.events) : Upheld w { v with session } := by
  obtain ⟨trace, hadds, hguest⟩ := h.failures
  refine ⟨⟨h.sound.regular, h.sound.context, ?_, ?_⟩, h.listed, trace, ?_, hguest⟩
  · exact (congrArg Host.kind.isA hbase).trans h.sound.hosts
  · exact fun e he => h.sound.pending e (hfatal e he)
  · exact ⟨hadds.tx, hevents.trans hadds.events⟩

theorem Upheld.record (h : Upheld w v) {e : FatalError} (he : e.ByGuest) (function : String) :
    Upheld w { v with session := v.session.record function (.fatal e) } := by
  obtain ⟨trace, hadds, hguest⟩ := h.failures
  refine ⟨⟨h.sound.regular, h.sound.context, h.sound.hosts, fun e' he' => ?_⟩, h.listed,
    trace ++ [.failed function e], ⟨hadds.tx, ?_⟩, fun function' e' hmem => ?_⟩
  · rw [Session.record_fatal] at he'
    rcases Option.or_eq_some_iff.1 he' with hpending | ⟨-, hrecorded⟩
    · exact h.sound.pending e' hpending
    · cases hrecorded
      exact he
  · simp [Session.record_events, hadds.events, Failure.recorded]
  · rcases List.mem_append.1 hmem with hold | hnew
    · exact hguest function' e' hold
    · cases List.mem_singleton.1 hnew
      exact he

/-- The host of a failed frame is given up, and an earlier one stays. -/
theorem Upheld.of_host (h : Upheld w v) (h' : Upheld w u) :
    Upheld w { host := u.host, session := v.session } := by
  obtain ⟨trace, hadds, hguest⟩ := h.failures
  obtain ⟨trace', hadds', -⟩ := h'.failures
  exact ⟨⟨h'.sound.regular, h'.sound.context, h.sound.hosts, h.sound.pending⟩, h'.listed, trace,
    ⟨hadds'.tx, hadds.events⟩, hguest⟩

theorem Upholds.refl (w : World) : Upholds w w := Upheld.refl

theorem Upholds.trans (h : Upholds u v) (h' : Upholds v w) : Upholds u w :=
  fun hu => (h hu).trans (h' (h hu).sound)

end

/-! ## One frame -/

theorem Interpreter.Ending.Leaves.sendable {gas : Int} {ending : Ending} (h : ending.Leaves gas)
    (hgas : ∃ raw, int64? gas = some raw) :
    ∃ raw, int64? ending.outcome.gasLeft = some raw := by
  rw [int64?_fits_iff] at hgas ⊢
  have hpos : (0 : Int) < twoTo 63 := by decide
  cases ending with
  | halted status left output =>
    show -twoTo 63 ≤ left ∧ left < twoTo 63
    have hleft : left = gas ∨ 0 ≤ left ∧ left ≤ max gas 0 := h
    omega
  | crashed cause =>
    show -twoTo 63 ≤ (0 : Int) ∧ (0 : Int) < twoTo 63
    omega

namespace Direct

/-- A way of serving the calls that can be sent. -/
def ServesSendable (call : Message → Run Outcome) : Prop :=
  ∀ {message : Message}, (∃ raw, message.toRaw = .ok raw) → (call message).Expected

variable {call : Message → Run Outcome}

theorem question_upholds (q : Query) (w : World) : Upholds w (question q w).2 := by
  intro hw
  obtain ⟨answer, hanswer⟩ := Host.reply_ok hw.regular hw.context q
  unfold question
  cases hreply : w.host.reply q with
  | mk result state =>
    rw [hreply] at hanswer
    cases hanswer
    have hstate : state = replay [.answered q answer] w.host.state := by
      refine (congrArg Prod.snd hreply).symm.trans ?_
      exact (Event.effect_answered w.host q answer).symm
    have hquiet : Quiet [.answered q answer] w
        { host := { w.host with state }, session := w.session.note (.answered q answer) } :=
      Quiet.log rfl rfl
    refine hw.quiet hquiet ?_ ?_ rfl
    · exact hstate ▸ replay_regular _ hw.regular
    · exact hstate ▸ HostState.le_replay_destructed _ _

theorem request_upholds (hcall : ServesSendable call) {message : Message} {raw : RawMessage}
    (hasks : message.Asks (.call raw)) (w : World) : Upholds w (request call raw w).2 := by
  intro hw
  obtain ⟨nested, hraw, -⟩ := hasks
  obtain ⟨hresult, hupheld⟩ := hcall ⟨raw, Message.toRaw_eq_ok_iff.2 hraw⟩ hw
  unfold request
  simp only [hraw]
  generalize (call nested).on w = r at hresult hupheld ⊢
  obtain ⟨result, v⟩ := r
  cases hresult with
  | failed he => exact hupheld.record he _
  | returned hgas =>
    obtain ⟨gas, hgas⟩ := hgas
    simp only [Session.lend, hgas]
    exact hupheld.of_session (fun _ h => h) rfl rfl

theorem serve_upholds (hcall : ServesSendable call) {message : Message} {q : Query}
    (hasks : message.Asks q) (w : World) : Upholds w (serve call q w).2 := by
  intro hw
  rcases q.call_or_not with ⟨raw, rfl⟩ | hq
  · exact (request_upholds hcall hasks w hw).of_session (fun _ h => h) rfl rfl
  · rw [serve_of_not_call w hq]
    have hquestion := question_upholds q w hw
    generalize question q w = r at hquestion ⊢
    exact hquestion.trans (hquestion.sound.quiet (q.told_quiet r.1 r.2) hquestion.sound.regular
      (Nat.le_refl _) rfl)

theorem execute_expected [Room] (hcall : ServesSendable call) (code : Bytes) {message : Message}
    (sendable : ∃ raw, message.toRaw = .ok raw) {w : World} (hw : w.Sound) :
    Expected (execute call code message w).1 ∧ Upheld w (execute call code message w).2 := by
  have hgas := (Message.sendable_iff.1 sendable).2.2
  obtain ⟨raw, hraw⟩ := sendable
  have hopening := question_upholds .txContext w hw
  unfold execute
  simp only [raiseFatal_eq, hraw]
  generalize (question .txContext w).2 = v at hopening ⊢
  cases hv : v.session.fatal with
  | some e => exact ⟨.failed (hopening.sound.pending e hv), hopening.of_session nofun rfl rfl⟩
  | none =>
    -- nothing is recorded yet, so the interpreter starts from where the first question led
    have hclear : { v with session := { v.session with fatal := none } } = v := by rw [← hv]
    obtain ⟨hcourse, hends⟩ := (interpret_obeys message code).answerWith Upholds.refl Upholds.trans
      (fun q w hasks => serve_upholds hcall hasks w) v
    simp only [hclear]
    generalize (interpret message code).answerWith (serve call) v = played at hcourse hends ⊢
    obtain ⟨ending, u⟩ := played
    have hplayed : Upheld w u := hopening.trans (hcourse hopening.sound)
    have hconcluded := hplayed.trans (hplayed.sound.quiet (Session.conclude_quiet u ending)
      hplayed.sound.regular (Nat.le_refl _) rfl)
    simp only
    cases hend : (u.session.conclude ending).fatal with
    | some e =>
      exact ⟨.failed (hconcluded.sound.pending e hend), hconcluded.of_session nofun rfl rfl⟩
    | none => exact ⟨.returned (hends.sendable hgas), hconcluded.of_session nofun rfl rfl⟩

theorem run_expected [Room] (hcall : ServesSendable call) (code : Bytes) {message : Message}
    (sendable : ∃ raw, message.toRaw = .ok raw) : (run call code message).Expected := by
  intro w hw
  rw [run_on, if_pos hw.hosts]
  exact execute_expected hcall code sendable hw

end Direct

/-! ## Frames within frames -/

theorem HostState.start_sendable {s : HostState} {message : Message} {start : Start}
    (h : s.start message = .ok start) (sendable : ∃ raw, message.toRaw = .ok raw) :
    ∃ raw, start.message.toRaw = .ok raw := by
  rw [Message.sendable_iff] at sendable ⊢
  rw [start_message h]
  exact sendable

/-- A nested frame that kept the list of destructed accounts is adopted, unless it left one of them. -/
theorem World.adopt_expected {w v : World} {start : Start} {inner : Outcome}
    (hw : w.host.state.Regular) (hv : v.host.state.Regular)
    (hlisted : w.host.state.destructed.length ≤ v.host.state.destructed.length)
    (hgas : ∃ gas, int64? inner.gasLeft = some gas) :
    Expected (w.adopt start inner v).1 ∧ (w.adopt start inner v).2.host.state.Regular ∧
      w.host.state.destructed.length ≤ (w.adopt start inner v).2.host.state.destructed.length := by
  have hchild := v.host.state.withCode_eq_replay start inner
  have hregular : (v.host.state.withCode start inner).Regular := hchild ▸ replay_regular _ hv
  have hkept : w.host.state.destructed.length ≤
      (v.host.state.withCode start inner).destructed.length := by
    rw [hchild]
    exact Nat.le_trans hlisted (HostState.le_replay_destructed _ _)
  unfold World.adopt
  cases hmerge : w.host.state.merge (v.host.state.withCode start inner) with
  | ok state =>
    obtain ⟨-, -, rfl⟩ := HostState.merge_ok_iff.1 hmerge
    exact ⟨.returned hgas, hregular, hkept⟩
  | error e =>
    unfold HostState.merge at hmerge
    rw [if_neg (Nat.not_lt.2 hkept)] at hmerge
    split at hmerge
    · cases hmerge
    · cases hmerge
      exact ⟨.failed (.held _ _), hw, Nat.le_refl _⟩

theorem Direct.callVia_expected {run : Bytes → Message → Run Outcome}
    (hrun : ∀ (code : Bytes) {m : Message}, (∃ raw, m.toRaw = .ok raw) → (run code m).Expected)
    {message : Message} (sendable : ∃ raw, message.toRaw = .ok raw) :
    (callVia run message).Expected := by
  intro w hw
  have hresolved : Upheld w (w.resolve message) := by
    have hstate : (w.resolve message).host.state =
        replay (w.host.state.resolution message) w.host.state := (replay_resolution ..).symm
    refine hw.quiet (w.resolve_quiet message) ?_ ?_ rfl
    · exact hstate ▸ replay_regular _ hw.regular
    · exact hstate ▸ HostState.le_replay_destructed _ _
  rw [callVia_on]
  cases hstart : w.host.state.start message with
  | error failure =>
    obtain ⟨callee, rfl⟩ := HostState.start_fails hw.regular hstart
    exact ⟨.failed (.noCode callee message.kind), hresolved⟩
  | ok start =>
    have henter : Upheld (w.resolve message) ((w.resolve message).enter start) :=
      hresolved.sound.quiet (World.enter_quiet ..) hresolved.sound.regular (Nat.le_refl _) rfl
    obtain ⟨hresult, hframe⟩ :=
      hrun start.code (HostState.start_sendable hstart sendable) henter.sound
    have hnested := henter.trans hframe
    simp only
    generalize (run start.code start.message).on ((w.resolve message).enter start) = r
      at hresult hframe hnested ⊢
    obtain ⟨result, v⟩ := r
    have hback := (hresolved.trans hnested).of_host hresolved
    cases hresult with
    | failed he => exact ⟨.failed he, hback⟩
    | returned hgas =>
      obtain ⟨last, hlast⟩ := (w.resolve message).adopt_quiet v start _
      obtain ⟨hexpected, hregular, hlisted⟩ :=
        World.adopt_expected hresolved.sound.regular hframe.sound.regular hnested.listed hgas
      refine ⟨hexpected, hback.trans (hback.sound.quiet hlast hregular hlisted ?_)⟩
      rw [((w.resolve message).adopt_session v start _).1]

theorem Direct.runWithin_expected [Room] (depth : Nat) (code : Bytes) {message : Message}
    (sendable : ∃ raw, message.toRaw = .ok raw) : (runWithin depth code message).Expected := by
  induction depth generalizing code message with
  | zero =>
    refine run_expected (fun _ w hw => ?_) code sendable
    exact ⟨.returned ⟨0, rfl⟩, .refl hw⟩
  | succ depth ih => exact run_expected (callVia_expected ih) code sendable

theorem FatalError.ByGuest.message {e : FatalError} (h : e.ByGuest) (wording : Fault → String) :
    (∃ (callee : Address) (kind : CallKind),
      e.message wording = s!"No code at {callee.toHex} for {kind.name}") ∨
    ∃ (depth : Int) (addresses : List Address),
      e.message wording = s!"Child frame at depth {depth} holds destructed accounts: " ++
        String.intercalate ", " (addresses.map (·.toHex)) := by
  cases h with
  | noCode callee kind => exact Or.inl ⟨callee, kind, rfl⟩
  | held depth addresses => exact Or.inr ⟨depth, addresses, rfl⟩

/-- A call of a message that can be sent, on a state without negative counts and for a transaction that
can be sent, returns or fails with an error that the guest caused: there is no code at a callee, or a
frame left accounts that it destructed. The same goes for every failure of a function in any of its
frames. The arena is to take hosts and to have a handle for each slot it came to need. -/
theorem call_fails_byGuest [Room] {message : Message} {w : World} (tidy : w.session.arena.Tidy)
    (hosts : Host.kind.isA w.session.arena.base = true)
    (room : ((Host.call message).on w).2.session.arena.slots.length < Handle.places)
    (empty : w.session.fatal = none)
    (sendable : ∃ raw, message.toRaw = .ok raw) (context : ∃ raw, w.host.tx.toRaw = .ok raw)
    (regular : w.host.state.Regular) :
    ((∃ outcome, ((Host.call message).on w).1 = .ok outcome) ∨
      ∃ e, ((Host.call message).on w).1 = .error (.fatal e) ∧ e.ByGuest ∧
        ∀ wording,
          (∃ (callee : Address) (kind : CallKind),
            e.message wording = s!"No code at {callee.toHex} for {kind.name}") ∨
          ∃ (depth : Int) (addresses : List Address),
            e.message wording = s!"Child frame at depth {depth} holds destructed accounts: " ++
              String.intercalate ", " (addresses.map (·.toHex))) ∧
      ∃ trace : List Event,
        ((Host.call message).on w).2.session.events = trace.reverse ++ w.session.events ∧
          ∀ function e, .failed function e ∈ trace → e.ByGuest := by
  obtain ⟨hdirect, -⟩ := call_mirrors message w tidy room
  have hsound : w.bare.Sound := by
    refine ⟨regular, context, hosts, fun e he => ?_⟩
    cases empty.symm.trans he
  have hexpected := Direct.callVia_expected (Direct.runWithin_expected message.gas.toNat)
    sendable hsound
  change Expected ((Direct.call message).on w.bare).1 ∧
    Upheld w.bare ((Direct.call message).on w.bare).2 at hexpected
  rw [hdirect] at hexpected
  obtain ⟨hresult, hupheld⟩ := hexpected
  obtain ⟨trace, hadds, hguest⟩ := hupheld.failures
  refine ⟨?_, trace, hadds.events, hguest⟩
  generalize ((Host.call message).on w).1 = result at hresult
  cases hresult with
  | returned => exact Or.inl ⟨_, rfl⟩
  | failed he => exact Or.inr ⟨_, rfl, he, he.message⟩

section

attribute [local instance] Room.usual

/-- The nested frame calls an address without code, and the call that started it fails with it. -/
theorem call_fails_byGuest_stranded :
    let r := (Host.call { gas := 50, destination := .ofNat 1 }).on (.calling strandedCode)
    (∃ e, r.1 = .error (.fatal e) ∧ e.ByGuest) ∧
      ∀ function e, .failed function e ∈ r.2.session.events → e.ByGuest := by
  have hfails : ((Host.call { gas := 50, destination := .ofNat 1 }).on (.calling strandedCode)).1 =
      .error (.fatal (.noCode (.ofNat 7) .call)) := by
    decide +kernel
  have room : ((Host.call { gas := 50, destination := .ofNat 1 }).on
      (.calling strandedCode)).2.session.arena.slots.length < Handle.places := by
    decide +kernel
  have sendable : ∃ raw, Message.toRaw { gas := 50, destination := .ofNat 1 } = .ok raw :=
    Message.sendable_iff.2
      ⟨⟨0, by decide +kernel⟩, ⟨0, by decide +kernel⟩, ⟨50, by decide +kernel⟩⟩
  have context : ∃ raw, (World.calling strandedCode).host.tx.toRaw = .ok raw :=
    ⟨.zero, by decide +kernel⟩
  have hempty : ({} : HostState).Regular := fun a account hfind => nomatch hfind
  have regular : (World.calling strandedCode).host.state.Regular :=
    replay_regular [.deployed (.ofNat 1) _, .deployed (.ofNat 3) strandedCode] hempty
  obtain ⟨hends, trace, hevents, hguest⟩ := call_fails_byGuest (Arena.Tidy.empty Host.baseKind)
    Host.isA_baseKind room rfl sendable context regular
  refine ⟨?_, fun function e hmem => hguest function e ?_⟩
  · rcases hends with ⟨outcome, hok⟩ | ⟨e, he, hcaused, -⟩
    · cases hfails.symm.trans hok
    · exact ⟨e, he, hcaused⟩
  · rw [hevents, List.mem_append, List.mem_reverse] at hmem
    exact hmem.resolve_right (List.not_mem_nil)

end

end ContractHost
