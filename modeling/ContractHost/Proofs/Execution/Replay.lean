import ContractHost.Proofs.Execution.Flat

/-!
# Replaying what happened

The events of a call that returns, of all its frames in the order in which they happened, tell what it
does to the state. Each event has an effect of its own, whatever the frame in which it happened and
however that frame ended, and the effects one after the other lead from the state before the call to the
state after it. Each answer that a frame got is the answer of the state at that moment.

* `replay`: the effects of events on a state.
* `Faithful`: the answers among events are those of the states in which they were given.
* `call_replays`: a call that returns is its events replayed on the state before it.
-/

namespace ContractHost

open Interpreter

/-- What an event does to the state. -/
def Event.effect : Event → HostState → HostState
  | .touched sender, s => s.touch sender
  | .counted sender _ _, s => s.advanceNonce sender
  | .answered (.setStorage address key value) _, s => (s.setStorage address key value).2
  | .answered (.selfdestruct address beneficiary) _, s => s.selfdestruct address beneficiary
  | .answered (.emitLog address data topics) _, s => s.emitLog address data topics
  | .deployed callee code, s => s.deploy callee code
  | _, s => s

/-- The effects of events one after the other. -/
def replay (trace : List Event) (s : HostState) : HostState :=
  trace.foldl (fun s event => event.effect s) s

/-- An answer is the one that a host gives. -/
def Event.Agrees (host : Host) : Event → Prop
  | .answered q answer => (host.reply q).1 = .ok answer
  | _ => True

/-- Each answer among events is the one that a host on the state of that moment gives. -/
def Faithful (tx : TxContext) : List Event → HostState → Prop
  | [], _ => True
  | event :: rest, s => event.Agrees { state := s, tx } ∧ Faithful tx rest (event.effect s)

theorem replay_append (first second : List Event) (s : HostState) :
    replay (first ++ second) s = replay second (replay first s) := List.foldl_append

theorem replay_cons (event : Event) (rest : List Event) (s : HostState) :
    replay (event :: rest) s = replay rest (event.effect s) := rfl

theorem faithful_append {tx : TxContext} {first second : List Event} {s : HostState} :
    Faithful tx (first ++ second) s ↔
      Faithful tx first s ∧ Faithful tx second (replay first s) := by
  induction first generalizing s with
  | nil => simp [Faithful, replay]
  | cons event rest ih =>
    rw [List.cons_append, Faithful, Faithful, ih, and_assoc]
    rfl

theorem Event.effect_answered (host : Host) (q : Query) (answer : q.Answer) :
    (Event.answered q answer).effect host.state = (host.reply q).2 := by
  cases q <;> rfl

/-! ## The depth and the address of a state -/

theorem HostState.touch_clone (s : HostState) (depth : Int) (current address : Address) :
    (s.clone depth current).touch address = (s.touch address).clone depth current := by
  have hfind : (s.clone depth current).find? address = s.find? address := rfl
  unfold touch
  rw [hfind]
  cases s.find? address <;> rfl

theorem Event.effect_clone (event : Event) (s : HostState) (depth : Int) (current : Address) :
    event.effect (s.clone depth current) = (event.effect s).clone depth current := by
  cases event with
  | touched sender => exact s.touch_clone depth current sender
  | answered q answer => cases q <;> rfl
  | _ => rfl

theorem replay_clone (trace : List Event) (s : HostState) (depth : Int) (current : Address) :
    replay trace (s.clone depth current) = (replay trace s).clone depth current := by
  induction trace generalizing s with
  | nil => rfl
  | cons event rest ih =>
    rw [replay_cons, replay_cons, event.effect_clone, ih]

theorem replay_header (trace : List Event) (s : HostState) :
    (replay trace s).depth = s.depth ∧ (replay trace s).currentAccount = s.currentAccount := by
  have h : replay trace s = (replay trace s).clone s.depth s.currentAccount :=
    replay_clone trace s s.depth s.currentAccount
  have hdepth := congrArg HostState.depth h
  have hcurrent := congrArg HostState.currentAccount h
  exact ⟨hdepth, hcurrent⟩

/-- A state that was given another depth and address for a while gets its own back. -/
theorem replay_clone_back (trace : List Event) (s : HostState) (depth : Int) (current : Address) :
    (replay trace (s.clone depth current)).clone s.depth s.currentAccount = replay trace s := by
  calc
    _ = (replay trace s).clone s.depth s.currentAccount := by
      rw [replay_clone]
      rfl
    _ = replay trace s := (replay_clone trace s s.depth s.currentAccount).symm

/-- Answers do not depend on the depth and the address that the state carries. -/
theorem faithful_clone {tx : TxContext} {trace : List Event} {s : HostState} (depth : Int)
    (current : Address) : Faithful tx trace (s.clone depth current) ↔ Faithful tx trace s := by
  induction trace generalizing s with
  | nil => exact Iff.rfl
  | cons event rest ih =>
    have hagrees : event.Agrees { state := s.clone depth current, tx } ↔
        event.Agrees { state := s, tx } := by
      cases event with
      | answered q answer => cases q <;> exact Iff.rfl
      | _ => exact Iff.rfl
    rw [Faithful, Faithful, event.effect_clone, ih, hagrees]

theorem HostState.withCode_eq_replay (s : HostState) (start : Start) (outcome : Outcome) :
    s.withCode start outcome = replay (start.deployment outcome) s := by
  unfold withCode Start.deployment
  split <;> rfl

theorem replay_resolution (s : HostState) (message : Message) :
    replay (s.resolution message) s = (s.resolveCallee message).2 := by
  rw [HostState.resolveCallee_state, HostState.resolution]
  split <;> rfl

/-! ## Programs whose events tell what they do -/

/-- The events between two worlds, replayed on the first state, lead to the second one. -/
structure Replays (trace : List Event) (w w' : World) : Prop extends Adds trace w w' where
  state : w'.host.state = replay trace w.host.state
  faithful : Faithful w.host.tx trace w.host.state

/-- Unless an error is recorded in the end, events lead from one world to the other. -/
def Follows (w w' : World) : Prop :=
  w'.session.fatal = none → w.session.fatal = none ∧ ∃ trace, Replays trace w w'

section

variable {first second trace : List Event} {u v w : World}

theorem Replays.refl (w : World) : Replays [] w w := ⟨.refl w, rfl, trivial⟩

theorem Replays.trans (h : Replays first u v) (h' : Replays second v w) :
    Replays (first ++ second) u w := by
  refine ⟨h.toAdds.trans h'.toAdds, ?_, ?_⟩
  · rw [h'.state, h.state, replay_append]
  · have hsecond := h'.faithful
    rw [h.tx, h.state] at hsecond
    exact faithful_append.2 ⟨h.faithful, hsecond⟩

theorem Follows.refl (w : World) : Follows w w := fun h => ⟨h, [], .refl w⟩

theorem Follows.trans (h : Follows u v) (h' : Follows v w) : Follows u w := by
  intro hw
  obtain ⟨hv, second, hsecond⟩ := h' hw
  obtain ⟨hu, first, hfirst⟩ := h hv
  exact ⟨hu, first ++ second, hfirst.trans hsecond⟩

theorem Follows.of_record {host : Host} {session : Session} {function : String}
    {failure : Failure} : Follows w { host, session := session.record function failure } := by
  intro h
  simp [Session.record] at h

/-- What else the session holds does not matter. -/
theorem Follows.of_session (h : Follows w v) {session : Session}
    (hfatal : session.fatal = v.session.fatal) (hevents : session.events = v.session.events) :
    Follows w { v with session } := by
  intro hclear
  obtain ⟨hw, trace, hreplays⟩ := h (hfatal.symm.trans hclear)
  exact ⟨hw, trace, ⟨hreplays.tx, hevents.trans hreplays.events⟩, hreplays.state,
    hreplays.faithful⟩

end

/-- The status of a write is noted, and nothing else. -/
theorem Query.told_replays (q : Query) (answer : q.Answer) (w : World) :
    Replays (q.told answer) w { w with session := w.session.log (q.told answer) } := by
  refine ⟨⟨rfl, rfl⟩, ?_, ?_⟩
  · cases q <;> rfl
  · cases q <;> simp [Query.told, Faithful, Event.Agrees]

theorem Session.conclude_replays (w : World) (ending : Ending) :
    Replays ending.crash w { w with session := w.session.conclude ending } := by
  cases ending with
  | halted => exact ⟨⟨rfl, rfl⟩, rfl, trivial⟩
  | crashed cause => exact ⟨⟨rfl, rfl⟩, rfl, trivial, trivial⟩

/-- A program that follows its events whenever it returns. -/
def Run.Follows {α : Type} (program : Run α) : Prop :=
  ∀ {w w' : World} {a : α}, program.on w = (.ok a, w') → ContractHost.Follows w w'

namespace Direct

/-- A question that leaves no recorded error was answered. -/
theorem question_replays {q : Query} {w : World} (h : (question q w).2.session.fatal = none) :
    w.session.fatal = none ∧ ∃ answer, Replays [.answered q answer] w (question q w).2 := by
  unfold question at h ⊢
  cases hreply : w.host.reply q with
  | mk result state =>
    rw [hreply] at h
    cases result with
    | error failure => simp [Session.record] at h
    | ok answer =>
      refine ⟨h, answer, ⟨rfl, rfl⟩, ?_, ?_, trivial⟩
      · exact (congrArg Prod.snd hreply).symm.trans (Event.effect_answered ..).symm
      · exact congrArg Prod.fst hreply

theorem question_follows (q : Query) (w : World) : Follows w (question q w).2 := by
  intro h
  obtain ⟨hw, answer, hreplays⟩ := question_replays h
  exact ⟨hw, _, hreplays⟩

theorem request_follows {call : Message → Run Outcome} (hcall : ∀ m, (call m).Follows)
    (raw : RawMessage) (w : World) : Follows w (request call raw w).2 := by
  unfold request
  cases raw.toMessage with
  | error cause => exact .of_record
  | ok message =>
    cases hm : (call message).on w with
    | mk result v =>
      simp only [hm]
      cases result with
      | error failure => exact .of_record
      | ok outcome =>
        have hfollows := hcall message hm
        simp only [Session.lend]
        cases int64? outcome.gasLeft with
        | none => exact .of_record
        | some gasLeft => exact hfollows.of_session rfl rfl

theorem serve_follows {call : Message → Run Outcome} (hcall : ∀ m, (call m).Follows) (q : Query)
    (w : World) : Follows w (serve call q w).2 := by
  rcases q.call_or_not with ⟨raw, rfl⟩ | hq
  · exact (request_follows hcall raw w).of_session rfl rfl
  · rw [serve_of_not_call w hq]
    exact (question_follows q w).trans fun h => ⟨h, _, q.told_replays (question q w).1 _⟩

theorem execute_follows [Room] {call : Message → Run Outcome} (hcall : ∀ m, (call m).Follows)
    {code : Bytes} {message : Message} {w w' : World} {outcome : Outcome}
    (h : execute call code message w = (.ok outcome, w')) : Follows w w' := by
  obtain ⟨-, -, ending, u, hplayed, hend, -, rfl⟩ := execute_eq_ok_iff.1 h
  have hcourse := (interpret message code).answerWith_rel Follows.refl Follows.trans
    (serve_follows hcall) (question .txContext w).2
  rw [hplayed] at hcourse
  have hconclude : Follows u { u with session := u.session.conclude ending } := fun hclear =>
    ⟨(Session.conclude_quiet u ending).fatal.symm.trans hclear, _,
      Session.conclude_replays u ending⟩
  exact ((question_follows .txContext w).trans hcourse).trans hconclude

theorem run_follows [Room] {call : Message → Run Outcome} (hcall : ∀ m, (call m).Follows) (code : Bytes)
    (message : Message) : (run call code message).Follows := by
  intro w w' outcome h
  rw [run_on] at h
  split at h
  · exact execute_follows hcall h
  · cases h

end Direct

/-- What the events of a nested frame do to its state, they do to the state of the frame that started
it, together with the events of the call itself. -/
theorem Replays.leave {trace : List Event} {message : Message} {w v : World} {start : Start}
    (h : Replays trace ((w.resolve message).enter start) v) (outcome : Outcome) :
    Replays (w.host.state.resolution message ++
        .spawned ((w.resolve message).spawn start) :: (trace ++ start.deployment outcome ++
          [.finished start.message.kind start.callee
            { outcome with createAddress := start.callee }]))
      w ((w.resolve message).leave start outcome v) := by
  have hresolution := replay_resolution w.host.state message
  refine ⟨⟨h.tx, ?_⟩, ?_, ?_⟩
  · simp [World.leave, Session.log, h.events, World.enter, World.resolve]
  · -- the nested frame's events find another depth and address, which none of them looks at
    have hback := replay_clone_back (trace ++ start.deployment outcome)
      (w.resolve message).host.state (start.message.depth + 1) start.callee
    have hleft : ((w.resolve message).leave start outcome v).host.state =
        (replay (trace ++ start.deployment outcome)
          ((w.resolve message).enter start).host.state).clone
            (w.resolve message).host.state.depth (w.resolve message).host.state.currentAccount := by
      simp only [World.leave, h.state, HostState.withCode_eq_replay, replay_append]
    rw [replay_append (w.host.state.resolution message), hresolution, replay_cons,
      replay_append _ [_]]
    exact hleft.trans hback
  · have htrace : Faithful w.host.tx trace (w.host.state.resolveCallee message).2 :=
      (faithful_clone _ _).1 h.faithful
    refine faithful_append.2 ⟨?_, trivial, ?_⟩
    · unfold HostState.resolution
      split <;> simp [Faithful, Event.Agrees]
    · rw [hresolution]
      refine faithful_append.2 ⟨faithful_append.2 ⟨htrace, ?_⟩, trivial, trivial⟩
      unfold Start.deployment
      split <;> simp [Faithful, Event.Agrees]

theorem Flat.callVia_follows {run : Bytes → Message → Run Outcome}
    (hrun : ∀ code m, (run code m).Follows) (message : Message) :
    (Flat.callVia run message).Follows := by
  intro w w' outcome h
  obtain ⟨start, inner, v, -, hr, rfl⟩ := Flat.callVia_returns h
  intro hend
  obtain ⟨hw, trace, hreplays⟩ := hrun start.code start.message hr hend
  exact ⟨hw, _, hreplays.leave inner⟩

theorem Flat.runWithin_follows [Room] (depth : Nat) (code : Bytes) (message : Message) :
    (Flat.runWithin depth code message).Follows := by
  induction depth generalizing code message with
  | zero =>
    refine Direct.run_follows (fun _ _ _ _ h => ?_) code message
    cases h
    exact .refl _
  | succ depth ih => exact Direct.run_follows (Flat.callVia_follows ih) code message

theorem call_returns_replays [Room] {message : Message} {w w' : World} {outcome : Outcome}
    (tidy : w.session.arena.Tidy) (room : w.session.arena.slots.length < Handle.places)
    (h : (Host.call message).on w = (.ok outcome, w')) : ∃ trace, Replays trace w w' := by
  have hdirect := call_returns_mirrors tidy room h
  have hfollows := Flat.callVia_follows (Flat.runWithin_follows _) message
    (call_matches_flat message hdirect)
  have hfatal : w'.session.fatal = none := call_returns_fatal h
  obtain ⟨-, trace, hreplays⟩ := hfollows hfatal
  exact ⟨trace, ⟨hreplays.tx, hreplays.events⟩, hreplays.state, hreplays.faithful⟩

/-- A call that returns does what one state changed in place would see: its form on one state returns the
same, and the effects of its events, of all frames in the order in which they happened and however the
frames ended, lead from the state before to the state after. Each answer that a frame got, whatever it
read or wrote, is the answer of that one state at that moment. -/
theorem call_replays [Room] {message : Message} {w w' : World} {outcome : Outcome}
    (tidy : w.session.arena.Tidy) (room : w.session.arena.slots.length < Handle.places)
    (h : (Host.call message).run w = .ok outcome w') :
    (Flat.call message).run w.bare = .ok outcome w'.bare ∧
      ∃ trace, w'.session.events = trace.reverse ++ w.session.events ∧
        w'.host.state = replay trace w.host.state ∧
        ∀ before q answer after, trace = before ++ .answered q answer :: after →
          (({ state := replay before w.host.state, tx := w.host.tx } : Host).reply q).1 =
            .ok answer := by
  have hon := Run.on_eq_ok_iff.2 h
  have hflat := call_matches_flat message (call_returns_mirrors tidy room hon)
  obtain ⟨trace, hreplays⟩ := call_returns_replays tidy room hon
  refine ⟨Run.on_eq_ok_iff.1 hflat, trace, hreplays.events, hreplays.state, ?_⟩
  rintro before q answer after rfl
  exact (faithful_append.1 hreplays.faithful).2.1

section

attribute [local instance] Room.usual

/-- The nested frame writes a slot and reverts, and what it wrote stays. -/
theorem call_replays_reverted :
    ∃ w' trace, (Host.call { gas := 50, destination := .ofNat 1 }).run
          (.calling [0x60, 5, 0x60, 1, 0x55, 0x60, 0, 0x60, 0, 0xfd]) =
        .ok { gasLeft := 42, createAddress := .ofNat 1 } w' ∧
      w'.host.state = replay trace
        (World.calling [0x60, 5, 0x60, 1, 0x55, 0x60, 0, 0x60, 0, 0xfd]).host.state ∧
      w'.host.state.getStorage (.ofNat 3) (.ofNat 1) = .ofNat 5 := by
  have hreturns : ((Host.call { gas := 50, destination := .ofNat 1 }).on
      (.calling [0x60, 5, 0x60, 1, 0x55, 0x60, 0, 0x60, 0, 0xfd])).1 =
        .ok { gasLeft := 42, createAddress := .ofNat 1 } := by
    decide +kernel
  have h := Run.run_of_ok hreturns
  obtain ⟨-, trace, -, hstate, -⟩ := call_replays (Arena.Tidy.empty Host.baseKind) (by decide) h
  exact ⟨_, trace, h, hstate, by decide +kernel⟩

end

end ContractHost
