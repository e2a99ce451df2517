import ContractHost.Proofs.Execution.Replay
import ContractHost.Proofs.Interpreter.Questions

/-!
# The course of a call

The events of a call that returns, in the order in which they happened, have a shape: the message is
resolved, the nested frame starts, its own events follow, a contract that was made is given its code,
and the call is finished. Among the events of a frame are whole calls, each of them of this shape and
with less gas, so what holds of the events of a frame is shown by induction on this shape.

The shape carries the state in which each call starts, because the address of a created contract and the
count that it is derived from are those of that moment.

* `Course`, `Called`: the events of a frame and of a call.
* `call_returns_called`: the events of a call that returns are those of a call.
-/

namespace ContractHost

open Interpreter

/-- An event of a frame that does not belong to a call. -/
def Message.Sees (message : Message) : Event → Prop
  | .answered q _ => message.Asks q
  | .told _ => True
  | .crashed _ => True
  | _ => False

namespace HostState

/-- The frame of a call that starts in a state. -/
def spawn (s : HostState) (message : Message) (start : Start) : Spawn where
  parentDepth := (s.resolveCallee message).2.depth
  childDepth := start.message.depth + 1
  kind := start.message.kind
  sender := start.message.sender
  callee := start.callee
  gas := start.message.gas

/-- The state in which the nested frame of a call starts. -/
def enter (s : HostState) (message : Message) (start : Start) : HostState :=
  (s.resolveCallee message).2.clone (start.message.depth + 1) start.callee

/-- The events of a call from the start of its nested frame on, which has events of its own and gives
an outcome. -/
def visit (s : HostState) (message : Message) (start : Start) (inner : List Event)
    (outcome : Outcome) : List Event :=
  .spawned (s.spawn message start) :: (inner ++ start.deployment outcome ++
    [.finished start.message.kind start.callee { outcome with createAddress := start.callee }])

/-- The events of a call. -/
def course (s : HostState) (message : Message) (start : Start) (inner : List Event)
    (outcome : Outcome) : List Event :=
  s.resolution message ++ s.visit message start inner outcome

end HostState

/-- A message runs at its callee. Only a creation is changed by that, and it gives its input up. -/
theorem HostState.start_message {s : HostState} {message : Message} {start : Start}
    (h : s.start message = .ok start) :
    start.message =
      { message with
        destination := start.callee
        input := if message.kind.isCreate then [] else message.input } := by
  have hcallee := start_callee h
  unfold HostState.start at h
  split at h
  · cases h
  · split at h
    · rename_i hcreate
      cases h
      rw [if_pos hcreate]
    · rename_i hcreate
      split at h
      · cases h
        have hdestination : (s.resolveCallee message).1 = .ok message.destination := by
          unfold resolveCallee
          cases hkind : message.kind with
          | create | create2 => simp [hkind, CallKind.isCreate] at hcreate
          | _ => rfl
        rw [hcallee] at hdestination
        cases hdestination
        rw [if_neg hcreate]
      · cases h

/-- The events of a frame that runs for a message, from a state on. -/
inductive Course : Message → HostState → List Event → Prop
  | nil (message : Message) (s : HostState) : Course message s []
  | event {message : Message} {s : HostState} {event : Event} {rest : List Event}
      (sees : message.Sees event) (later : Course message (event.effect s) rest) :
      Course message s (event :: rest)
  | call {message nested : Message} {s : HostState} {start : Start} {inner rest : List Event}
      {outcome : Outcome} (begets : message.Begets nested) (starts : s.start nested = .ok start)
      (frame : Course start.message (s.enter nested start) inner)
      (later : Course message (replay (s.course nested start inner outcome) s) rest) :
      Course message s (s.course nested start inner outcome ++ rest)

/-- The events of a call from a state on. -/
def Called (message : Message) (s : HostState) (trace : List Event) : Prop :=
  ∃ start inner outcome, s.start message = .ok start ∧
    Course start.message (s.enter message start) inner ∧ trace = s.course message start inner outcome

theorem Course.append {message : Message} {s : HostState} {first second : List Event}
    (h : Course message s first) (h' : Course message (replay first s) second) :
    Course message s (first ++ second) := by
  induction h with
  | nil => exact h'
  | event sees _ ih => exact .event sees (ih h')
  | call begets starts frame _ _ ih =>
    rw [List.append_assoc]
    refine .call begets starts frame (ih ?_)
    rwa [replay_append] at h'

theorem Called.course {message nested : Message} {s : HostState} {trace : List Event}
    (h : Called nested s trace) (begets : message.Begets nested) : Course message s trace := by
  obtain ⟨start, inner, outcome, hstart, hframe, rfl⟩ := h
  have hcourse : Course message s (s.course nested start inner outcome ++ []) :=
    .call begets hstart hframe (.nil message _)
  rwa [List.append_nil] at hcourse

theorem HostState.replay_course (s : HostState) (message : Message) (start : Start)
    (inner : List Event) (outcome : Outcome) :
    replay (s.course message start inner outcome) s =
      replay (start.deployment outcome) (replay inner (s.resolveCallee message).2) := by
  unfold course visit
  rw [replay_append, replay_resolution, replay_cons, replay_append, replay_append]
  rfl

/-! ## The frames that start -/

/-- The frame that an event starts. -/
def Event.spawned? : Event → Option Spawn
  | .spawned frame => some frame
  | _ => none

/-- The frames that start among events. -/
def spawns (trace : List Event) : List Spawn := trace.filterMap Event.spawned?

theorem spawns_append (first second : List Event) :
    spawns (first ++ second) = spawns first ++ spawns second := List.filterMap_append ..

theorem Session.spawns_eq (session : Session) :
    session.spawns = (ContractHost.spawns session.events).reverse := by
  refine congrArg List.reverse (congrArg (List.filterMap · session.events) (funext fun event => ?_))
  cases event <;> rfl

theorem Session.spawns_of_trace {a b : Session} (trace : List Event)
    (h : b.events = trace.reverse ++ a.events) :
    b.spawns = a.spawns ++ ContractHost.spawns trace := by
  rw [spawns_eq, spawns_eq, h, spawns_append, List.reverse_append]
  unfold ContractHost.spawns
  rw [List.filterMap_reverse, List.reverse_reverse]

theorem Replays.spawns {trace : List Event} {w w' : World} (h : Replays trace w w') :
    w'.session.spawns = w.session.spawns ++ ContractHost.spawns trace :=
  Session.spawns_of_trace trace h.events

theorem Start.spawns_deployment (start : Start) (outcome : Outcome) :
    spawns (start.deployment outcome) = [] := by
  unfold Start.deployment
  split <;> rfl

theorem HostState.spawns_resolution (s : HostState) (message : Message) :
    spawns (s.resolution message) = [] := by
  unfold resolution
  split <;> rfl

theorem HostState.spawns_course (s : HostState) (message : Message) (start : Start)
    (inner : List Event) (outcome : Outcome) :
    spawns (s.course message start inner outcome) = s.spawn message start :: spawns inner := by
  unfold course
  rw [spawns_append, s.spawns_resolution, List.nil_append]
  show s.spawn message start :: spawns (inner ++ start.deployment outcome ++ [_]) = _
  rw [spawns_append, spawns_append, start.spawns_deployment]
  simp [spawns, Event.spawned?]

theorem Message.Sees.spawned? {message : Message} {event : Event} (h : message.Sees event) :
    event.spawned? = none := by
  cases event with
  | spawned frame => exact h.elim
  | _ => rfl

/-! ## Programs whose events have this shape -/

/-- Unless an error is recorded in the end, the events of a frame lead from one world to the other. -/
def Runs (message : Message) (w w' : World) : Prop :=
  w'.session.fatal = none → w.session.fatal = none ∧
    ∃ trace, Replays trace w w' ∧ Course message w.host.state trace

/-- Unless an error is recorded in the end, the events of a call lead from one world to the other. -/
def Calls (message : Message) (w w' : World) : Prop :=
  w'.session.fatal = none → w.session.fatal = none ∧
    ∃ trace, Replays trace w w' ∧ Called message w.host.state trace

/-- A way of serving calls whose events have the shape, for messages with less gas than another one. -/
def ServesBelow (message : Message) (call : Message → Run Outcome) : Prop :=
  ∀ {nested : Message} {w w' : World} {outcome : Outcome}, nested.gas.toNat < message.gas.toNat →
    (call nested).on w = (.ok outcome, w') → Calls nested w w'

section

variable {message : Message} {u v w : World}

theorem Runs.refl (w : World) : Runs message w w := fun h => ⟨h, [], .refl w, .nil message _⟩

theorem Runs.trans (h : Runs message u v) (h' : Runs message v w) : Runs message u w := by
  intro hw
  obtain ⟨hv, second, hsecond, hcourse'⟩ := h' hw
  obtain ⟨hu, first, hfirst, hcourse⟩ := h hv
  rw [hfirst.state] at hcourse'
  exact ⟨hu, first ++ second, hfirst.trans hsecond, hcourse.append hcourse'⟩

theorem Runs.of_record {host : Host} {session : Session} {function : String} {failure : Failure} :
    Runs message w { host, session := session.record function failure } := by
  intro h
  simp [Session.record] at h

/-- What else the session holds does not matter. -/
theorem Runs.of_session (h : Runs message w v) {session : Session}
    (hfatal : session.fatal = v.session.fatal) (hevents : session.events = v.session.events) :
    Runs message w { v with session } := by
  intro hclear
  obtain ⟨hw, trace, hreplays, hcourse⟩ := h (hfatal.symm.trans hclear)
  exact ⟨hw, trace, ⟨⟨hreplays.tx, hevents.trans hreplays.events⟩, hreplays.state,
    hreplays.faithful⟩, hcourse⟩

end

namespace Direct

variable {message : Message} {call : Message → Run Outcome}

theorem question_runs {q : Query} (hasks : message.Asks q) (w : World) :
    Runs message w (question q w).2 := by
  intro h
  obtain ⟨hw, answer, hreplays⟩ := question_replays h
  exact ⟨hw, _, hreplays, .event hasks (.nil ..)⟩

theorem request_runs (hcall : ServesBelow message call) {raw : RawMessage}
    (hasks : message.Asks (.call raw)) (w : World) : Runs message w (request call raw w).2 := by
  obtain ⟨nested, hraw, hbegets⟩ := hasks
  unfold request
  simp only [hraw]
  cases hm : (call nested).on w with
  | mk result v =>
    cases result with
    | error failure => exact .of_record
    | ok outcome =>
      have hruns : Runs message w v := by
        intro hv
        obtain ⟨hw, trace, hreplays, hcalled⟩ := hcall hbegets.gas hm hv
        exact ⟨hw, trace, hreplays, hcalled.course hbegets⟩
      simp only [Session.lend]
      cases int64? outcome.gasLeft with
      | none => exact .of_record
      | some gasLeft => exact hruns.of_session rfl rfl

theorem serve_runs (hcall : ServesBelow message call) {q : Query} (w : World)
    (hasks : message.Asks q) : Runs message w (serve call q w).2 := by
  rcases q.call_or_not with ⟨raw, rfl⟩ | hq
  · exact (request_runs hcall hasks w).of_session rfl rfl
  · rw [serve_of_not_call w hq]
    have htold : Course message (question q w).2.host.state (q.told (question q w).1) := by
      cases q with
      | setStorage address key value => exact .event trivial (.nil ..)
      | _ => exact .nil ..
    exact (question_runs hasks w).trans fun h => ⟨h, _, q.told_replays (question q w).1 _, htold⟩

theorem execute_runs [Room] (hcall : ServesBelow message call) {code : Bytes} {w w' : World}
    {outcome : Outcome} (h : execute call code message w = (.ok outcome, w')) :
    Runs message w w' := by
  obtain ⟨-, -, ending, u, hplayed, hend, -, rfl⟩ := execute_eq_ok_iff.1 h
  have hasks : message.Asks .txContext := trivial
  have hopening := question_runs hasks w
  obtain ⟨hcourse, -⟩ := (interpret_obeys message code).answerWith Runs.refl Runs.trans
    (fun q w => serve_runs hcall w) (question .txContext w).2
  rw [hplayed] at hcourse
  have hcrash : Course message u.host.state ending.crash := by
    cases ending with
    | halted => exact .nil ..
    | crashed cause => exact .event trivial (.nil ..)
  have hconclude : Runs message u { u with session := u.session.conclude ending } := fun hclear =>
    ⟨(Session.conclude_quiet u ending).fatal.symm.trans hclear, _,
      Session.conclude_replays u ending, hcrash⟩
  exact (hopening.trans hcourse).trans hconclude

theorem run_runs [Room] (hcall : ServesBelow message call) {code : Bytes} {w w' : World}
    {outcome : Outcome} (h : (run call code message).on w = (.ok outcome, w')) :
    Runs message w w' := by
  rw [run_on] at h
  split at h
  · exact execute_runs hcall h
  · cases h

end Direct

theorem Flat.callVia_calls {run : Bytes → Message → Run Outcome} {message : Message}
    (hrun : ∀ {code : Bytes} {m : Message} {w w' : World} {outcome : Outcome},
      m.gas = message.gas → (run code m).on w = (.ok outcome, w') → Runs m w w')
    {w w' : World} {outcome : Outcome}
    (h : (Flat.callVia run message).on w = (.ok outcome, w')) : Calls message w w' := by
  obtain ⟨start, inner, v, hstart, hr, rfl⟩ := Flat.callVia_returns h
  intro hend
  have hgas : start.message.gas = message.gas := by rw [HostState.start_message hstart]
  obtain ⟨hw, trace, hreplays, hcourse⟩ := hrun hgas hr hend
  exact ⟨hw, _, hreplays.leave inner, start, trace, inner, hstart, hcourse, rfl⟩

/-- The frames of the last level have no gas, so the calls that they could not make are never made. -/
theorem Flat.runWithin_runs [Room] {depth : Nat} {code : Bytes} {message : Message} {w w' : World}
    {outcome : Outcome} (hgas : message.gas.toNat ≤ depth)
    (h : (Flat.runWithin depth code message).on w = (.ok outcome, w')) : Runs message w w' := by
  induction depth generalizing code message w w' outcome with
  | zero =>
    refine Direct.run_runs (fun hless _ => ?_) h
    omega
  | succ depth ih =>
    refine Direct.run_runs (fun hless hcall => ?_) h
    refine Flat.callVia_calls (fun hsame hrun => ih ?_ hrun) hcall
    rw [hsame]
    omega

/-- The events of a call that returns have the shape of a call, and they lead from the state before it
to the state after it. -/
theorem call_returns_called [Room] {message : Message} {w w' : World} {outcome : Outcome}
    (tidy : w.session.arena.Tidy) (room : w.session.arena.slots.length < Handle.places)
    (h : (Host.call message).on w = (.ok outcome, w')) :
    ∃ trace, Replays trace w w' ∧ Called message w.host.state trace := by
  have hflat := call_matches_flat message (call_returns_mirrors tidy room h)
  have hcalls : Calls message w.bare w'.bare :=
    Flat.callVia_calls (fun hsame hrun => Flat.runWithin_runs (Nat.le_of_eq (by rw [hsame])) hrun)
      hflat
  have hfatal : w'.session.fatal = none := call_returns_fatal h
  obtain ⟨-, trace, hreplays, hcalled⟩ := hcalls hfatal
  exact ⟨trace, ⟨⟨hreplays.tx, hreplays.events⟩, hreplays.state, hreplays.faithful⟩, hcalled⟩

end ContractHost
