import ContractHost.Proofs.Execution.Frames

/-!
# The depth of nested frames

Two counters tell how deep a frame is. Its host has one, in the state, and its message has another one,
which the interpreter counts up for the messages that it sends. The host of a nested frame takes its
depth from the message, so a message that an interpreter sends is as deep as the host that serves it.

* `Deepens`: the frames that start are one deeper than the hosts that started them.
* `call_depths`: the depths of all frames that a call starts.
-/

namespace ContractHost

open Interpreter

/-- The host stays as deep as it was, and all frames that start are one deeper than the hosts that
started them. -/
structure Deepens (w w' : World) : Prop where
  depth : w'.host.state.depth = w.host.state.depth
  starts : w.session.Starts (fun frame => frame.childDepth = frame.parentDepth + 1) w'.session

namespace Deepens

theorem refl (w : World) : Deepens w w := ⟨rfl, .refl _⟩

theorem trans {u v w : World} (h : Deepens u v) (h' : Deepens v w) : Deepens u w :=
  ⟨h'.depth.trans h.depth, h.starts.trans h'.starts⟩

/-- The same for hosts that are as deep as given. -/
def From (depth : Int) (w w' : World) : Prop := w.host.state.depth = depth → Deepens w w'

theorem From.refl (depth : Int) (w : World) : From depth w w := fun _ => .refl w

theorem From.trans {depth : Int} {u v w : World} (h : From depth u v) (h' : From depth v w) :
    From depth u w := by
  intro hu
  have huv := h hu
  exact huv.trans (h' (huv.depth.trans hu))

end Deepens

theorem Host.reply_depth (host : Host) (q : Query) :
    (host.reply q).2.depth = host.state.depth := by
  cases q <;> rfl

theorem HostState.resolveCallee_depth (s : HostState) (message : Message) :
    (s.resolveCallee message).2.depth = s.depth := by
  rw [← replay_resolution]
  exact (replay_header _ s).1

theorem World.adopt_depth (w v : World) (start : Start) (outcome : Outcome) :
    (w.adopt start outcome v).2.host.state.depth = w.host.state.depth := by
  cases h : w.adopt start outcome v with
  | mk result w' =>
    cases result with
    | error failure => rw [World.adopt_error h]
    | ok outcome' =>
      obtain ⟨-, -, rfl⟩ := World.adopt_ok h
      rfl

namespace Direct

theorem question_deepens (q : Query) (w : World) : Deepens w (question q w).2 := by
  have hdepth := w.host.reply_depth q
  unfold question
  generalize w.host.reply q = reply at hdepth
  obtain ⟨result, state⟩ := reply
  cases result with
  | error failure => exact ⟨hdepth, .record ..⟩
  | ok answer => exact ⟨hdepth, .of_quiet [.answered q answer] rfl rfl⟩

/-- A way of serving calls whose frames have the right depth if the message is as deep as the host. -/
def ServesLevel (call : Message → Run Outcome) : Prop :=
  ∀ message w, message.depth = w.host.state.depth → Deepens w ((call message).on w).2

variable {call : Message → Run Outcome} {message : Message} {w : World}

theorem request_deepens (hcall : ServesLevel call) {raw : RawMessage}
    (hasks : message.Asks (.call raw)) (hw : w.host.state.depth = message.depth + 1) :
    Deepens w (request call raw w).2 := by
  obtain ⟨nested, hraw, hbegets⟩ := hasks
  have hcalled := hcall nested w (hbegets.depth.trans hw.symm)
  unfold request
  simp only [hraw]
  generalize (call nested).on w = r at hcalled
  obtain ⟨result, v⟩ := r
  cases result with
  | error failure => exact hcalled.trans ⟨rfl, .record ..⟩
  | ok outcome =>
    simp only [Session.lend]
    cases int64? outcome.gasLeft with
    | none => exact hcalled.trans ⟨rfl, .record ..⟩
    | some gasLeft => exact hcalled.trans ⟨rfl, .of_events rfl⟩

theorem serve_deepens (hcall : ServesLevel call) {q : Query} (hasks : message.Asks q)
    (hw : w.host.state.depth = message.depth + 1) : Deepens w (serve call q w).2 := by
  rcases q.call_or_not with ⟨raw, rfl⟩ | hq
  · exact (request_deepens hcall hasks hw).trans ⟨rfl, .of_events rfl⟩
  · rw [serve_of_not_call w hq]
    exact (question_deepens q w).trans ⟨rfl, .told ..⟩

/-- A host one deeper than the message stays so, and then all calls of the message's code find it as deep
as they are. -/
theorem execute_deepens [Room] (hcall : ServesLevel call) (code : Bytes)
    (hw : w.host.state.depth = message.depth + 1) :
    Deepens w (execute call code message w).2 := by
  have hopening := question_deepens .txContext w
  unfold execute
  simp only [raiseFatal_eq]
  generalize (question .txContext w).2 = v at hopening
  have hclear : Deepens w { v with session := { v.session with fatal := none } } :=
    hopening.trans ⟨rfl, .of_events rfl⟩
  cases v.session.fatal with
  | some e => exact hclear
  | none =>
    cases message.toRaw with
    | error cause => exact hclear
    | ok raw =>
      -- the host of this frame stays as deep as it is, so each question finds it one deeper
      have hserve (q : Query) (w : World) (hasks : message.Asks q) :
          Deepens.From (message.depth + 1) w (serve call q w).2 := serve_deepens hcall hasks
      obtain ⟨hplayed, -⟩ := (interpret_obeys message code).answerWith
        (Deepens.From.refl (message.depth + 1)) .trans hserve
        { v with session := { v.session with fatal := none } }
      simp only
      generalize (interpret message code).answerWith (serve call) _ = played at hplayed
      obtain ⟨ending, u⟩ := played
      have hconclude : Deepens u { u with session := u.session.conclude ending } :=
        ⟨rfl, .conclude ..⟩
      have hend := (hclear.trans (hplayed (hclear.depth.trans hw))).trans hconclude
      simp only
      cases (u.session.conclude ending).fatal <;> exact hend.trans ⟨rfl, .of_events rfl⟩

theorem run_deepens [Room] (hcall : ServesLevel call) (code : Bytes)
    (hw : w.host.state.depth = message.depth + 1) : Deepens w ((run call code message).on w).2 := by
  rw [run_on]
  split
  · exact execute_deepens hcall code hw
  · exact .refl w

end Direct

/-- A call leaves its host as deep as it was. The frame of its message is one deeper than the message,
and the frames after it are one deeper than the hosts that started them. -/
theorem callVia_depths {run : Bytes → Message → Run Outcome}
    (hrun : ∀ code m w, w.host.state.depth = m.depth + 1 → Deepens w ((run code m).on w).2)
    (message : Message) (w : World) :
    ((callVia run message).on w).2.host.state.depth = w.host.state.depth ∧
      ∃ frames, ((callVia run message).on w).2.session.spawns = w.session.spawns ++ frames ∧
        (frames = [] ↔ ∃ failure, w.host.state.start message = .error failure) ∧
        (∀ first ∈ frames.head?, first.parentDepth = w.host.state.depth ∧
          first.childDepth = message.depth + 1) ∧
        (∀ frame ∈ frames.tail, frame.childDepth = frame.parentDepth + 1) ∧
        (message.depth = w.host.state.depth →
          ∀ frame ∈ frames, frame.childDepth = frame.parentDepth + 1) := by
  have hresolve : (w.resolve message).host.state.depth = w.host.state.depth :=
    w.host.state.resolveCallee_depth message
  cases hstart : w.host.state.start message with
  | error failure =>
    have hframes : ((callVia run message).on w).2.session.spawns = w.session.spawns ++ [] := by
      rw [callVia_starts_none hstart, List.append_nil]
    refine ⟨?_, [], hframes, ⟨fun _ => ⟨failure, rfl⟩, fun _ => rfl⟩, nofun, nofun, nofun⟩
    rw [callVia_on, hstart]
    exact hresolve
  | ok start =>
    have hmessage : start.message.depth = message.depth := by
      rw [HostState.start_message hstart]
    have hnested := hrun start.code start.message ((w.resolve message).enter start) rfl
    obtain ⟨frames, hframes, hdeeper⟩ := callVia_starts hstart hnested.starts
    have hfirst : ((w.resolve message).spawn start).parentDepth = w.host.state.depth ∧
        ((w.resolve message).spawn start).childDepth = message.depth + 1 :=
      ⟨hresolve, congrArg (· + 1) hmessage⟩
    refine ⟨?_, _, hframes, ?_, ?_, hdeeper, fun hlevel frame hframe => ?_⟩
    · rw [callVia_on, hstart]
      simp only
      generalize (run start.code start.message).on ((w.resolve message).enter start) = r
      obtain ⟨result, v⟩ := r
      cases result with
      | error failure => exact hresolve
      | ok outcome => exact (World.adopt_depth ..).trans hresolve
    · exact ⟨nofun, fun ⟨_, h⟩ => nomatch h⟩
    · rintro first ⟨rfl⟩
      exact hfirst
    · rcases List.mem_cons.1 hframe with rfl | h
      · rw [hfirst.1, hfirst.2, hlevel]
      · exact hdeeper frame h

theorem Direct.callVia_servesLevel {run : Bytes → Message → Run Outcome}
    (hrun : ∀ code m w, w.host.state.depth = m.depth + 1 → Deepens w ((run code m).on w).2) :
    ServesLevel (callVia run) := by
  intro message w hlevel
  obtain ⟨hdepth, frames, hframes, -, -, -, hall⟩ := callVia_depths hrun message w
  exact ⟨hdepth, frames, hframes, hall hlevel⟩

theorem Direct.runWithin_deepens [Room] (depth : Nat) (code : Bytes) (message : Message) (w : World)
    (hw : w.host.state.depth = message.depth + 1) :
    Deepens w ((Direct.runWithin depth code message).on w).2 := by
  induction depth generalizing code message w with
  | zero =>
    -- the calls that the last level would make are not looked at
    have hpure : ServesLevel fun _ => return .failed .internalError := fun _ w _ => .refl w
    exact run_deepens hpure code hw
  | succ depth ih => exact run_deepens (callVia_servesLevel ih) code hw

/-- The frames that a call starts, whether it returns or fails, if no slot of the arena is without a
handle: the first one is the message's, unless the message fails at once, and its host is one deeper than
the message, whatever the depth of the host that started it. The host of each later frame is one deeper
than the host that started it. -/
theorem call_depths [Room] {message : Message} {w : World} (tidy : w.session.arena.Tidy)
    (room : ((Host.call message).on w).2.session.arena.slots.length < Handle.places) :
    ∃ frames, ((Host.call message).on w).2.session.spawns = w.session.spawns ++ frames ∧
      (frames = [] ↔ ∃ failure, w.host.state.start message = .error failure) ∧
      (∀ first ∈ frames.head?, first.parentDepth = w.host.state.depth ∧
        first.childDepth = message.depth + 1) ∧
      (∀ frame ∈ frames.tail, frame.childDepth = frame.parentDepth + 1) ∧
      (message.depth = w.host.state.depth →
        ∀ frame ∈ frames, frame.childDepth = frame.parentDepth + 1) := by
  obtain ⟨hdirect, -⟩ := call_mirrors message w tidy room
  obtain ⟨-, hframes⟩ :=
    callVia_depths (Direct.runWithin_deepens message.gas.toNat) message w.bare
  change ∃ frames, ((Direct.call message).on w.bare).2.session.spawns = _ ∧ _ at hframes
  rw [hdirect] at hframes
  exact hframes

section

attribute [local instance] Room.usual

/-- A message deeper than its host: only the first frame is more than one deeper than the host that
started it. -/
theorem call_depths_stranded :
    let w := World.calling strandedCode
    let after := ((Host.call { depth := 4, gas := 50, destination := .ofNat 1 }).on w).2.session
    after.spawns.map (fun frame => (frame.parentDepth, frame.childDepth)) = [(0, 5), (5, 6)] ∧
      ∃ frames, after.spawns = w.session.spawns ++ frames ∧
        ∀ frame ∈ frames.tail, frame.childDepth = frame.parentDepth + 1 := by
  intro w after
  have room : after.arena.slots.length < Handle.places := by decide +kernel
  obtain ⟨frames, hframes, -, -, hlater, -⟩ := call_depths (Arena.Tidy.empty Host.baseKind) room
  exact ⟨by decide +kernel, frames, hframes, hlater⟩

end

end ContractHost
