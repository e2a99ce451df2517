import ContractHost.Proofs.Execution.Frames
import ContractHost.Proofs.Execution.Unfolding

/-!
# How deep frames can be nested

There is no limit on the depth of frames, and a nested frame is not paid for out of the gas of the frame
that starts it. What bounds the nesting is that a frame has to spend four units of gas before it can
start another one, and that it can give no more than it has left.

* `Message.At`: a frame so many levels below the frame of a message.
* `nesting_bounded`: what the frames of a run have of the gas, and how deep they can be nested.
-/

namespace ContractHost

open Interpreter

/-- A frame that is so many levels below the frame of a message. The frame of the message itself is there
whatever its gas is. -/
structure Message.At (message : Message) (level : Nat) (frame : Spawn) : Prop where
  depth : frame.childDepth = message.depth + 1 + level
  gas : frame.gas ≤ message.gas - 4 * level
  enough : 0 < level → 4 * level ≤ message.gas

/-- A frame below the frame of a message. -/
def Message.Below (message : Message) (frame : Spawn) : Prop :=
  ∃ level : Nat, 0 < level ∧ message.At level frame

/-- A frame is one level further below the frame that sent the message. -/
theorem Message.Funds.below {message nested : Message} {frame : Spawn} {level : Nat}
    (h : message.Funds nested) (hframe : nested.At level frame) : message.Below frame := by
  obtain ⟨hdepth, hgas, henough⟩ := h
  obtain ⟨hframedepth, hframegas, hframeenough⟩ := hframe
  refine ⟨level + 1, Nat.succ_pos level, ?_, ?_, fun _ => ?_⟩
  · omega
  · omega
  · by_cases hlevel : 0 < level
    · have := hframeenough hlevel
      omega
    · omega

/-- The frames of a call are the frame of its message, if there is one, and those below it. -/
theorem callVia_below {run : Bytes → Message → Run Outcome}
    (hrun : ∀ code m (w : World), w.session.Starts m.Below ((run code m).on w).2.session)
    (message : Message) (w : World) :
    ∃ frames, ((callVia run message).on w).2.session.spawns = w.session.spawns ++ frames ∧
      (∀ first ∈ frames.head?, message.At 0 first) ∧
      ∀ frame ∈ frames.tail, message.Below frame := by
  cases hstart : w.host.state.start message with
  | error failure =>
    have hframes : ((callVia run message).on w).2.session.spawns = w.session.spawns ++ [] := by
      rw [callVia_starts_none hstart, List.append_nil]
    exact ⟨[], hframes, nofun, nofun⟩
  | ok start =>
    have hmessage := HostState.start_message hstart
    have hdepth : start.message.depth = message.depth := by rw [hmessage]
    have hgas : start.message.gas = message.gas := by rw [hmessage]
    have hsame (frame : Spawn) (level : Nat) (h : start.message.At level frame) :
        message.At level frame := by
      obtain ⟨hframedepth, hframegas, hframeenough⟩ := h
      rw [hdepth] at hframedepth
      rw [hgas] at hframegas hframeenough
      exact ⟨hframedepth, hframegas, hframeenough⟩
    obtain ⟨frames, hframes, hbelow⟩ := callVia_starts hstart (hrun start.code start.message _)
    refine ⟨_, hframes, ?_, fun frame hframe => ?_⟩
    · rintro first ⟨rfl⟩
      exact hsame _ 0 ⟨(Int.add_zero _).symm, Int.le_of_eq (Int.sub_zero _).symm, nofun⟩
    · obtain ⟨level, hpositive, hat⟩ := hbelow frame hframe
      exact ⟨level, hpositive, hsame frame level hat⟩

theorem runWithin_below [Room] (depth : Nat) (code : Bytes) (message : Message) (w : World) :
    w.session.Starts message.Below ((runWithin depth code message).on w).2.session := by
  induction depth generalizing code message w with
  | zero =>
    -- no frame starts in a call of the last level
    exact run_starts (interpret_affords message code) (fun _ _ _ _ w => .refl w.session) w
  | succ depth ih =>
    refine run_starts (interpret_affords message code) (fun raw nested hasks hraw w => ?_) w
    obtain ⟨nested', hraw', hfunds⟩ := hasks raw rfl
    rw [hraw] at hraw'
    cases hraw'
    obtain ⟨frames, hframes, hfirst, hlater⟩ := callVia_below ih nested w
    refine ⟨frames, hframes, fun frame hframe => ?_⟩
    cases frames with
    | nil => cases hframe
    | cons first later =>
      rcases List.mem_cons.1 hframe with rfl | h
      · exact hfunds.below (hfirst frame rfl)
      · obtain ⟨level, -, hat⟩ := hlater frame h
        exact hfunds.below hat

/-- Whatever code is run and whatever state it finds, a frame so many levels below the frame of a message
has no more gas than is left of the message's gas when four units are taken for each level, and there
are no frames for which four units a level are more than there is. So runs and calls, which satisfy the
equations of a recursion without any bound, are what comes of unfolding these equations no deeper than a
quarter of the gas, whatever would serve the calls below. -/
theorem nesting_bounded [Room] (code : Bytes) (message : Message) :
    (∀ w : World, ∃ frames,
      ((Host.run code message).on w).2.session.spawns = w.session.spawns ++ frames ∧
        ∀ frame ∈ frames, message.Below frame) ∧
      (∀ w : World, ∃ frames,
        ((Host.call message).on w).2.session.spawns = w.session.spawns ++ frames ∧
          (∀ first ∈ frames.head?, message.At 0 first) ∧
          ∀ frame ∈ frames.tail, message.Below frame) ∧
      Host.run code message = run Host.call code message ∧
      Host.call message = callVia (run Host.call) message ∧
      ∀ (deeper : Message → Run Outcome) (levels : Nat), message.gas / 4 ≤ levels →
        run (serving deeper levels) code message = Host.run code message ∧
          serving deeper (levels + 1) message = Host.call message := by
  refine ⟨fun w => ?_, fun w => ?_, Host.run_eq code message, Host.call_eq message, ?_⟩
  · exact runWithin_below message.gas.toNat code message w
  · exact callVia_below (runWithin_below message.gas.toNat) message w
  · intro deeper levels hlevels
    have hgas : message.gas < 4 * (levels + 1) := by omega
    exact ⟨Host.run_eq_serving deeper hgas code, Host.call_eq_serving deeper hgas⟩

section

attribute [local instance] Room.usual

/-- A call and a creation below it use the gas up to the last unit. What would serve a call four levels
below is never asked. -/
theorem nesting_bounded_spent :
    let w := World.calling [0x60, 0, 0x60, 0, 0x60, 0, 0xf0]
    let message : Message := { gas := 12, destination := .ofNat 1 }
    ((Host.call message).on w).2.session.spawns.map (fun frame => (frame.childDepth, frame.gas)) =
        [(1, 12), (2, 4), (3, 0)] ∧
      serving (fun _ => throw (.fault .missingKey)) 4 message = Host.call message := by
  intro w message
  obtain ⟨-, -, -, -, hunfolded⟩ := nesting_bounded [] message
  exact ⟨by decide +kernel, (hunfolded _ 3 (by decide)).2⟩

end

end ContractHost
