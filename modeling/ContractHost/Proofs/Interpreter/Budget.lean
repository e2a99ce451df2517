import ContractHost.Proofs.Interpreter.Questions

/-!
# What a nested message may spend

Each instruction costs one unit of gas and leaves at most one item more on the stack, so what the stack
holds is paid for. A creation takes three items and a call seven. Whoever sends a nested message has
therefore spent four units of gas, and the nested message has no more than what is left.
-/

namespace ContractHost

/-- A message that code run for another one has the gas to send. -/
structure Message.Funds (message nested : Message) : Prop where
  depth : nested.depth = message.depth + 1
  gas : nested.gas + 4 ≤ message.gas
  enough : 4 ≤ message.gas

/-- A question that code run for a message has the gas to ask: a call if it is one that it can pay. -/
def Message.Affords (message : Message) (q : Query) : Prop :=
  ∀ raw, q = .call raw → ∃ nested, raw.toMessage = .ok nested ∧ message.Funds nested

namespace Interpreter

/-- What an instruction may do with so many items on the stack and so much gas left: it adds one item at
most, and it sends a message only if there are three. -/
def Move.Climbs (message : Message) (height : Nat) (gas : Int) : Move → Prop
  | .go m => m.stack.length ≤ height + 1
  | .ask q resume =>
    (∀ raw, q = .call raw → 3 ≤ height ∧ ∃ nested, raw.toMessage = .ok nested ∧
      nested.depth = message.depth + 1 ∧ nested.gas ≤ gas) ∧
    ∀ answer, Yields (resume answer) (·.stack.length ≤ height + 1)

theorem Machine.length_push (m : Machine) (item : Int) (rest : List Int) :
    (m.push item rest).stack.length = rest.length + 1 := rfl

theorem Machine.length_pushBytes (m : Machine) (bytes : Bytes) (rest : List Int) :
    (m.pushBytes bytes rest).stack.length = rest.length + 1 := rfl

theorem Machine.copyIn_height [Room] (m : Machine) (rest : List Int) (dest : Int) (source : Bytes)
    (offset size : Int) :
    Yields (m.copyIn rest dest source offset size) (·.stack.length = rest.length) :=
  yields_then fun _ => yields_then fun _ => yields_ok rfl

theorem afterCall_height [Room] (m : Machine) (rest : List Int) (dest size : Int) (raw : RawOutcome) :
    Yields (afterCall m rest dest size raw) (·.stack.length = rest.length + 1) :=
  yields_then fun _ => yields_then fun _ => yields_ok rfl

theorem afterCreation_height (m : Machine) (rest : List Int) (raw : RawOutcome) :
    Yields (afterCreation m rest raw) (·.stack.length = rest.length + 1) := by
  refine yields_ok ?_
  split <;> rfl

theorem creation_gas (frame : Frame) (gas value : Int) (input : Bytes) (salt : Option Int) :
    Yields (creation frame gas value input salt) fun raw =>
      ∃ nested, raw.toMessage = .ok nested ∧ nested.depth = frame.message.depth + 1 ∧
        nested.gas ≤ gas :=
  yields_then fun _ _ hraw => ⟨_, Message.toRaw_eq_ok_iff.1 hraw, rfl, Int.le_refl gas⟩

theorem nestedCall_gas (frame : Frame) (asked gas target value : Int) (input : Bytes) :
    Yields (nestedCall frame (min asked gas) target value input) fun raw =>
      ∃ nested, raw.toMessage = .ok nested ∧ nested.depth = frame.message.depth + 1 ∧
        nested.gas ≤ gas :=
  yields_then fun _ _ hraw => ⟨_, Message.toRaw_eq_ok_iff.1 hraw, rfl, Int.min_le_right asked gas⟩

/-- A message is sent with three items on the stack, which have to be gone before one is added. -/
theorem Move.climbs_call {message : Message} {height : Nat} {gas : Int} {raw : RawMessage}
    {resume : RawOutcome → Except Stop Machine} {rest : List Int}
    (hraw : ∃ nested, raw.toMessage = .ok nested ∧ nested.depth = message.depth + 1 ∧
      nested.gas ≤ gas)
    (hresume : ∀ answer, Yields (resume answer) (·.stack.length = rest.length + 1))
    (hheight : rest.length + 3 ≤ height) :
    (Move.ask (.call raw) resume).Climbs message height gas := by
  refine ⟨?_, fun answer m hm => ?_⟩
  · rintro _ ⟨rfl⟩
    exact ⟨by omega, hraw⟩
  · have := hresume answer m hm
    show m.stack.length ≤ height + 1
    omega

theorem Machine.copyIn_climbs [Room] {message : Message} {height : Nat} {gas : Int} {m : Machine}
    {rest : List Int} {dest : Int} {source : Bytes} {offset size : Int}
    (hheight : rest.length ≤ height + 1) :
    Yields (do return Move.go (← m.copyIn rest dest source offset size))
      (Move.Climbs message height gas) := by
  refine yields_bind (m.copyIn_height rest dest source offset size) fun next hnext => yields_ok ?_
  show next.stack.length ≤ height + 1
  omega

theorem Instruction.move_climbs [Room] (frame : Frame) (m : Machine) (i : Instruction) :
    Yields (i.move frame m) (Move.Climbs frame.message m.stack.length m.gas) := by
  obtain ⟨stack, memory, gas⟩ := m
  simp only [Instruction.move]
  split
  -- most instructions stop, go on at once, or ask about any account and go on with the answer
  all_goals try exact yields_error _
  all_goals try exact yields_ok (by
    simp only [Move.Climbs, Machine.length_push, Machine.length_pushBytes, List.length_cons]; omega)
  all_goals try exact yields_ok ⟨nofun, fun _ => yields_ok (by
    simp only [Machine.length_push, Machine.length_pushBytes, List.length_cons]; omega)⟩
  · exact Machine.copyIn_climbs (Nat.le_add_right _ 4)
  · exact Machine.copyIn_climbs (Nat.le_add_right _ 4)
  · -- code of another account
    refine yields_then fun _ => yields_then fun offset => yields_then fun limit => ?_
    refine yields_ok ⟨nofun, fun _ => yields_then fun _ => yields_then fun _ => yields_ok ?_⟩
    simp only [List.length_cons]
    omega
  · refine yields_then fun n => yields_ok ⟨nofun, fun _ => yields_ok ?_⟩
    simp only [Machine.length_pushBytes, List.length_cons]
    omega
  · refine yields_then fun _ => yields_ok ?_
    simp only [Move.Climbs, List.length_cons]
    omega
  · refine yields_then fun _ => yields_then fun _ => yields_ok ?_
    simp only [Move.Climbs, List.length_cons]
    omega
  · -- a write
    split
    · exact yields_error _
    · split
      · refine yields_ok ⟨nofun, fun _ => yields_ok ?_⟩
        simp only [List.length_cons]
        omega
      · exact yields_error _
  · split
    · exact yields_ok (Nat.le_refl _)
    · exact yields_error _
  · -- a log
    split
    · exact yields_error _
    · split
      · split
        · exact yields_error _
        · refine yields_then fun read => yields_ok ⟨nofun, fun _ => yields_ok ?_⟩
          simp only [List.length_drop, List.length_cons]
          omega
      · exact yields_error _
  · refine yields_then fun read => ?_
    refine yields_bind (creation_gas frame _ _ _ _).mapError fun raw hraw => ?_
    exact yields_ok (Move.climbs_call hraw (afterCreation_height _ _) (Nat.le_refl _))
  · refine yields_then fun read => ?_
    refine yields_bind (creation_gas frame _ _ _ _).mapError fun raw hraw => ?_
    exact yields_ok (Move.climbs_call hraw (afterCreation_height _ _) (Nat.le_add_right _ 1))
  · refine yields_then fun read => ?_
    refine yields_bind (nestedCall_gas frame _ _ _ _ _).mapError fun raw hraw => ?_
    exact yields_ok (Move.climbs_call hraw (afterCall_height _ _ _ _) (Nat.le_add_right _ 4))
  · exact yields_then fun _ => yields_error _
  · exact yields_then fun _ => yields_error _
  · -- a destruction
    split
    · exact yields_error _
    · split
      · exact yields_ok ⟨nofun, fun _ => yields_error _⟩
      · exact yields_error _

/-! ## Whole code -/

/-- The items on the stack and the gas that is left are no more than the gas there was. -/
theorem exec_affords [Room] (frame : Frame) (instructions : List (Nat × Instruction)) (m : Machine)
    (h : m.stack.length + m.gas ≤ frame.message.gas) :
    (exec frame instructions m).Obeys frame.message.Affords (fun _ => True) := by
  induction instructions generalizing m with
  | nil => exact .done trivial
  | cons item rest ih =>
    obtain ⟨position, i⟩ := item
    rw [exec]
    simp only
    split
    · exact .done trivial
    · rename_i hgas
      have hless : 0 ≤ m.gas - 1 ∧ m.gas - 1 < frame.message.gas := by omega
      have hnext (next : Machine) (hheight : next.stack.length ≤ m.stack.length + 1)
          (hpaid : next.gas = m.gas - 1) : next.stack.length + next.gas ≤ frame.message.gas := by
        omega
      cases hmove : i.move frame { m with gas := m.gas - 1 } with
      | error stop => exact .done trivial
      | ok move =>
        have hfits := i.move_fits hless move hmove
        have hclimbs := i.move_climbs frame { m with gas := m.gas - 1 } move hmove
        cases move with
        | go next => exact ih next (hnext next hclimbs hfits)
        | ask q resume =>
          obtain ⟨hcall, hresumes⟩ := hclimbs
          refine .ask ?_ fun answer => ?_
          · intro raw hq
            obtain ⟨hheight, nested, hraw, hdepth, hgiven⟩ := hcall raw hq
            simp only at hheight hgiven
            exact ⟨nested, hraw, hdepth, by omega, by omega⟩
          · cases hresume : resume answer with
            | error stop => exact .done trivial
            | ok next =>
              exact ih next (hnext next (hresumes answer next hresume) (hfits.2 answer next hresume))

theorem interpret_affords [Room] (message : Message) (code : Bytes) :
    (interpret message code).Obeys message.Affords (fun _ => True) :=
  exec_affords { message, code } (decode code) { gas := message.gas } (Int.le_of_eq (Int.zero_add _))

end Interpreter

end ContractHost
