import ContractHost.Interpreter.Machine
import ContractHost.Proofs.Boundary.RawMessage
import ContractHost.Proofs.Yields

/-!
# What code may ask

Code reads whatever account it likes, but it writes, logs and destructs only at the address that it runs
at, and it calls and creates only in the name of that address. A static message forbids the changes,
though not creations. A nested message has less gas, and what is left of the gas when code ends is no
more than it was given.

* `Message.Asks`, `Message.Begets`: the questions, and the nested messages among them.
* `Script.Obeys`: all questions and ends of a script, whatever the answers.
* `interpret_obeys`: code run for a message asks only what the message allows.
-/

namespace ContractHost

/-- A message that code run for another one may send. -/
structure Message.Begets (message nested : Message) : Prop where
  sender : nested.sender = message.destination
  depth : nested.depth = message.depth + 1
  kind : nested.kind.isCreate = true ∨ nested.kind = .call ∧ nested.flags = message.flags
  gas : nested.gas.toNat < message.gas.toNat

/-- A question that code run for a message may ask. -/
def Message.Asks (message : Message) : Query → Prop
  | .getStorage address _ => address = message.destination
  | .setStorage address _ _ => address = message.destination ∧ message.isStatic = false
  | .selfdestruct address _ => address = message.destination ∧ message.isStatic = false
  | .emitLog address _ _ => address = message.destination ∧ message.isStatic = false
  | .call raw => ∃ nested, raw.toMessage = .ok nested ∧ message.Begets nested
  | _ => True

namespace Interpreter

/-- All questions of a script are allowed, and so is its end, whatever the answers are. -/
inductive Script.Obeys {α : Type} (asks : Query → Prop) (ends : α → Prop) : Script α → Prop
  | done {value : α} (h : ends value) : Obeys asks ends (.done value)
  | ask {q : Query} {next : q.Answer → Script α} (h : asks q)
      (later : ∀ answer, Obeys asks ends (next answer)) : Obeys asks ends (.ask q next)

/-- What the answers to allowed questions keep, a script keeps that asks no others. -/
theorem Script.Obeys.answerWith {α σ : Type} {asks : Query → Prop} {ends : α → Prop}
    {script : Script α} (h : script.Obeys asks ends) {R : σ → σ → Prop}
    {answer : (q : Query) → σ → q.Answer × σ} (refl : ∀ s, R s s)
    (trans : ∀ {a b c}, R a b → R b c → R a c) (step : ∀ q s, asks q → R s (answer q s).2)
    (s : σ) : R s (script.answerWith answer s).2 ∧ ends (script.answerWith answer s).1 := by
  induction h generalizing s with
  | done hends => exact ⟨refl s, hends⟩
  | ask hasks later ih =>
    rename_i q next
    obtain ⟨hlater, hends⟩ := ih (answer q s).1 (answer q s).2
    exact ⟨trans (step q s hasks) hlater, hends⟩

/-! ## One instruction -/

/-- What an instruction may do with so much gas left: it uses up none of it, and asks what it may. -/
def Move.Fits (message : Message) (gas : Int) : Move → Prop
  | .go m => m.gas = gas
  | .ask q resume => message.Asks q ∧ ∀ answer, Yields (resume answer) (·.gas = gas)

theorem Machine.copyIn_gas [Room] (m : Machine) (rest : List Int) (dest : Int) (source : Bytes)
    (offset size : Int) : Yields (m.copyIn rest dest source offset size) (·.gas = m.gas) :=
  yields_then fun _ => yields_then fun _ => yields_ok rfl

theorem toRaw_begets {message nested : Message} (h : message.Begets nested) :
    Yields nested.toRaw fun raw => message.Asks (.call raw) := by
  intro raw hraw
  exact ⟨nested, Message.toRaw_eq_ok_iff.1 hraw, h⟩

theorem creation_begets {frame : Frame} {gas : Int} (h : 0 ≤ gas ∧ gas < frame.message.gas)
    (value : Int) (input : Bytes) (salt : Option Int) :
    Yields (creation frame gas value input salt) fun raw => frame.message.Asks (.call raw) := by
  refine yields_then fun value => toRaw_begets ⟨rfl, rfl, Or.inl ?_, ?_⟩
  · cases salt <;> rfl
  · show gas.toNat < frame.message.gas.toNat
    omega

theorem nestedCall_begets {frame : Frame} {gas : Int} (h : 0 ≤ gas ∧ gas < frame.message.gas)
    (asked target value : Int) (input : Bytes) :
    Yields (nestedCall frame (min asked gas) target value input)
      fun raw => frame.message.Asks (.call raw) := by
  refine yields_then fun value => toRaw_begets ⟨rfl, rfl, Or.inr ⟨rfl, rfl⟩, ?_⟩
  show (min asked gas).toNat < frame.message.gas.toNat
  omega

theorem afterCall_gas [Room] (m : Machine) (rest : List Int) (dest size : Int) (raw : RawOutcome) :
    Yields (afterCall m rest dest size raw) (·.gas = m.gas) :=
  yields_then fun _ => yields_then fun _ => yields_ok rfl

theorem afterCreation_gas (m : Machine) (rest : List Int) (raw : RawOutcome) :
    Yields (afterCreation m rest raw) (·.gas = m.gas) := by
  refine yields_ok ?_
  split <;> rfl

theorem Instruction.move_fits [Room] {frame : Frame} {m : Machine}
    (h : 0 ≤ m.gas ∧ m.gas < frame.message.gas) (i : Instruction) :
    Yields (i.move frame m) (Move.Fits frame.message m.gas) := by
  have hcopied (rest : List Int) (dest : Int) (source : Bytes) (offset size : Int) :
      Yields (do return Move.go (← m.copyIn rest dest source offset size))
        (Move.Fits frame.message m.gas) :=
    yields_bind (m.copyIn_gas rest dest source offset size) fun _ h => yields_ok h
  unfold Instruction.move
  split
  -- most instructions stop, go on at once, or ask about any account and go on with the answer
  all_goals try exact yields_error _
  all_goals try exact yields_ok rfl
  all_goals try exact yields_ok ⟨trivial, fun _ => yields_ok rfl⟩
  · exact hcopied _ _ _ _ _
  · exact hcopied _ _ _ _ _
  · refine yields_then fun _ => yields_then fun offset => yields_then fun limit => ?_
    exact yields_ok ⟨trivial, fun _ => yields_then fun _ => yields_then fun _ => yields_ok rfl⟩
  · exact yields_then fun n => yields_ok ⟨trivial, fun _ => yields_ok rfl⟩
  · exact yields_then fun _ => yields_ok rfl
  · exact yields_then fun _ => yields_then fun _ => yields_ok rfl
  · exact yields_ok ⟨rfl, fun _ => yields_ok rfl⟩
  · -- a write
    split
    · exact yields_error _
    · rename_i hstatic
      split
      · exact yields_ok ⟨⟨rfl, by simpa using hstatic⟩, fun _ => yields_ok rfl⟩
      · exact yields_error _
  · split
    · exact yields_ok rfl
    · exact yields_error _
  · -- a log
    split
    · exact yields_error _
    · rename_i hstatic
      split
      · split
        · exact yields_error _
        · refine yields_then fun read => ?_
          exact yields_ok ⟨⟨rfl, by simpa using hstatic⟩, fun _ => yields_ok rfl⟩
      · exact yields_error _
  · refine yields_then fun read => ?_
    refine yields_bind (creation_begets h _ _ _).mapError fun raw hasks => ?_
    exact yields_ok ⟨hasks, afterCreation_gas _ _⟩
  · refine yields_then fun read => ?_
    refine yields_bind (creation_begets h _ _ _).mapError fun raw hasks => ?_
    exact yields_ok ⟨hasks, afterCreation_gas _ _⟩
  · refine yields_then fun read => ?_
    refine yields_bind (nestedCall_begets h _ _ _ _).mapError fun raw hasks => ?_
    exact yields_ok ⟨hasks, afterCall_gas _ _ _ _⟩
  · exact yields_then fun _ => yields_error _
  · exact yields_then fun _ => yields_error _
  · -- a destruction
    split
    · exact yields_error _
    · rename_i hstatic
      split
      · exact yields_ok ⟨⟨rfl, by simpa using hstatic⟩, fun _ => yields_error _⟩
      · exact yields_error _

/-! ## Whole code -/

/-- What may be left of gas: all of it, if no instruction ran, or else no more of it than there was. -/
def Ending.Leaves (gas : Int) : Ending → Prop
  | .halted _ left _ => left = gas ∨ 0 ≤ left ∧ left ≤ max gas 0
  | .crashed _ => True

theorem Stop.ending_leaves {gas left : Int} (h : left ≤ max gas 0) (stop : Stop) :
    (stop.ending left).Leaves gas := by
  cases stop with
  | crash cause => trivial
  | halt status output =>
    simp only [Stop.ending]
    split
    · show max left 0 = gas ∨ 0 ≤ max left 0 ∧ max left 0 ≤ max gas 0
      omega
    · show 0 = gas ∨ 0 ≤ 0 ∧ 0 ≤ max gas 0
      omega

theorem exec_obeys [Room] (frame : Frame) (instructions : List (Nat × Instruction)) (m : Machine)
    (h : m.gas = frame.message.gas ∨ 0 ≤ m.gas ∧ m.gas ≤ max frame.message.gas 0) :
    (exec frame instructions m).Obeys frame.message.Asks (Ending.Leaves frame.message.gas) := by
  induction instructions generalizing m with
  | nil => exact .done h
  | cons item rest ih =>
    obtain ⟨position, i⟩ := item
    have hpaid : m.gas - 1 ≤ max frame.message.gas 0 := by omega
    rw [exec]
    simp only
    split
    · exact .done (Stop.ending_leaves hpaid _)
    · rename_i hgas
      have hless : 0 ≤ m.gas - 1 ∧ m.gas - 1 < frame.message.gas := by omega
      have hgoes (next : Machine) (hnext : next.gas = m.gas - 1) :
          next.gas = frame.message.gas ∨ 0 ≤ next.gas ∧ next.gas ≤ max frame.message.gas 0 := by
        omega
      cases hmove : i.move frame { m with gas := m.gas - 1 } with
      | error stop => exact .done (Stop.ending_leaves hpaid stop)
      | ok move =>
        have hfits := i.move_fits hless move hmove
        cases move with
        | go next => exact ih next (hgoes next hfits)
        | ask q resume =>
          refine .ask hfits.1 fun answer => ?_
          cases hresume : resume answer with
          | error stop => exact .done (Stop.ending_leaves hpaid stop)
          | ok next => exact ih next (hgoes next (hfits.2 answer next hresume))

theorem interpret_obeys [Room] (message : Message) (code : Bytes) :
    (interpret message code).Obeys message.Asks (Ending.Leaves message.gas) :=
  exec_obeys { message, code } (decode code) { gas := message.gas } (Or.inl rfl)

end Interpreter

end ContractHost
