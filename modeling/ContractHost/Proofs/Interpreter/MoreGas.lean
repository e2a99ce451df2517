import ContractHost.Proofs.Interpreter.Progress

/-!
# Code with more gas

No instruction looks at the gas, but creations and calls hand it on. Code that is given more gas asks the
same questions, only that its messages may have more gas as well, and ends in the same way with the same
amount more. That goes on until the code with less gas runs out of it.

* `Relates`: two steps that fail alike or give related values.
* `Move.Richer`: one instruction with more gas.
* `Script.Outlasts`: whole code with more gas.
-/

namespace ContractHost

/-- Two steps that fail in the same way or give related values. -/
inductive Relates {ε α β : Type} (R : α → β → Prop) : Except ε α → Except ε β → Prop
  | error (e : ε) : Relates R (.error e) (.error e)
  | ok {a : α} {b : β} (h : R a b) : Relates R (.ok a) (.ok b)

namespace Relates

variable {ε α β γ δ : Type} {Q : α → α → Prop} {R : α → β → Prop}
  {S : γ → δ → Prop}

theorem bind {step : Except ε α} {step' : Except ε β} {next : α → Except ε γ}
    {next' : β → Except ε δ} (h : Relates R step step')
    (hnext : ∀ a b, R a b → Relates S (next a) (next' b)) :
    Relates S (step >>= next) (step' >>= next') := by
  cases h with
  | error e => exact .error e
  | ok h => exact hnext _ _ h

theorem refl (h : ∀ a, Q a a) (step : Except ε α) : Relates Q step step := by
  cases step with
  | error e => exact .error e
  | ok a => exact .ok (h a)

/-- The same step before two that are related. -/
theorem after {step : Except ε α} {next : α → Except ε γ} {next' : α → Except ε δ}
    (hnext : ∀ a, Relates S (next a) (next' a)) : Relates S (step >>= next) (step >>= next') := by
  cases step with
  | error e => exact .error e
  | ok a => exact hnext a

theorem mapError {ε' : Type} {step : Except ε α} {step' : Except ε β} (h : Relates R step step')
    (f : ε → ε') : Relates R (step.mapError f) (step'.mapError f) := by
  cases h with
  | error e => exact .error (f e)
  | ok h => exact .ok h

end Relates

/-- The same message with no less gas. -/
def RawMessage.Spares (raw raw' : RawMessage) : Prop :=
  ∃ gas : Int64, raw.gas.toInt ≤ gas.toInt ∧ raw' = { raw with gas }

theorem RawMessage.Spares.refl (raw : RawMessage) : raw.Spares raw :=
  ⟨raw.gas, Int.le_refl _, rfl⟩

/-- The same outcome but for the gas that is left. -/
def RawOutcome.Alike (raw raw' : RawOutcome) : Prop := ∃ gasLeft, raw' = { raw with gasLeft }

theorem Message.toRaw_spares {message : Message} {gas : Int} (h : message.gas ≤ gas)
    (hfits : ∃ raw, int64? message.gas = some raw) (hfits' : ∃ raw, int64? gas = some raw) :
    Relates RawMessage.Spares message.toRaw { message with gas }.toRaw := by
  obtain ⟨raw, hraw⟩ := hfits
  obtain ⟨raw', hraw'⟩ := hfits'
  refine .after fun flags => .after fun depth => ?_
  simp only [hraw, hraw']
  refine .ok ⟨raw', ?_, rfl⟩
  rw [int64?_eq_some_iff.1 hraw, int64?_eq_some_iff.1 hraw']
  exact h

namespace Interpreter

/-- The machine with more gas. -/
def Machine.given (extra : Int) (m : Machine) : Machine := { m with gas := m.gas + extra }

/-- Two steps of machines of which the second one has more gas. -/
abbrev Goes (extra : Int) : Except Stop Machine → Except Stop Machine → Prop :=
  Relates fun m m' => m' = m.given extra

/-- What an instruction does next, and what it does with more gas. -/
inductive Move.Richer (extra : Int) : Move → Move → Prop
  | go (m : Machine) : Richer extra (.go m) (.go (m.given extra))
  | ask {q : Query} {resume resume' : q.Answer → Except Stop Machine} (hq : ∀ raw, q ≠ .call raw)
    (h : ∀ answer, Goes extra (resume answer) (resume' answer)) :
    Richer extra (.ask q resume) (.ask q resume')
  | call {raw raw' : RawMessage} {resume resume' : RawOutcome → Except Stop Machine}
    (hraw : raw.Spares raw')
    (h : ∀ answer answer', answer.Alike answer' → Goes extra (resume answer) (resume' answer')) :
    Richer extra (.ask (.call raw) resume) (.ask (.call raw') resume')

section

variable {extra : Int}

theorem Machine.copyIn_goes [Room] (m : Machine) (rest : List Int) (dest : Int) (source : Bytes)
    (offset size : Int) :
    Goes extra (m.copyIn rest dest source offset size)
      ((m.given extra).copyIn rest dest source offset size) :=
  .after fun _ => .after fun _ => .ok rfl

/-- The answer to a call is not asked for its gas. -/
theorem afterCall_goes [Room] (m : Machine) (rest : List Int) (dest size : Int) {raw raw' : RawOutcome}
    (h : raw.Alike raw') :
    Goes extra (afterCall m rest dest size raw) (afterCall (m.given extra) rest dest size raw') := by
  obtain ⟨gasLeft, rfl⟩ := h
  exact .after fun _ => .after fun _ => .ok rfl

theorem afterCreation_goes (m : Machine) (rest : List Int) {raw raw' : RawOutcome}
    (h : raw.Alike raw') :
    Goes extra (afterCreation m rest raw) (afterCreation (m.given extra) rest raw') := by
  obtain ⟨gasLeft, rfl⟩ := h
  refine .ok ?_
  simp only
  split <;> rfl

theorem int64?_of_nonneg {n : Int} (h : 0 ≤ n) (hfits : n < twoTo 63) :
    ∃ raw, int64? n = some raw := int64?_fits_iff.2 ⟨by omega, hfits⟩

theorem creation_spares (frame : Frame) {gas : Int} (hextra : 0 ≤ extra) (hgas : 0 ≤ gas)
    (hfits : gas + extra < twoTo 63) (value : Int) (input : Bytes) (salt : Option Int) :
    Relates RawMessage.Spares (creation frame gas value input salt)
      (creation frame (gas + extra) value input salt) := by
  have hless : gas ≤ gas + extra := by omega
  have hfits' : gas < twoTo 63 := by omega
  exact .after fun _ => Message.toRaw_spares hless (int64?_of_nonneg hgas hfits')
    (int64?_of_nonneg (Int.le_trans hgas hless) hfits)

/-- More is only given to a nested call if it asks for more than there was. -/
theorem nestedCall_spares (frame : Frame) {gas : Int} (hextra : 0 ≤ extra) (hgas : 0 ≤ gas)
    (hfits : gas + extra < twoTo 63) (asked target value : Int) (input : Bytes) :
    Relates RawMessage.Spares (nestedCall frame (min asked gas) target value input)
      (nestedCall frame (min asked (gas + extra)) target value input) := by
  by_cases hasked : asked ≤ gas
  · rw [Int.min_eq_left hasked, Int.min_eq_left (by omega)]
    exact .refl .refl _
  · have hless : min asked gas ≤ min asked (gas + extra) := by omega
    have hnonneg : 0 ≤ min asked gas := by omega
    have hfits' : min asked (gas + extra) < twoTo 63 := by omega
    exact .after fun _ => Message.toRaw_spares hless
      (int64?_of_nonneg hnonneg (Int.lt_of_le_of_lt hless hfits'))
      (int64?_of_nonneg (Int.le_trans hnonneg hless) hfits')

end

theorem Instruction.move_richer [Room] (frame : Frame) {m : Machine} {extra : Int} (hextra : 0 ≤ extra)
    (hgas : 0 ≤ m.gas) (hfits : m.gas + extra < twoTo 63) (i : Instruction) :
    Relates (Move.Richer extra) (i.move frame m) (i.move frame (m.given extra)) := by
  obtain ⟨stack, memory, gas⟩ := m
  simp only [Instruction.move, Machine.given] at hgas hfits ⊢
  have hcopied (m : Machine) (rest : List Int) (dest : Int) (source : Bytes) (offset size : Int) :
      Relates (Move.Richer extra) (do return Move.go (← m.copyIn rest dest source offset size))
        (do return Move.go (← (m.given extra).copyIn rest dest source offset size)) := by
    refine (m.copyIn_goes rest dest source offset size).bind ?_
    rintro next _ rfl
    exact .ok (.go next)
  split
  -- most instructions stop, go on at once, or ask about any account and go on with the answer
  all_goals try exact .error _
  all_goals try exact .ok (.go _)
  all_goals try exact .ok (.ask (by rintro _ ⟨⟩) fun _ => .ok rfl)
  · exact hcopied _ _ _ _ _ _
  · exact hcopied _ _ _ _ _ _
  · refine .after fun _ => .after fun offset => .after fun limit => ?_
    exact .ok (.ask (by rintro _ ⟨⟩) fun _ => .after fun _ => .after fun _ => .ok rfl)
  · exact .after fun n => .ok (.ask (by rintro _ ⟨⟩) fun _ => .ok rfl)
  · exact .after fun _ => .ok (.go _)
  · exact .after fun _ => .after fun _ => .ok (.go _)
  · -- a write
    split
    · exact .error _
    · split
      · exact .ok (.ask (by rintro _ ⟨⟩) fun _ => .ok rfl)
      · exact .error _
  · split
    · exact .ok (.go _)
    · exact .error _
  · -- a log
    split
    · exact .error _
    · split
      · split
        · exact .error _
        · exact .after fun read => .ok (.ask (by rintro _ ⟨⟩) fun _ => .ok rfl)
      · exact .error _
  · refine .after fun read => ((creation_spares frame hextra hgas hfits _ _ _).mapError _).bind ?_
    exact fun raw raw' hraw => .ok (.call hraw fun _ _ h => afterCreation_goes _ _ h)
  · refine .after fun read => ((creation_spares frame hextra hgas hfits _ _ _).mapError _).bind ?_
    exact fun raw raw' hraw => .ok (.call hraw fun _ _ h => afterCreation_goes _ _ h)
  · refine .after fun read => ((nestedCall_spares frame hextra hgas hfits _ _ _ _).mapError _).bind ?_
    exact fun raw raw' hraw => .ok (.call hraw fun _ _ h => afterCall_goes _ _ _ _ h)
  · exact .after fun _ => .error _
  · exact .after fun _ => .error _
  · -- a destruction
    split
    · exact .error _
    · split
      · exact .ok (.ask (by rintro _ ⟨⟩) fun _ => .error _)
      · exact .error _

/-! ## Whole code -/

/-- The same ending, with more gas left if any is left at all. -/
inductive Ending.Richer (extra : Int) : Ending → Ending → Prop
  | left {status : StatusCode} (h : status = .success ∨ status = .revert) (gas : Int)
    (output : Bytes) : Richer extra (.halted status gas output) (.halted status (gas + extra) output)
  | none {status : StatusCode} (h : ¬(status = .success ∨ status = .revert)) (output : Bytes) :
    Richer extra (.halted status 0 output) (.halted status 0 output)
  | crashed (fault : Fault) : Richer extra (.crashed fault) (.crashed fault)

theorem Stop.ending_richer {gas extra : Int} (hgas : 0 ≤ gas) (hextra : 0 ≤ extra) (stop : Stop) :
    (stop.ending gas).Richer extra (stop.ending (gas + extra)) := by
  cases stop with
  | crash fault => exact .crashed fault
  | halt status output =>
    simp only [Stop.ending]
    split
    · rename_i hstatus
      rw [Int.max_eq_left hgas, Int.max_eq_left (by omega)]
      exact .left hstatus gas output
    · rename_i hstatus
      exact .none hstatus output

/-- A script and one with more gas, which asks the same and ends in the same way, unless the first one
ends because its gas is used up. -/
inductive Script.Outlasts (extra : Int) : Script Ending → Script Ending → Prop
  | spent (script : Script Ending) : Outlasts extra (.done .spent) script
  | done {ending ending' : Ending} (h : ending.Richer extra ending') :
    Outlasts extra (.done ending) (.done ending')
  | ask {q : Query} {next next' : q.Answer → Script Ending} (hq : ∀ raw, q ≠ .call raw)
    (later : ∀ answer, Outlasts extra (next answer) (next' answer)) :
    Outlasts extra (.ask q next) (.ask q next')
  | call {raw raw' : RawMessage} {next next' : RawOutcome → Script Ending} (hraw : raw.Spares raw')
    (later : ∀ answer answer', answer.Alike answer' →
      Outlasts extra (next answer) (next' answer')) :
    Outlasts extra (.ask (.call raw) next) (.ask (.call raw') next')

theorem Machine.paid_given (extra : Int) (m : Machine) :
    (m.given extra).paid = m.paid.given extra := by
  simp only [given, paid, Machine.mk.injEq, true_and]
  omega

theorem exec_outlasts [Room] {frame frame' : Frame} {extra : Int} (hextra : 0 ≤ extra)
    (hfits : frame.message.gas + extra < twoTo 63)
    (hmove : ∀ (m : Machine) (i : Instruction), i.move frame' m = i.move frame m)
    (instructions : List (Nat × Instruction)) (m : Machine) (h : m.gas ≤ frame.message.gas) :
    Script.Outlasts extra (exec frame instructions m) (exec frame' instructions (m.given extra)) := by
  induction instructions generalizing m with
  | nil => exact .done (.left (Or.inl rfl) m.gas [])
  | cons item rest ih =>
    obtain ⟨position, i⟩ := item
    rw [exec_cons, exec_cons, Machine.paid_given, hmove]
    have hpaid : m.paid.gas = m.gas - 1 := rfl
    have hgiven : (m.paid.given extra).gas = m.paid.gas + extra := rfl
    by_cases hgas : m.paid.gas < 0
    · rw [if_pos hgas]
      exact .spent _
    · rw [if_neg hgas, if_neg (by omega), hgiven]
      have hresumed {step step' : Except Stop Machine} (hgoes : Goes extra step step')
          (hyields : Yields step (·.gas = m.paid.gas)) :
          Script.Outlasts extra (resumed frame rest m.paid.gas step)
            (resumed frame' rest (m.paid.gas + extra) step') := by
        cases hgoes with
        | error stop => exact .done (stop.ending_richer (by omega) hextra)
        | @ok next next' hnext =>
          subst hnext
          have := hyields next rfl
          exact ih next (by omega)
      have hless : 0 ≤ m.paid.gas ∧ m.paid.gas < frame.message.gas := by omega
      have hfits' := i.move_fits hless
      have hroom : m.paid.gas + extra < twoTo 63 := by omega
      have hricher := i.move_richer frame hextra hless.1 hroom
      generalize i.move frame m.paid = move at hfits' hricher
      generalize i.move frame (m.paid.given extra) = move' at hricher
      cases hricher with
      | error stop => exact hresumed (.error stop) (yields_error stop)
      | ok hmoves =>
        have hfitting := hfits' _ rfl
        cases hmoves with
        | go next => exact hresumed (.ok rfl) (yields_ok hfitting)
        | ask hq hresume =>
          exact .ask hq fun answer => hresumed (hresume answer) (hfitting.2 answer)
        | call hraw hresume =>
          exact .call hraw fun answer answer' hanswer =>
            hresumed (hresume answer answer' hanswer) (hfitting.2 answer)

theorem interpret_outlasts [Room] {message : Message} {gas : Int} (h : message.gas ≤ gas)
    (hfits : gas < twoTo 63) (code : Bytes) :
    Script.Outlasts (gas - message.gas) (interpret message code)
      (interpret { message with gas } code) := by
  have hgiven : ({ gas } : Machine) = Machine.given (gas - message.gas) { gas := message.gas } := by
    simp only [Machine.given, Machine.mk.injEq, true_and]
    omega
  have hextra : 0 ≤ gas - message.gas := by omega
  have hfits' : message.gas + (gas - message.gas) < twoTo 63 := by omega
  -- no instruction looks at the gas of the message
  have hmove (m : Machine) (i : Instruction) :
      i.move { message := { message with gas }, code } m = i.move { message, code } m := rfl
  unfold interpret
  rw [hgiven]
  exact exec_outlasts hextra hfits' hmove (decode code) _ (Int.le_refl message.gas)

end Interpreter

end ContractHost
