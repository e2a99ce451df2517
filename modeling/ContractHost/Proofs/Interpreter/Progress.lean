import ContractHost.Proofs.Interpreter.Budget

/-!
# How far code has come

While code runs and is answered, it goes through points: some instructions were carried out, others lie
ahead, there is a machine, and whoever answers has come to some state. Every question and every ending
of the code arises at such a point, so what all points have in common is shown once, by induction on the
instructions carried out.

* `Instruction.act`: one instruction, its question answered at once.
* `Instruction.act_ends`: what an instruction leads to follows from what it does next.
* `Reached`: the points that code goes through.
* `Reached.positions`: the instructions carried out stand in the code one after the other.
* `interpret_finishes`, `Reached.answerWith`: the code ends at such a point, and goes on from each.
-/

namespace ContractHost.Interpreter

/-! ## One instruction -/

/-- The machine once an instruction is paid. -/
def Machine.paid (m : Machine) : Machine := { m with gas := m.gas - 1 }

/-- The ending of code that has used up its gas. -/
def Ending.spent : Ending := .halted .outOfGas 0 []

variable [Room]

/-- What follows a step that gives the next machine. -/
def resumed (frame : Frame) (rest : List (Nat × Instruction)) (gas : Int) :
    Except Stop Machine → Script Ending
  | .error stop => .done (stop.ending gas)
  | .ok m => exec frame rest m

theorem exec_cons (frame : Frame) (position : Nat) (i : Instruction)
    (rest : List (Nat × Instruction)) (m : Machine) :
    exec frame ((position, i) :: rest) m =
      if m.paid.gas < 0 then .done .spent
      else match i.move frame m.paid with
        | .error stop => resumed frame rest m.paid.gas (.error stop)
        | .ok (.go next) => resumed frame rest m.paid.gas (.ok next)
        | .ok (.ask q resume) =>
          .ask q fun answer => resumed frame rest m.paid.gas (resume answer) := rfl

section

variable {σ : Type} {frame : Frame} {answer : (q : Query) → σ → q.Answer × σ}

/-- What an instruction leads to if its question is answered at once: the machine that goes on, or why
there is none, and the state of whoever answered. -/
def Instruction.act (frame : Frame) (answer : (q : Query) → σ → q.Answer × σ) (m : Machine)
    (i : Instruction) (s : σ) : Except Stop Machine × σ :=
  match i.move frame m with
  | .error reason => (.error reason, s)
  | .ok (.go next) => (.ok next, s)
  | .ok (.ask q resume) => (resume (answer q s).1, (answer q s).2)

/-- What an instruction does next, if it asks only what is allowed and gets only answers of a kind: the
machine has a property in the end, and so has the reason if there is none. -/
def Move.Leads (asks : Query → Prop) (gives : (q : Query) → q.Answer → Prop) (P : Machine → Prop)
    (E : Stop → Prop) : Move → Prop
  | .go next => P next
  | .ask q resume => asks q ∧ ∀ answer, gives q answer → Ends (resume answer) P E

theorem Instruction.act_ends {asks : Query → Prop} {gives : (q : Query) → q.Answer → Prop}
    {P : Machine → Prop} {E : Stop → Prop} {m : Machine} {i : Instruction} {s : σ}
    (hmove : Ends (i.move frame m) (Move.Leads asks gives P E) E)
    (hgives : ∀ q resume, i.move frame m = .ok (.ask q resume) → asks q → gives q (answer q s).1) :
    Ends (i.act frame answer m s).1 P E := by
  unfold act
  cases h : i.move frame m with
  | error reason => exact .error (hmove.fails reason h)
  | ok move =>
    have hleads := hmove.gives move h
    cases move with
    | go next => exact .ok hleads
    | ask q resume => exact hleads.2 _ (hgives q resume h hleads.1)

/-- What whoever answers keeps when asked what is allowed, an instruction keeps. -/
theorem Instruction.act_keeps {asks : Query → Prop} {gives : (q : Query) → q.Answer → Prop}
    {P : Machine → Prop} {E : Stop → Prop} {m : Machine} {i : Instruction} {s : σ}
    (hmove : Ends (i.move frame m) (Move.Leads asks gives P E) E) {keeps : σ → Prop}
    (hkeeps : ∀ q, asks q → keeps (answer q s).2) (hs : keeps s) :
    keeps (i.act frame answer m s).2 := by
  unfold act
  cases h : i.move frame m with
  | error reason => exact hs
  | ok move =>
    cases move with
    | go next => exact hs
    | ask q resume => exact hkeeps q (hmove.gives _ h).1

theorem Instruction.act_yields {P : Machine → Prop} {m : Machine} {i : Instruction}
    (hgo : ∀ next, i.move frame m = .ok (.go next) → P next)
    (hask : ∀ q resume, i.move frame m = .ok (.ask q resume) →
      ∀ answer, Yields (resume answer) P) (s : σ) : Yields (i.act frame answer m s).1 P := by
  unfold act
  cases h : i.move frame m with
  | error reason => exact yields_error reason
  | ok move =>
    cases move with
    | go next => exact yields_ok (hgo next h)
    | ask q resume => exact hask q resume h _

theorem Instruction.act_gas (answer : (q : Query) → σ → q.Answer × σ) {m : Machine}
    (h : 0 ≤ m.gas ∧ m.gas < frame.message.gas) (i : Instruction) (s : σ) :
    Yields (i.act frame answer m s).1 (·.gas = m.gas) :=
  act_yields (fun _ hmove => i.move_fits h _ hmove) (fun _ _ hmove => (i.move_fits h _ hmove).2) s

theorem Instruction.act_height (answer : (q : Query) → σ → q.Answer × σ) (m : Machine)
    (i : Instruction) (s : σ) :
    Yields (i.act frame answer m s).1 (·.stack.length ≤ m.stack.length + 1) :=
  act_yields (fun _ hmove => i.move_climbs frame m _ hmove)
    (fun _ _ hmove => (i.move_climbs frame m _ hmove).2) s

theorem exec_cons_answerWith (position : Nat) (i : Instruction) (rest : List (Nat × Instruction))
    {m : Machine} (hpaid : 0 ≤ m.paid.gas) (s : σ) :
    (exec frame ((position, i) :: rest) m).answerWith answer s =
      (resumed frame rest m.paid.gas (i.act frame answer m.paid s).1).answerWith answer
        (i.act frame answer m.paid s).2 := by
  rw [exec_cons, if_neg (Int.not_lt.2 hpaid), Instruction.act]
  cases i.move frame m.paid with
  | error stop => rfl
  | ok move => cases move <;> rfl

/-! ## The points that code goes through -/

/-- An instruction that was carried out: its position in the code, and the machine, its gas paid, and the
state of whoever answers as it found them. -/
structure Executed (σ : Type) where
  position : Nat
  instruction : Instruction
  machine : Machine
  state : σ

/-- The points that code goes through from the state of whoever answers on: the instructions that were
carried out, newest first, those that lie ahead, the machine, and the state. -/
inductive Reached (frame : Frame) (answer : (q : Query) → σ → q.Answer × σ) (first : σ) :
    List (Executed σ) → List (Nat × Instruction) → Machine → σ → Prop
  | start : Reached frame answer first [] (decode frame.code) { gas := frame.message.gas } first
  | step {past : List (Executed σ)} {position : Nat} {i : Instruction}
      {ahead : List (Nat × Instruction)} {m next : Machine} {s s' : σ}
      (h : Reached frame answer first past ((position, i) :: ahead) m s) (hpaid : 0 ≤ m.paid.gas)
      (hact : i.act frame answer m.paid s = (.ok next, s')) :
      Reached frame answer first
        ({ position, instruction := i, machine := m.paid, state := s } :: past) ahead next s'

/-- How code ends: it was carried out to its last instruction, its gas is used up, or an instruction
stops it. -/
inductive Finishes (frame : Frame) (answer : (q : Query) → σ → q.Answer × σ) (first : σ) :
    Ending → σ → Prop
  | ran {past : List (Executed σ)} {m : Machine} {s : σ} (h : Reached frame answer first past [] m s) :
      Finishes frame answer first (.halted .success m.gas []) s
  | spent {past : List (Executed σ)} {item : Nat × Instruction} {ahead : List (Nat × Instruction)}
      {m : Machine} {s : σ} (h : Reached frame answer first past (item :: ahead) m s)
      (hspent : m.paid.gas < 0) : Finishes frame answer first .spent s
  | stopped {past : List (Executed σ)} {position : Nat} {i : Instruction}
      {ahead : List (Nat × Instruction)} {m : Machine} {s s' : σ} {stop : Stop}
      (h : Reached frame answer first past ((position, i) :: ahead) m s) (hpaid : 0 ≤ m.paid.gas)
      (hact : i.act frame answer m.paid s = (.error stop, s')) :
      Finishes frame answer first (stop.ending m.paid.gas) s'

variable {first s : σ} {past : List (Executed σ)} {ahead : List (Nat × Instruction)} {m : Machine}

/-- The instructions carried out and those that lie ahead make up the code. -/
theorem Reached.decode_eq (h : Reached frame answer first past ahead m s) :
    (past.map fun executed => (executed.position, executed.instruction)).reverse ++ ahead =
      decode frame.code := by
  induction h with
  | start => rfl
  | step _ _ _ ih =>
    rw [List.map_cons, List.reverse_cons, List.append_assoc]
    exact ih

/-- The instructions were carried out in the order of the code, and what lies ahead comes after them. -/
theorem Reached.positions (h : Reached frame answer first past ahead m s) :
    ((past.map (·.position)).reverse ++ ahead.map Prod.fst).Pairwise (· < ·) := by
  have hcode := congrArg (List.map Prod.fst) h.decode_eq
  rw [List.map_append, List.map_reverse, List.map_map] at hcode
  exact hcode ▸ decode_positions 0 0 frame.code

theorem Reached.mem_decode (h : Reached frame answer first past ahead m s) {item : Nat × Instruction}
    (hitem : item ∈ ahead) : item ∈ decode frame.code :=
  h.decode_eq ▸ List.mem_append_right _ hitem

/-- From each point the code goes on to the end that it comes to from the start. -/
theorem Reached.answerWith (h : Reached frame answer first past ahead m s) :
    (interpret frame.message frame.code).answerWith answer first =
      (exec frame ahead m).answerWith answer s := by
  induction h with
  | start => rfl
  | step _ hpaid hact ih =>
    rw [ih, exec_cons_answerWith _ _ _ hpaid, hact]
    rfl

theorem exec_finishes (h : Reached frame answer first past ahead m s) :
    Finishes frame answer first ((exec frame ahead m).answerWith answer s).1
      ((exec frame ahead m).answerWith answer s).2 := by
  induction ahead generalizing past m s with
  | nil => exact .ran h
  | cons item ahead ih =>
    obtain ⟨position, i⟩ := item
    by_cases hspent : m.paid.gas < 0
    · rw [exec_cons, if_pos hspent]
      exact .spent h hspent
    · have hpaid := Int.not_lt.1 hspent
      rw [exec_cons_answerWith _ _ _ hpaid]
      cases hact : i.act frame answer m.paid s with
      | mk result s' =>
        cases result with
        | error stop => exact .stopped h hpaid hact
        | ok next => exact ih (.step h hpaid hact)

/-- Code ends at a point that it goes through. -/
theorem interpret_finishes (frame : Frame) (answer : (q : Query) → σ → q.Answer × σ) (first : σ) :
    Finishes frame answer first
      ((interpret frame.message frame.code).answerWith answer first).1
      ((interpret frame.message frame.code).answerWith answer first).2 :=
  exec_finishes .start

/-- Each instruction costs one unit of gas. -/
theorem Reached.gas (h : Reached frame answer first past ahead m s) :
    m.gas + past.length = frame.message.gas := by
  induction h with
  | start => exact Int.add_zero _
  | @step past position i ahead m next s s' _ hpaid hact ih =>
    have hcost : m.paid.gas = m.gas - 1 := rfl
    have hless : 0 ≤ m.paid.gas ∧ m.paid.gas < frame.message.gas := by omega
    have hnext : next.gas = m.paid.gas := i.act_gas answer hless s next (congrArg Prod.fst hact)
    rw [List.length_cons]
    omega

end

end ContractHost.Interpreter
