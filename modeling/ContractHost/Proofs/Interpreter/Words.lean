import ContractHost.Proofs.Bytes
import ContractHost.Proofs.Interpreter.Budget
import ContractHost.Proofs.Interpreter.Progress

/-!
# Words stay words

The items on the stack are integers, and nothing in the machine keeps them within the range of words.
They stay there because every instruction puts only such numbers on the stack: sums counted round, bytes
of which there are at most thirty-two, and sizes of buffers. It relies on its host for that: the number
of the block must not be negative, and the size of a code must be one that a buffer can have.

* `IsWord`: the numbers that thirty-two bytes spell, and what they convert to.
* `Instruction.move_words`: what one instruction does to a stack of words.
* `Reached.words`, `Reached.height`: what the stack holds at each point.
-/

namespace ContractHost.Interpreter

/-! ## Words -/

/-- A number that thirty-two bytes spell. -/
def IsWord (n : Int) : Prop := 0 ≤ n ∧ n < wordCount

instance (n : Int) : Decidable (IsWord n) := inferInstanceAs (Decidable (_ ∧ _))

theorem isWord_zero : IsWord 0 := by decide

theorem isWord_one : IsWord 1 := by decide

theorem isWord_size : IsWord 32 := by decide

theorem isWord_emod (n : Int) : IsWord (n % wordCount) :=
  ⟨Int.emod_nonneg n (by decide), Int.emod_lt_of_pos n (by decide)⟩

theorem isWord_toNat {bytes : Bytes} (h : bytes.length ≤ 32) : IsWord (Bytes.toNat bytes) := by
  have hlt := bytes.toNat_lt
  have hle : twoTo (8 * bytes.length) ≤ twoTo 256 := twoTo_le (by omega)
  exact ⟨Int.natCast_nonneg _, Int.ofNat_lt.2 (Nat.lt_of_lt_of_le hlt hle)⟩

theorem isWord_fixed {width : Width} (b : FixedBytes width) : IsWord (Bytes.toNat b.bytes) :=
  isWord_toNat (by rw [b.length_bytes]; cases width <;> decide)

section

variable {n : Int}

theorem IsWord.toNat_wordOf (h : IsWord n) : ((wordOf n).toNat : Int) = n := by
  have hmod : n % wordCount = n := Int.emod_eq_of_lt h.1 h.2
  have hlt : n.toNat < twoTo (8 * Width.bytes32.size) := (Int.toNat_lt h.1).2 h.2
  rw [wordOf, hmod, FixedBytes.toNat_ofNat, Nat.mod_eq_of_lt hlt]
  exact Int.toNat_of_nonneg h.1

theorem IsWord.toNat_addressOf (h : IsWord n) : ((addressOf n).toNat : Int) = n % twoTo 160 := by
  have hmod : n % wordCount = n := Int.emod_eq_of_lt h.1 h.2
  rw [addressOf, hmod, FixedBytes.toNat_ofNat, Int.natCast_emod, Int.toNat_of_nonneg h.1]
  rfl

theorem IsWord.ofInt_eq (h : IsWord n) : FixedBytes.ofInt n = .ok (wordOf n).asUint256 := by
  have hmod : n % wordCount = n := Int.emod_eq_of_lt h.1 h.2
  have hfits : 0 ≤ n ∧ n < twoTo 256 := h
  rw [FixedBytes.ofInt, if_pos hfits, wordOf, hmod]
  rfl

end

/-- The operand of a push is a word. -/
def Instruction.Short : Instruction → Prop
  | .push value => IsWord value
  | _ => True

theorem Instruction.short_ofByte (op : UInt8) (rest : Bytes) : (ofByte op rest).Short := by
  have hsize : operandSize op ≤ 32 := by
    unfold operandSize
    split
    · rename_i h
      have hop : op.toNat ≤ 0x7f := h.2
      omega
    · omega
  unfold ofByte
  split
  · refine isWord_toNat ?_
    rw [Bytes.length_padRight, List.length_take]
    omega
  · repeat' split
    all_goals exact trivial

theorem short_of_mem_decodeFrom {position skip : Nat} {code : Bytes} {item : Nat × Instruction}
    (h : item ∈ decodeFrom position skip code) : item.2.Short := by
  induction code generalizing position skip with
  | nil => cases h
  | cons op rest ih =>
    cases skip with
    | succ skip => exact ih h
    | zero =>
      rcases List.mem_cons.1 h with rfl | h
      · exact Instruction.short_ofByte op rest
      · exact ih h

/-! ## One instruction -/

/-- The data of a nested message has a size that is a word. -/
def Query.Countable : Query → Prop
  | .call raw => IsWord raw.input.length
  | _ => True

/-- The numbers that an answer brings in are words. -/
def Query.Fair : (q : Query) → q.Answer → Prop
  | .txContext, tx => 0 ≤ tx.blockNumber.toInt
  | .getCodeSize _, size => IsWord (size : Nat)
  | _, _ => True

/-- All items on the stack are words. -/
def Machine.Words (m : Machine) : Prop := ∀ item ∈ m.stack, IsWord item

/-- The output has a size that is a word. -/
def Stop.Countable : Stop → Prop
  | .halt _ output => IsWord output.length
  | .crash _ => True

theorem crashing_imp {α : Type} {step : Except Fault α} {P : α → Prop} {E : Fault → Prop}
    {E' : Stop → Prop} (h : Ends step P E) (herror : ∀ fault, E fault → E' (.crash fault)) :
    Ends (crashing step) P E' :=
  Ends.mapError (h.imp (fun _ => id) herror)

theorem crashing_ends {α : Type} {step : Except Fault α} {P : α → Prop} (h : Yields step P) :
    Ends (crashing step) P Stop.Countable :=
  crashing_imp (E := fun _ => True) ⟨h, fun _ _ => trivial⟩ fun _ _ => trivial

theorem crashing_then {α β : Type} {step : Except Fault α} {next : α → Except Stop β} {P : β → Prop}
    (h : ∀ a, Ends (next a) P Stop.Countable) : Ends (crashing step >>= next) P Stop.Countable :=
  (crashing_ends (P := fun _ => True) fun _ _ => trivial).bind fun a _ => h a

/-- What is read from memory has the size asked for at most. -/
theorem read_countable [Room] {memory : Memory} {offset size : Int} (hoffset : IsWord offset)
    (hsize : IsWord size) : Yields (memory.read offset size) fun read => IsWord read.1.length := by
  obtain ⟨offset, rfl⟩ := Int.eq_ofNat_of_zero_le hoffset.1
  obtain ⟨size, rfl⟩ := Int.eq_ofNat_of_zero_le hsize.1
  refine yields_then fun grown => yields_ok ⟨Int.natCast_nonneg _, ?_⟩
  have hle := length_slice_le grown offset size
  have hlt := hsize.2
  show ((slice grown offset _).length : Int) < wordCount
  omega

theorem toRaw_countable {message : Message} (h : IsWord message.input.length) :
    Yields message.toRaw fun raw => Query.Countable (.call raw) := by
  intro raw hraw
  show IsWord raw.input.length
  rwa [Message.toRaw_input hraw]

theorem creation_countable (frame : Frame) (gas value : Int) {input : Bytes} (salt : Option Int)
    (h : IsWord input.length) :
    Yields (creation frame gas value input salt) fun raw => Query.Countable (.call raw) :=
  yields_then fun _ => toRaw_countable h

theorem nestedCall_countable (frame : Frame) (gas target value : Int) {input : Bytes}
    (h : IsWord input.length) :
    Yields (nestedCall frame gas target value input) fun raw => Query.Countable (.call raw) :=
  yields_then fun _ => toRaw_countable h

/-- What code may do to a stack of words if it is answered with words. -/
abbrev Move.KeepsWords : Move → Prop :=
  Move.Leads Query.Countable Query.Fair Machine.Words Stop.Countable

section

variable {m : Machine} {rest : List Int}

theorem words_push {item : Int} (hitem : IsWord item) (hrest : ∀ item ∈ rest, IsWord item) :
    (m.push item rest).Words :=
  List.forall_mem_cons.2 ⟨hitem, hrest⟩

theorem copyIn_words [Room] (hrest : ∀ item ∈ rest, IsWord item) (dest : Int) (source : Bytes)
    (offset size : Int) :
    Ends (do return Move.go (← m.copyIn rest dest source offset size)) Move.KeepsWords
      Stop.Countable := by
  unfold Machine.copyIn
  simp only [bind_assoc, pure_bind]
  exact crashing_then fun _ => crashing_then fun _ => .ok hrest

theorem afterCreation_words (hrest : ∀ item ∈ rest, IsWord item) (raw : RawOutcome) :
    Ends (afterCreation m rest raw) Machine.Words Stop.Countable := by
  refine .ok ?_
  split
  · exact words_push (isWord_fixed raw.createAddress) hrest
  · exact words_push isWord_zero hrest

theorem afterCall_words [Room] (hrest : ∀ item ∈ rest, IsWord item) (dest size : Int) (raw : RawOutcome) :
    Ends (afterCall m rest dest size raw) Machine.Words Stop.Countable := by
  refine crashing_then fun _ => crashing_then fun _ => .ok (List.forall_mem_cons.2 ⟨?_, hrest⟩)
  split
  · exact isWord_one
  · exact isWord_zero

end

theorem Instruction.move_words [Room] {frame : Frame} (hinput : IsWord frame.message.input.length)
    {m : Machine} (hwords : m.Words) {i : Instruction} (hshort : i.Short) :
    Ends (i.move frame m) Move.KeepsWords Stop.Countable := by
  obtain ⟨stack, memory, gas⟩ := m
  simp only [Machine.Words] at hwords
  simp only [Instruction.move]
  split
  all_goals try simp only [List.forall_mem_cons] at hwords
  all_goals try exact .error isWord_zero
  -- what goes on at once, or asks for a string of fixed size
  all_goals try exact .ok (words_push (isWord_fixed _) hwords)
  all_goals try exact .ok ⟨trivial, fun _ _ => .ok (words_push (isWord_fixed _) hwords)⟩
  all_goals try exact .ok ⟨trivial, fun _ _ => .ok (words_push (isWord_fixed _) hwords.2)⟩
  · exact .ok (words_push (isWord_emod _) hwords.2.2)
  · -- a word of call data
    obtain ⟨offset, rfl⟩ := Int.eq_ofNat_of_zero_le hwords.1.1
    have hchunk := length_slice_le frame.message.input offset 32
    refine .ok (words_push (isWord_toNat ?_) hwords.2)
    rw [Bytes.length_padRight]
    exact Nat.max_le.2 ⟨hchunk, Nat.le_refl 32⟩
  · exact .ok (words_push hinput hwords)
  · exact copyIn_words hwords.2.2.2 _ _ _ _
  · exact copyIn_words hwords.2.2.2 _ _ _ _
  · exact .ok ⟨trivial, fun size hsize => .ok (words_push hsize hwords.2)⟩
  · -- code of another account
    refine crashing_then fun _ => crashing_then fun _ => crashing_then fun _ => ?_
    exact .ok ⟨trivial, fun _ _ => crashing_then fun _ => crashing_then fun _ => .ok hwords.2.2.2.2⟩
  · exact crashing_then fun _ => .ok ⟨trivial, fun _ _ => .ok (words_push (isWord_fixed _) hwords.2)⟩
  · -- the number of the block
    refine .ok ⟨trivial, fun tx htx => .ok (words_push ⟨htx, ?_⟩ hwords)⟩
    exact Int.lt_trans tx.blockNumber.toInt_lt (by decide)
  · exact .ok hwords.2
  · -- a word of memory
    obtain ⟨offset, rfl⟩ := Int.eq_ofNat_of_zero_le hwords.1.1
    refine (crashing_ends (P := fun read => read.1.length ≤ 32) ?_).bind fun read hread =>
      .ok (List.forall_mem_cons.2 ⟨isWord_toNat hread, hwords.2⟩)
    exact yields_then fun grown => yields_ok (length_slice_le grown offset 32)
  · exact crashing_then fun _ => crashing_then fun _ => .ok hwords.2.2
  · -- a write to storage
    split
    · exact .error isWord_zero
    · split
      · simp only [List.forall_mem_cons] at hwords
        exact .ok ⟨trivial, fun _ _ => .ok hwords.2.2⟩
      · exact .error isWord_zero
  · exact .ok (words_push hshort hwords)
  · split
    · rename_i item hitem
      exact .ok (words_push (hwords item (List.mem_of_getElem? hitem)) hwords)
    · exact .error isWord_zero
  · exact .ok (List.forall_mem_cons.2 ⟨hwords.2.1, List.forall_mem_cons.2 ⟨hwords.1, hwords.2.2⟩⟩)
  · -- a log
    split
    · exact .error isWord_zero
    · split
      · simp only [List.forall_mem_cons] at hwords
        split
        · exact .error isWord_zero
        · refine crashing_then fun read => .ok ⟨trivial, fun _ _ => .ok fun item hitem => ?_⟩
          exact hwords.2.2 item (List.mem_of_mem_drop hitem)
      · exact .error isWord_zero
  · refine (crashing_ends (read_countable hwords.2.1 hwords.2.2.1)).bind fun read hread => ?_
    refine (crashing_ends (creation_countable frame _ _ _ hread)).bind fun raw hraw => ?_
    exact .ok ⟨hraw, fun answer _ => afterCreation_words hwords.2.2.2 answer⟩
  · refine (crashing_ends (read_countable hwords.2.1 hwords.2.2.1)).bind fun read hread => ?_
    refine (crashing_ends (creation_countable frame _ _ _ hread)).bind fun raw hraw => ?_
    exact .ok ⟨hraw, fun answer _ => afterCreation_words hwords.2.2.2.2 answer⟩
  · refine (crashing_ends (read_countable hwords.2.2.2.1 hwords.2.2.2.2.1)).bind fun read hread => ?_
    refine (crashing_ends (nestedCall_countable frame _ _ _ hread)).bind fun raw hraw => ?_
    exact .ok ⟨hraw, fun answer _ => afterCall_words hwords.2.2.2.2.2.2.2 _ _ answer⟩
  · exact (crashing_ends (read_countable hwords.1 hwords.2.1)).bind fun read hread => .error hread
  · exact (crashing_ends (read_countable hwords.1 hwords.2.1)).bind fun read hread => .error hread
  · -- a destruction
    split
    · exact .error isWord_zero
    · split
      · exact .ok ⟨trivial, fun _ _ => .error isWord_zero⟩
      · exact .error isWord_zero

/-! ## Whole code -/

/-- The output of code has a size that is a word. -/
def Ending.Countable : Ending → Prop
  | .halted _ _ output => IsWord output.length
  | .crashed _ => True

theorem Stop.ending_countable {stop : Stop} (h : stop.Countable) (gas : Int) :
    (stop.ending gas).Countable := by
  cases stop with
  | crash fault => exact trivial
  | halt status output =>
    simp only [Stop.ending]
    split <;> exact h

section

variable {σ : Type} {frame : Frame} {answer : (q : Query) → σ → q.Answer × σ} {keeps : σ → Prop}
  {first s : σ} {past : List (Executed σ)} {ahead : List (Nat × Instruction)} {m : Machine}

/-- Whoever answers brings in words only, and goes on doing so. -/
def Brings (answer : (q : Query) → σ → q.Answer × σ) (keeps : σ → Prop) : Prop :=
  ∀ q s, Query.Countable q → keeps s → Query.Fair q (answer q s).1 ∧ keeps (answer q s).2

variable [Room]

theorem Reached.move_words {position : Nat} {i : Instruction}
    (h : Reached frame answer first past ((position, i) :: ahead) m s)
    (hinput : IsWord frame.message.input.length) (hwords : m.Words) :
    Ends (i.move frame m.paid) Move.KeepsWords Stop.Countable := by
  have hpaid : m.paid.Words := hwords
  exact Instruction.move_words hinput hpaid (short_of_mem_decodeFrom (h.mem_decode List.mem_cons_self))

theorem Reached.act_words {position : Nat} {i : Instruction}
    (h : Reached frame answer first past ((position, i) :: ahead) m s)
    (hinput : IsWord frame.message.input.length) (hanswer : Brings answer keeps)
    (hwords : m.Words) (hs : keeps s) :
    Ends (i.act frame answer m.paid s).1 Machine.Words Stop.Countable ∧
      keeps (i.act frame answer m.paid s).2 := by
  have hmove := h.move_words hinput hwords
  exact ⟨Instruction.act_ends hmove fun q _ _ hq => (hanswer q s hq hs).1,
    Instruction.act_keeps hmove (fun q hq => (hanswer q s hq hs).2) hs⟩

/-- The stack holds words at each point. -/
theorem Reached.words (h : Reached frame answer first past ahead m s)
    (hinput : IsWord frame.message.input.length) (hanswer : Brings answer keeps)
    (hfirst : keeps first) : m.Words ∧ keeps s := by
  induction h with
  | start => exact ⟨nofun, hfirst⟩
  | step h hpaid hact ih =>
    obtain ⟨hnext, hstate⟩ := h.act_words hinput hanswer ih.1 ih.2
    rw [hact] at hnext hstate
    exact ⟨hnext.gives _ rfl, hstate⟩

/-- The items on the stack are no more than the instructions carried out. -/
theorem Reached.height (h : Reached frame answer first past ahead m s) :
    m.stack.length ≤ past.length := by
  induction h with
  | start => exact Nat.le_refl 0
  | @step past position i ahead m next s s' h hpaid hact ih =>
    have hnext : next.stack.length ≤ m.paid.stack.length + 1 :=
      i.act_height answer m.paid s next (congrArg Prod.fst hact)
    exact Nat.le_trans hnext (Nat.succ_le_succ ih)

theorem Finishes.words {ending : Ending} (h : Finishes frame answer first ending s)
    (hinput : IsWord frame.message.input.length) (hanswer : Brings answer keeps)
    (hfirst : keeps first) : ending.Countable ∧ keeps s := by
  cases h with
  | ran h => exact ⟨isWord_zero, (h.words hinput hanswer hfirst).2⟩
  | spent h hspent => exact ⟨isWord_zero, (h.words hinput hanswer hfirst).2⟩
  | stopped h hpaid hact =>
    obtain ⟨hwords, hs⟩ := h.words hinput hanswer hfirst
    obtain ⟨hnext, hstate⟩ := h.act_words hinput hanswer hwords hs
    rw [hact] at hnext hstate
    exact ⟨Stop.ending_countable (hnext.fails _ rfl) _, hstate⟩

end

end ContractHost.Interpreter
