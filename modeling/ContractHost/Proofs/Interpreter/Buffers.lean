import ContractHost.Proofs.Interpreter.Memory
import ContractHost.Proofs.Interpreter.Words

/-!
# What instructions read and write

An instruction takes the offsets and sizes of its buffers from the stack. Once the items there are words,
these are positions and numbers of bytes. Then an instruction that reads memory gets the bytes last
written there, one that copies gets its source with zeros behind the end, and nothing else that is in
memory changes. It fails only if it asks for more room than there is or names a number that no native
argument can hold.

* `Instruction.reads`, `Instruction.writes`, `Instruction.copies`: the parts of buffers that instructions
  name.
* `Instruction.WithinLimits`: there is room for them.
* `Instruction.written`: what an instruction writes.
* `Changed`: memory before and after it.
* `Instruction.move_memory`, `Instruction.move_gets`: what one instruction does to memory, and what it
  gets from there.
* `Reached.memory`: the memory at each point.
-/

namespace ContractHost.Interpreter

/-! ## The parts that instructions name -/

namespace Instruction

variable (frame : Frame) (stack : List Int) (i : Instruction)

/-- The part of memory that an instruction reads. -/
def reads : Option Span :=
  match i, stack with
  | .load, offset :: _ => some ⟨offset, 32⟩
  | .log topics, offset :: size :: rest =>
    if frame.message.isStatic = true ∨ rest.length < topics then none else some ⟨offset, size⟩
  | .create false, _ :: offset :: size :: _ => some ⟨offset, size⟩
  | .create true, _ :: offset :: size :: _ :: _ => some ⟨offset, size⟩
  | .call, _ :: _ :: _ :: offset :: size :: _ :: _ :: _ => some ⟨offset, size⟩
  | .ret, offset :: size :: _ => some ⟨offset, size⟩
  | .revert, offset :: size :: _ => some ⟨offset, size⟩
  | _, _ => none

/-- The part of memory that an instruction writes. -/
def writes : Option Span :=
  match i, stack with
  | .callDataCopy, dest :: _ :: size :: _ => some ⟨dest, size⟩
  | .codeCopy, dest :: _ :: size :: _ => some ⟨dest, size⟩
  | .extCodeCopy, _ :: dest :: _ :: size :: _ => some ⟨dest, size⟩
  | .store, offset :: _ :: _ => some ⟨offset, 32⟩
  | .call, _ :: _ :: _ :: _ :: _ :: dest :: size :: _ => some ⟨dest, size⟩
  | _, _ => none

/-- The part of call data or of a code that an instruction copies. -/
def copies : Option Span :=
  match i, stack with
  | .callDataLoad, offset :: _ => some ⟨offset, 32⟩
  | .callDataCopy, _ :: offset :: size :: _ => some ⟨offset, size⟩
  | .codeCopy, _ :: offset :: size :: _ => some ⟨offset, size⟩
  | .extCodeCopy, _ :: _ :: offset :: size :: _ => some ⟨offset, size⟩
  | _, _ => none

/-- The parts of memory that an instruction touches. -/
def touched : List Span := (i.reads frame stack).toList ++ (i.writes stack).toList

/-- A part of a buffer is one that an instruction names. -/
def Names (span : Span) : Prop :=
  i.reads frame stack = some span ∨ i.writes stack = some span ∨ i.copies stack = some span

/-- The native side can hold the numbers that it gets from an instruction. -/
def Passes : Prop :=
  match i, stack with
  | .extCodeCopy, _ :: _ :: offset :: _ => offset < twoTo 64
  | .blockHash, n :: _ => n < twoTo 63
  | .create _, _ => frame.message.depth + 1 < twoTo 31
  | .call, _ => frame.message.depth + 1 < twoTo 31
  | _, _ => True

/-- There is room for what an instruction touches, and the native side can hold its numbers. -/
structure WithinLimits [Room] : Prop where
  room : ∀ span ∈ i.touched frame stack, span.Fits
  native : i.Passes frame stack

variable {frame stack i} {span : Span}

theorem WithinLimits.reads [Room] (limits : i.WithinLimits frame stack)
    (h : i.reads frame stack = some span) : span.Fits :=
  limits.room span (List.mem_append_left _ (Option.mem_toList.2 h))

theorem WithinLimits.writes [Room] (limits : i.WithinLimits frame stack) (h : i.writes stack = some span) :
    span.Fits :=
  limits.room span (List.mem_append_right _ (Option.mem_toList.2 h))

/-- What an instruction names it takes from the stack, or else it is a word. -/
theorem names_mem (h : i.Names frame stack span) :
    span.offset ∈ stack ∧ (span.size ∈ stack ∨ span.size = 32) := by
  rcases h with h | h | h
  all_goals
    simp only [reads, writes, copies] at h
    split at h
  all_goals try split at h
  all_goals cases h
  all_goals simp

theorem names_sound (hwords : ∀ item ∈ stack, IsWord item) (h : i.Names frame stack span) :
    span.Sound := by
  obtain ⟨hoffset, hsize | hsize⟩ := names_mem h
  · exact ⟨(hwords _ hoffset).1, (hwords _ hsize).1⟩
  · exact ⟨(hwords _ hoffset).1, by omega⟩

/-- What an instruction writes, given the codes of accounts and what a call returned. -/
def written (frame : Frame) (codeOf : Address → Bytes) (returned : Bytes) (stack : List Int)
    (i : Instruction) : Option Write :=
  match i, stack with
  | .callDataCopy, dest :: offset :: size :: _ =>
    some ⟨dest.toNat, Bytes.window frame.message.input.byteAt offset.toNat size.toNat⟩
  | .codeCopy, dest :: offset :: size :: _ =>
    some ⟨dest.toNat, Bytes.window frame.code.byteAt offset.toNat size.toNat⟩
  | .extCodeCopy, a :: dest :: offset :: size :: _ =>
    some ⟨dest.toNat, Bytes.window (codeOf (addressOf a)).byteAt offset.toNat size.toNat⟩
  | .store, offset :: value :: _ => some ⟨offset.toNat, (wordOf value).bytes⟩
  | .call, _ :: _ :: _ :: _ :: _ :: dest :: size :: _ =>
    some ⟨dest.toNat, Bytes.window returned.byteAt 0 size.toNat⟩
  | _, _ => none

/-- What is written fills the part of memory that is named for it. -/
theorem exists_writes {codeOf : Address → Bytes} {returned : Bytes} {write : Write}
    (h : i.written frame codeOf returned stack = some write) :
    ∃ span, i.writes stack = some span ∧ write.offset = span.offset.toNat ∧
      write.bytes.length = span.size.toNat := by
  unfold written at h
  split at h
  case h_4 => cases h; exact ⟨_, rfl, rfl, (wordOf _).length_bytes⟩
  case h_6 => cases h
  all_goals cases h; exact ⟨_, rfl, rfl, Bytes.length_window ..⟩

end Instruction

/-! ## Writing -/

/-- Memory has grown to hold what was touched, and what was written stands over it. -/
structure Changed (touched : List Span) (write : Option Write) (before after : Memory) : Prop where
  length : after.length = (touched.foldl Memory.grow before).length
  bytes : ∀ position, Bytes.byteAt after position =
    write.toList.foldr Write.over (Bytes.byteAt before) position

namespace Changed

variable {touched : List Span} {write : Option Write} {before after : Memory}

theorem refl (memory : Memory) : Changed [] none memory memory := ⟨rfl, fun _ => rfl⟩

theorem grown (memory : Memory) (span : Span) : Changed [span] none memory (memory.grow span) :=
  ⟨rfl, Memory.byteAt_grow memory span⟩

/-- A write follows a read. -/
theorem after_read {read written : Span} (h : Changed [written] write (before.grow read) after) :
    Changed [read, written] write before after :=
  ⟨h.length, fun position => by rw [h.bytes, funext (Memory.byteAt_grow before read)]⟩

/-- Memory holds what it held and what was touched, and no more. -/
theorem length_le_iff (h : Changed touched write before after) (n : Nat) :
    after.length ≤ n ↔
      before.length ≤ n ∧ ∀ span ∈ touched, span.size ≠ 0 → span.offset + span.size ≤ n := by
  rw [h.length]
  clear h
  induction touched generalizing before with
  | nil => exact ⟨fun h => ⟨h, nofun⟩, And.left⟩
  | cons span rest ih =>
    rw [List.foldl_cons, ih, before.length_grow_le_iff, List.forall_mem_cons, and_assoc]

/-- A byte that is not written stays as it is, however much memory grows. -/
theorem outside (h : Changed touched write before after) {position : Nat}
    (houtside : ∀ w, write = some w → ¬ w.Covers position) :
    Bytes.byteAt after position = Bytes.byteAt before position := by
  rw [h.bytes]
  cases write with
  | none => rfl
  | some w => exact Write.over_of_not_covers (houtside w rfl) _

/-- What has no size changes nothing, wherever it lies. -/
theorem eq_of_empty (h : Changed touched write before after)
    (hempty : ∀ span ∈ touched, span.size = 0)
    (hwrite : ∀ w, write = some w → w.bytes.length = 0) : after = before := by
  have hholds (n : Nat) : after.length ≤ n ↔ before.length ≤ n := by
    rw [h.length_le_iff]
    exact and_iff_left fun span hspan hsome => absurd (hempty span hspan) hsome
  have hlength : after.length = before.length :=
    Nat.le_antisymm ((hholds _).2 (Nat.le_refl _)) ((hholds _).1 (Nat.le_refl _))
  refine Bytes.ext_byteAt hlength fun position _ => h.outside fun w hw hcovers => ?_
  have hnone := hwrite w hw
  have hfrom := hcovers.1
  have hto := hcovers.2
  omega

end Changed

/-- Code stops as it may, or else it has exceeded the limits. -/
def Stop.Excused (limits : Prop) : Stop → Prop
  | .halt _ _ => True
  | .crash _ => ¬ limits

theorem excused_reads [Room] {frame : Frame} {stack : List Int} {i : Instruction} {span : Span}
    (h : i.reads frame stack = some span) (fault : Fault) (hfull : ¬ span.Fits) :
    Stop.Excused (i.WithinLimits frame stack) (.crash fault) :=
  fun limits => hfull (limits.reads h)

theorem uint64_ends {n : Int} (h : 0 ≤ n) :
    Ends (fitting (uint64? n)) (fun raw => raw.toNat = n.toNat) fun _ => ¬ n < twoTo 64 := by
  cases hn : uint64? n with
  | none =>
    refine .error fun hless => ?_
    obtain ⟨raw, hraw⟩ := uint64?_fits_iff.2 ⟨h, hless⟩
    cases hn.symm.trans hraw
  | some raw => exact .ok (by rw [← uint64?_eq_some_iff.1 hn, Int.toNat_natCast])

theorem int64_ends {n : Int} (h : 0 ≤ n) :
    Ends (fitting (int64? n)) (fun _ => True) fun _ => ¬ n < twoTo 63 := by
  cases hn : int64? n with
  | none =>
    refine .error fun hless => ?_
    obtain ⟨raw, hraw⟩ := int64?_fits_iff.2 ⟨by omega, hless⟩
    cases hn.symm.trans hraw
  | some raw => exact .ok trivial

/-- What is read are the bytes of the endless string. -/
theorem read_then [Room] {β : Type} {E : Stop → Prop} (memory : Memory) {offset size : Int}
    (h : Span.Sound ⟨offset, size⟩) (hfull : ∀ fault, ¬ Span.Fits ⟨offset, size⟩ → E (.crash fault))
    {next : Bytes × Memory → Except Stop β} {P : β → Prop}
    (hnext : Ends (next (Bytes.window (Bytes.byteAt memory) offset.toNat size.toNat,
      memory.grow ⟨offset, size⟩)) P E) : Ends (crashing (memory.read offset size) >>= next) P E := by
  refine (crashing_imp (memory.read_ends h) hfull).bind fun read hread => ?_
  subst hread
  exact hnext

/-- A source is filled up with zeros and written. -/
theorem put_ends [Room] {limits : Prop} (memory : Memory) {dest size : Int} (h : Span.Sound ⟨dest, size⟩)
    (hlimits : limits → Span.Fits ⟨dest, size⟩) {source : Bytes}
    (hsource : source.length ≤ size.toNat) {f : Memory → Machine} {P : Machine → Prop}
    (hnext : ∀ after, Changed [⟨dest, size⟩]
      (some ⟨dest.toNat, Bytes.padRight size.toNat source⟩) memory after → P (f after)) :
    Ends (do
      let bytes ← crashing (padTo size source)
      let after ← crashing (memory.write dest bytes)
      return f after) P (Stop.Excused limits) := by
  refine (crashing_imp (padTo_ends size source) fun _ hlarge hwithin =>
    h.not_fits hlarge (hlimits hwithin)).bind fun bytes hbytes => ?_
  subst hbytes
  have hlength : ((Bytes.padRight size.toNat source).length : Int) = size := by
    rw [Bytes.length_padRight, Nat.max_eq_right hsource]
    exact Int.toNat_of_nonneg h.2
  have hwrite := memory.write_ends h.1 (Bytes.padRight size.toNat source)
  rw [hlength] at hwrite
  refine (crashing_imp hwrite fun _ hfull hwithin => hfull (hlimits hwithin)).bind
    fun after hafter => .ok (hnext after ⟨hafter.1, hafter.2⟩)

/-! ## Nested messages -/

/-- A message that costs no more than the one for which code runs can be sent, except one level deeper
than the native side can count. -/
theorem toRaw_ends {message nested : Message} (hsend : ∃ raw, message.toRaw = .ok raw)
    (hflags : nested.flags = message.flags ∨ nested.flags = 0)
    (hdepth : nested.depth = message.depth + 1) (hgas : 0 ≤ nested.gas ∧ nested.gas ≤ message.gas) :
    Ends nested.toRaw (·.input = nested.input) fun _ => ¬ message.depth + 1 < twoTo 31 := by
  refine ⟨fun raw => Message.toRaw_input, fun fault hfault hdeep => ?_⟩
  obtain ⟨hflag, hlevel, hpaid⟩ := Message.sendable_iff.1 hsend
  obtain ⟨raw, hraw⟩ : ∃ raw, nested.toRaw = .ok raw := by
    refine Message.sendable_iff.2 ⟨?_, int32?_fits_iff.2 ?_, int64?_fits_iff.2 ?_⟩
    · rcases hflags with heq | hzero
      · rwa [heq]
      · exact ⟨0, uint32?_eq_some_iff.2 hzero.symm⟩
    · have hfits := int32?_fits_iff.1 hlevel
      omega
    · have hfits := int64?_fits_iff.1 hpaid
      omega
  cases hraw.symm.trans hfault

theorem ofInt_ends {n : Int} (h : IsWord n) {E : Fault → Prop} :
    Ends (FixedBytes.ofInt n) (fun _ => True) E := by
  rw [h.ofInt_eq]
  exact .ok trivial

theorem wordCheck_ends {n : Int} (h : IsWord n) :
    Ends (if n < 0 ∨ wordCount ≤ n then .error .outOfRange else .ok () : Except Fault Unit)
      (fun _ => True) fun _ => False := by
  rw [if_neg (by rintro (hneg | hlarge); exacts [Int.not_lt.2 h.1 hneg, Int.not_lt.2 hlarge h.2])]
  exact .ok trivial

section

variable {frame : Frame} {gas value : Int}

theorem creation_ends (hsend : ∃ raw, frame.message.toRaw = .ok raw)
    (hgas : 0 ≤ gas ∧ gas ≤ frame.message.gas) (hvalue : IsWord value) (input : Bytes)
    (salt : Option Int) :
    Ends (creation frame gas value input salt) (·.input = input)
      fun _ => ¬ frame.message.depth + 1 < twoTo 31 := by
  exact (ofInt_ends hvalue).bind fun _ _ => toRaw_ends hsend (.inr rfl) rfl hgas

theorem nestedCall_ends (hsend : ∃ raw, frame.message.toRaw = .ok raw) {asked : Int}
    (hasked : IsWord asked) (hgas : 0 ≤ gas ∧ gas ≤ frame.message.gas) (hvalue : IsWord value)
    (target : Int) (input : Bytes) :
    Ends (nestedCall frame (min asked gas) target value input) (·.input = input)
      fun _ => ¬ frame.message.depth + 1 < twoTo 31 := by
  have hpaid : 0 ≤ min asked gas ∧ min asked gas ≤ frame.message.gas :=
    ⟨Int.le_min.2 ⟨hasked.1, hgas.1⟩, Int.le_trans (Int.min_le_right ..) hgas.2⟩
  exact (ofInt_ends hvalue).bind fun _ _ => toRaw_ends hsend (.inl rfl) rfl hpaid

variable {m : Machine} {rest : List Int} {offset size : Int} {P : Move → Prop} {E : Stop → Prop}

/-- The initialising code of a creation is read from memory. -/
theorem create_then [Room] (hsend : ∃ raw, frame.message.toRaw = .ok raw)
    (hgas : 0 ≤ m.gas ∧ m.gas ≤ frame.message.gas) (hvalue : IsWord value) (salt : Option Int)
    (hspan : Span.Sound ⟨offset, size⟩)
    (hfull : ∀ fault, ¬ Span.Fits ⟨offset, size⟩ → E (.crash fault))
    (hdeep : ∀ fault, ¬ frame.message.depth + 1 < twoTo 31 → E (.crash fault))
    (hnext : ∀ raw : RawMessage,
      raw.input = Bytes.window (Bytes.byteAt m.memory) offset.toNat size.toNat →
      P (.ask (.call raw) (afterCreation { m with memory := m.memory.grow ⟨offset, size⟩ } rest))) :
    Ends (do
      let (input, memory) ← crashing (m.memory.read offset size)
      let message ← crashing (creation frame m.gas value input salt)
      return Move.ask (.call message) (afterCreation { m with memory } rest)) P E := by
  refine read_then m.memory hspan hfull ?_
  exact (crashing_imp (creation_ends hsend hgas hvalue _ salt) hdeep).bind
    fun raw hraw => .ok (hnext raw hraw)

/-- The input of a nested call is read from memory. -/
theorem call_then [Room] {asked target dest destSize : Int} (hsend : ∃ raw, frame.message.toRaw = .ok raw)
    (hasked : IsWord asked) (hgas : 0 ≤ m.gas ∧ m.gas ≤ frame.message.gas) (hvalue : IsWord value)
    (hspan : Span.Sound ⟨offset, size⟩)
    (hfull : ∀ fault, ¬ Span.Fits ⟨offset, size⟩ → E (.crash fault))
    (hdeep : ∀ fault, ¬ frame.message.depth + 1 < twoTo 31 → E (.crash fault))
    (hnext : ∀ raw : RawMessage,
      raw.input = Bytes.window (Bytes.byteAt m.memory) offset.toNat size.toNat →
      P (.ask (.call raw)
        (afterCall { m with memory := m.memory.grow ⟨offset, size⟩ } rest dest destSize))) :
    Ends (do
      let (input, memory) ← crashing (m.memory.read offset size)
      let message ← crashing (nestedCall frame (min asked m.gas) target value input)
      return Move.ask (.call message) (afterCall { m with memory } rest dest destSize)) P E := by
  refine read_then m.memory hspan hfull ?_
  exact (crashing_imp (nestedCall_ends hsend hasked hgas hvalue target _) hdeep).bind
    fun raw hraw => .ok (hnext raw hraw)

end

/-! ## One instruction -/

/-- An answer is the part of a code that was asked for, or it is what a call returned. -/
def Query.Tells (codeOf : Address → Bytes) (returned : Bytes) : (q : Query) → q.Answer → Prop
  | .copyCode a offset size, bytes => bytes = ((codeOf a).drop offset.toNat).take size.toNat
  | .call _, raw => raw.output = returned
  | _, _ => True

/-- What code does to memory if it is answered truly. -/
abbrev Move.Writes (codeOf : Address → Bytes) (returned : Bytes) (touched : List Span)
    (write : Option Write) (before : Memory) (limits : Prop) : Move → Prop :=
  Move.Leads (fun _ => True) (Query.Tells codeOf returned)
    (fun next => Changed touched write before next.memory) (Stop.Excused limits)

theorem copyIn_writes [Room] {m : Machine} {rest : List Int} {dest offset size : Int} {source : Bytes}
    (hdest : IsWord dest) (hoffset : IsWord offset) (hsize : IsWord size) {limits : Prop}
    (hlimits : limits → Span.Fits ⟨dest, size⟩) (codeOf : Address → Bytes) (returned : Bytes) :
    Ends (do return Move.go (← m.copyIn rest dest source offset size))
      (Move.Writes codeOf returned [⟨dest, size⟩]
        (some ⟨dest.toNat, Bytes.window source.byteAt offset.toNat size.toNat⟩) m.memory limits)
      (Stop.Excused limits) := by
  obtain ⟨offset, rfl⟩ := Int.eq_ofNat_of_zero_le hoffset.1
  obtain ⟨size, rfl⟩ := Int.eq_ofNat_of_zero_le hsize.1
  have hput := put_ends (P := fun next => Changed [⟨dest, size⟩]
      (some ⟨dest.toNat, Bytes.window source.byteAt offset size⟩) m.memory next.memory)
    m.memory ⟨hdest.1, hsize.1⟩ hlimits (length_slice_le source offset size)
    (f := fun after => { m with stack := rest, memory := after }) fun after hafter => by
      rwa [Int.toNat_natCast, Bytes.padRight_slice] at hafter
  exact hput.bind fun next hnext => .ok hnext

theorem extCopyIn_writes [Room] {memory : Memory} {gas : Int} {rest : List Int}
    {dest offset size : Int} (hdest : IsWord dest) (hoffset : IsWord offset) (hsize : IsWord size)
    {limits : Prop} (hlimits : limits → Span.Fits ⟨dest, size⟩) (hnative : limits → offset < twoTo 64)
    (codeOf : Address → Bytes) (returned : Bytes) (a : Address) :
    Ends (do
      let _ ← crashing (zeroBytes (max size 1))
      let offset ← crashing (fitting (uint64? offset))
      let limit ← crashing (fitting (uint64? size))
      return Move.ask (.copyCode a offset limit) fun bytes => do
        let bytes ← crashing (padTo size bytes)
        let after ← crashing (memory.write dest bytes)
        return { stack := rest, memory := after, gas })
      (Move.Writes codeOf returned [⟨dest, size⟩]
        (some ⟨dest.toNat, Bytes.window (codeOf a).byteAt offset.toNat size.toNat⟩) memory limits)
      (Stop.Excused limits) := by
  have hlimit : 0 < Room.limit ∧ Room.limit < twoTo 64 :=
    ⟨Room.limit_pos, Int.lt_trans Room.limit_lt (by decide)⟩
  have hspan : Span.Sound ⟨dest, size⟩ := ⟨hdest.1, hsize.1⟩
  have hlarge (h : Room.limit < size) : ¬ limits := fun hwithin =>
    hspan.not_fits h (hlimits hwithin)
  refine (crashing_imp (zeroBytes_ends _) fun _ hmax => hlarge (by omega)).bind fun _ _ => ?_
  refine (crashing_imp (uint64_ends hoffset.1) fun _ hfar hwithin =>
    hfar (hnative hwithin)).bind fun start hstart => ?_
  refine (crashing_imp (uint64_ends hsize.1) fun _ hmuch => hlarge (by omega)).bind
    fun limit hsizeNat => ?_
  refine .ok ⟨trivial, ?_⟩
  rintro bytes rfl
  refine put_ends memory hspan hlimits ?_ fun after hafter => ?_
  · rw [← hsizeNat]
    exact List.length_take_le ..
  · rw [← hsizeNat, Bytes.padRight_take_drop, hstart, hsizeNat] at hafter
    exact hafter

theorem afterCreation_writes {m : Machine} {touched : List Span} {write : Option Write}
    {before : Memory} (h : Changed touched write before m.memory) (rest : List Int)
    (raw : RawOutcome) {E : Stop → Prop} :
    Ends (afterCreation m rest raw) (fun next => Changed touched write before next.memory) E := by
  refine .ok ?_
  split <;> exact h

theorem afterCall_writes [Room] {m : Machine} {rest : List Int} {dest size : Int} (hdest : IsWord dest)
    (hsize : IsWord size) {limits : Prop} (hlimits : limits → Span.Fits ⟨dest, size⟩)
    (raw : RawOutcome) :
    Ends (afterCall m rest dest size raw)
      (fun next => Changed [⟨dest, size⟩]
        (some ⟨dest.toNat, Bytes.window raw.output.byteAt 0 size.toNat⟩) m.memory next.memory)
      (Stop.Excused limits) := by
  obtain ⟨size, rfl⟩ := Int.eq_ofNat_of_zero_le hsize.1
  have hpad := Bytes.padRight_slice raw.output 0 size
  have hlength := length_slice_le raw.output 0 size
  rw [Int.natCast_zero, Int.zero_add] at hpad hlength
  refine put_ends m.memory ⟨hdest.1, hsize.1⟩ hlimits hlength fun after hafter => ?_
  rwa [Int.toNat_natCast, hpad] at hafter

theorem Instruction.move_memory [Room] {frame : Frame} {m : Machine} (hwords : m.Words)
    (hsend : ∃ raw, frame.message.toRaw = .ok raw) (hgas : 0 ≤ m.gas ∧ m.gas ≤ frame.message.gas)
    (codeOf : Address → Bytes) (returned : Bytes) (i : Instruction) :
    Ends (i.move frame m)
      (Move.Writes codeOf returned (i.touched frame m.stack)
        (i.written frame codeOf returned m.stack) m.memory (i.WithinLimits frame m.stack))
      (Stop.Excused (i.WithinLimits frame m.stack)) := by
  obtain ⟨stack, memory, gas⟩ := m
  simp only [Machine.Words] at hwords
  simp only [Instruction.move]
  split
  all_goals try simp only [List.forall_mem_cons] at hwords
  all_goals try exact .error trivial
  -- what touches no memory
  all_goals try exact .ok (.refl memory)
  all_goals try exact .ok ⟨trivial, fun _ _ => .ok (.refl memory)⟩
  · obtain ⟨hdest, hoffset, hsize, -⟩ := hwords
    exact copyIn_writes hdest hoffset hsize (·.writes rfl) codeOf returned
  · obtain ⟨hdest, hoffset, hsize, -⟩ := hwords
    exact copyIn_writes hdest hoffset hsize (·.writes rfl) codeOf returned
  · -- code of another account
    obtain ⟨-, hdest, hoffset, hsize, -⟩ := hwords
    exact extCopyIn_writes hdest hoffset hsize (·.writes rfl) (·.native) codeOf returned _
  · -- the hash of a block
    exact (crashing_imp (int64_ends hwords.1.1) fun _ hlarge limits => hlarge limits.native).bind
      fun n _ => .ok ⟨trivial, fun _ _ => .ok (.refl memory)⟩
  · exact read_then memory ⟨hwords.1.1, isWord_size.1⟩ (excused_reads rfl) (.ok (.grown memory _))
  · -- a word put into memory
    rename_i offset value rest
    obtain ⟨hoffset, hvalue, -⟩ := hwords
    refine (crashing_imp (wordCheck_ends hvalue) fun _ => False.elim).bind fun _ _ => ?_
    have hsize : ((wordOf value).bytes.length : Int) = 32 :=
      congrArg Nat.cast (wordOf value).length_bytes
    have hwrite := memory.write_ends hoffset.1 (wordOf value).bytes
    rw [hsize] at hwrite
    exact (crashing_imp hwrite fun _ hfull limits => hfull (limits.writes rfl)).bind
      fun after hafter => .ok ⟨hafter.1, hafter.2⟩
  · split
    · exact .error trivial
    · split
      · exact .ok ⟨trivial, fun _ _ => .ok (.refl memory)⟩
      · exact .error trivial
  · split
    · exact .ok (.refl memory)
    · exact .error trivial
  · -- a log
    split
    · exact .error trivial
    · split
      · split
        · exact .error trivial
        · rename_i count hstatic _ offset size rest hcount
          simp only [List.forall_mem_cons] at hwords
          have hreads : reads frame (offset :: size :: rest) (.log count) = some ⟨offset, size⟩ :=
            if_neg (not_or.2 ⟨hstatic, hcount⟩)
          refine read_then memory ⟨hwords.1.1, hwords.2.1.1⟩ (excused_reads hreads) ?_
          refine .ok ⟨trivial, fun _ _ => .ok ?_⟩
          rw [touched, hreads]
          exact .grown memory _
      · exact .error trivial
  · obtain ⟨hvalue, hoffset, hsize, -⟩ := hwords
    exact create_then (m := ⟨_, memory, gas⟩) hsend hgas hvalue none ⟨hoffset.1, hsize.1⟩
      (excused_reads rfl) (fun _ hdeep limits => hdeep limits.native)
      fun raw _ => ⟨trivial, fun answer _ => afterCreation_writes (.grown memory _) _ answer⟩
  · obtain ⟨hvalue, hoffset, hsize, -⟩ := hwords
    exact create_then (m := ⟨_, memory, gas⟩) hsend hgas hvalue (some _) ⟨hoffset.1, hsize.1⟩
      (excused_reads rfl) (fun _ hdeep limits => hdeep limits.native)
      fun raw _ => ⟨trivial, fun answer _ => afterCreation_writes (.grown memory _) _ answer⟩
  · -- a call
    obtain ⟨hasked, -, hvalue, hoffset, hsize, hdest, hdestSize, -⟩ := hwords
    refine call_then (m := ⟨_, memory, gas⟩) hsend hasked hgas hvalue ⟨hoffset.1, hsize.1⟩
      (excused_reads rfl) (fun _ hdeep limits => hdeep limits.native) fun raw _ => ⟨trivial, ?_⟩
    rintro answer rfl
    exact (afterCall_writes hdest hdestSize (·.writes rfl) answer).imp (fun _ => .after_read)
      fun _ => id
  · exact read_then memory ⟨hwords.1.1, hwords.2.1.1⟩ (excused_reads rfl) (.error trivial)
  · exact read_then memory ⟨hwords.1.1, hwords.2.1.1⟩ (excused_reads rfl) (.error trivial)
  · split
    · exact .error trivial
    · split
      · exact .ok ⟨trivial, fun _ _ => .error trivial⟩
      · exact .error trivial

/-! ## Reading -/

/-- Bytes are what an instruction reads: it puts them on the stack, into a log or a nested message, or
gives them as the output. -/
def Instruction.Uses (bytes : Bytes) (i : Instruction) (result : Except Stop Move) : Prop :=
  match i, result with
  | .load, .ok (.go next) => next.stack.head? = some (Bytes.toNat bytes : Int)
  | .log _, .ok (.ask (.emitLog _ data _) _) => data = bytes
  | .create _, .ok (.ask (.call raw) _) => raw.input = bytes
  | .call, .ok (.ask (.call raw) _) => raw.input = bytes
  | .ret, .error (.halt status output) => status = .success ∧ output = bytes
  | .revert, .error (.halt status output) => status = .revert ∧ output = bytes
  | _, _ => False

/-- An instruction uses bytes, or else it fails because it exceeds the limits. -/
def Instruction.Gets (limits : Prop) (bytes : Bytes) (i : Instruction) (result : Except Stop Move) :
    Prop :=
  i.Uses bytes result ∨ (∃ fault, result = .error (.crash fault)) ∧ ¬ limits

theorem Instruction.move_gets [Room] {frame : Frame} {m : Machine} (hwords : m.Words)
    (hsend : ∃ raw, frame.message.toRaw = .ok raw) (hgas : 0 ≤ m.gas ∧ m.gas ≤ frame.message.gas)
    {i : Instruction} {span : Span} (h : i.reads frame m.stack = some span) :
    i.Gets (i.WithinLimits frame m.stack)
      (Bytes.window (Bytes.byteAt m.memory) span.offset.toNat span.size.toNat) (i.move frame m) := by
  obtain ⟨stack, memory, gas⟩ := m
  have hspan := names_sound hwords (.inl h)
  have hfails (bytes : Bytes) (fault : Fault) (hfull : ¬ span.Fits) :
      i.Gets (i.WithinLimits frame stack) bytes (.error (.crash fault)) :=
    .inr ⟨⟨fault, rfl⟩, fun limits => hfull (limits.reads h)⟩
  have hdeep (native : i.WithinLimits frame stack → frame.message.depth + 1 < twoTo 31) (bytes : Bytes)
      (fault : Fault) (hlevel : ¬ frame.message.depth + 1 < twoTo 31) :
      i.Gets (i.WithinLimits frame stack) bytes (.error (.crash fault)) :=
    .inr ⟨⟨fault, rfl⟩, fun limits => hlevel (native limits)⟩
  refine Ends.result (Q := i.Gets _ _) ?_
  simp only [Machine.Words] at hwords
  simp only [reads] at h
  split at h
  all_goals try split at h
  all_goals cases h
  all_goals try simp only [List.forall_mem_cons] at hwords
  all_goals simp only [Instruction.move]
  · exact read_then memory hspan (hfails _) (.ok (.inl rfl))
  · rename_i hallowed
    obtain ⟨hstatic, hcount⟩ := not_or.1 hallowed
    rw [if_neg hstatic, if_neg hcount]
    exact read_then memory hspan (hfails _) (.ok (.inl rfl))
  · exact create_then (m := ⟨_, memory, gas⟩) hsend hgas hwords.1 none hspan (hfails _)
      (hdeep (·.native) _) fun raw hraw => .inl hraw
  · exact create_then (m := ⟨_, memory, gas⟩) hsend hgas hwords.1 (some _) hspan (hfails _)
      (hdeep (·.native) _) fun raw hraw => .inl hraw
  · obtain ⟨hasked, -, hvalue, -⟩ := hwords
    exact call_then (m := ⟨_, memory, gas⟩) hsend hasked hgas hvalue hspan (hfails _)
      (hdeep (·.native) _) fun raw hraw => .inl hraw
  · exact read_then memory hspan (hfails _) (.error (.inl ⟨rfl, rfl⟩))
  · exact read_then memory hspan (hfails _) (.error (.inl ⟨rfl, rfl⟩))

/-! ## Whole code -/

section

variable {σ : Type}

/-- Whoever answers gives copies of codes as they are. -/
def Shows (answer : (q : Query) → σ → q.Answer × σ) (codeOf : σ → Address → Bytes) : Prop :=
  ∀ s a offset size, (answer (.copyCode a offset size) s).1 =
    ((codeOf s a).drop offset.toNat).take size.toNat

/-- What is returned to an instruction that asks for a call. -/
def Instruction.returned [Room] (frame : Frame) (answer : (q : Query) → σ → q.Answer × σ) (m : Machine)
    (s : σ) (i : Instruction) : Bytes :=
  match i.move frame m with
  | .ok (.ask (.call raw) _) => (answer (.call raw) s).1.output
  | _ => []

/-- What an instruction wrote when it was carried out. -/
def Executed.written [Room] (frame : Frame) (answer : (q : Query) → σ → q.Answer × σ)
    (codeOf : σ → Address → Bytes) (executed : Executed σ) : Option Write :=
  executed.instruction.written frame (codeOf executed.state)
    (executed.instruction.returned frame answer executed.machine executed.state) executed.machine.stack

variable {frame : Frame} {answer : (q : Query) → σ → q.Answer × σ} {codeOf : σ → Address → Bytes}

theorem Instruction.act_changes [Room] (hshows : Shows answer codeOf) {m : Machine} (hwords : m.Words)
    (hsend : ∃ raw, frame.message.toRaw = .ok raw) (hgas : 0 ≤ m.gas ∧ m.gas ≤ frame.message.gas)
    (i : Instruction) (s : σ) :
    Ends (i.act frame answer m s).1
      (fun next => Changed (i.touched frame m.stack)
        (i.written frame (codeOf s) (i.returned frame answer m s) m.stack) m.memory next.memory)
      (Stop.Excused (i.WithinLimits frame m.stack)) := by
  refine act_ends (i.move_memory hwords hsend hgas (codeOf s) (i.returned frame answer m s))
    fun q resume hmove _ => ?_
  cases q with
  | copyCode a offset size => exact hshows s a offset size
  | call raw =>
    show _ = i.returned frame answer m s
    rw [returned, hmove]
  | _ => trivial

theorem flat_filterMap_cons {α : Type} (write : α → Option Write) (a : α) (earlier : List α) :
    flat ((a :: earlier).filterMap write) =
      (write a).toList.foldr Write.over (flat (earlier.filterMap write)) := by
  rw [List.filterMap_cons]
  cases write a <;> rfl

variable {keeps : σ → Prop} {first s : σ} {past : List (Executed σ)} {ahead : List (Nat × Instruction)}
  {m : Machine}

/-- The gas that code has left when it has paid for an instruction is no more than it was given. -/
theorem Reached.paid_le [Room] (h : Reached frame answer first past ahead m s) :
    m.paid.gas ≤ frame.message.gas := by
  have hgas := h.gas
  show m.gas - 1 ≤ frame.message.gas
  omega

/-- Memory holds the bytes last written to it. -/
theorem Reached.memory [Room] (h : Reached frame answer first past ahead m s)
    (hinput : IsWord frame.message.input.length) (hanswer : Brings answer keeps)
    (hfirst : keeps first) (hsend : ∃ raw, frame.message.toRaw = .ok raw)
    (hshows : Shows answer codeOf) :
    Bytes.byteAt m.memory = flat (past.filterMap (·.written frame answer codeOf)) := by
  induction h with
  | start => rfl
  | @step past position i ahead m next s s' h hpaid hact ih =>
    have hwords : m.paid.Words := (h.words hinput hanswer hfirst).1
    have hnext := i.act_changes hshows hwords hsend ⟨hpaid, h.paid_le⟩ s
    rw [hact] at hnext
    funext p
    rw [flat_filterMap_cons, ← ih]
    exact (hnext.gives next rfl).bytes p

end

end ContractHost.Interpreter
