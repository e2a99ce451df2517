import ContractHost.Proofs.Execution.Words
import ContractHost.Proofs.Interpreter.Buffers

/-!
# The machine of a frame

Whatever code a call or run executes, in whichever of its frames, the interpreter handles words only, if
the hosts bring in nothing else. So it never meets a number that it cannot convert, an offset before the
start of a buffer or a negative size, and it fails only where it asks for more memory than there is or
where the native side cannot hold a number. Elsewhere its memory is an endless string of zeros with the
bytes that were written: how far it has grown cannot be told.

* `World.Worded.stack_words`: the stack and the instruction that comes next, at each point of each frame.
* `World.Worded.memory_flat`: the memory there, and what the next instruction reads and changes.
-/

namespace ContractHost

open Interpreter

/-- A word is the number that its conversions stand for. -/
structure Interpreter.Converts (item : Int) : Prop where
  word : ((wordOf item).toNat : Int) = item
  address : ((addressOf item).toNat : Int) = item % twoTo 160
  value : FixedBytes.ofInt item = .ok (wordOf item).asUint256

theorem Interpreter.IsWord.converts {item : Int} (h : IsWord item) : Converts item :=
  ⟨h.toNat_wordOf, h.toNat_addressOf, h.ofInt_eq⟩

/-- In a world whose hosts bring in words, where the block's number is not negative and no code is larger
than a word can tell, at each point of each frame of a call or run: all items on the stack are words, and
convert without fail to what they stand for; they are no more than the instructions that were carried
out; and those stand in the code one after the other, before all that are still ahead. The next
instruction, if it can be paid, names no part of a buffer with a negative offset or size, and fails only
if it exceeds the limits of memory or of the native side. -/
theorem World.Worded.stack_words [Room] {w : World} (worded : w.Worded) {message : Message}
    (input : IsWord message.input.length) {frame : Launch} (played : w.Plays message frame)
    {handle : Handle} {past : List (Executed Session)} {ahead : List (Nat × Instruction)} {m : Machine}
    {s : Session} (reached : frame.Reaches handle past ahead m s) :
    (∀ item ∈ m.stack, IsWord item ∧ Converts item) ∧ m.stack.length ≤ past.length ∧
      ((past.map (·.position)).reverse ++ ahead.map Prod.fst).Pairwise (· < ·) ∧
      ∀ position i rest, ahead = (position, i) :: rest → 0 ≤ m.paid.gas →
        (∀ span, i.Names frame.guest m.stack span → 0 ≤ span.offset ∧ 0 ≤ span.size) ∧
          ∀ fault s', i.act frame.guest (serve Host.methods handle) m.paid s =
            (.error (.crash fault), s') → ¬ i.WithinLimits frame.guest m.stack := by
  have hframe := worded.plays input played
  obtain ⟨session, hopening, hreached⟩ := reached
  obtain ⟨hsession, hsend⟩ := hframe.opening hopening
  obtain ⟨hwords, hs⟩ := hreached.words hframe.input (Host.serve_words handle) hsession
  refine ⟨fun item hitem => ⟨hwords item hitem, (hwords item hitem).converts⟩, hreached.height,
    hreached.positions, ?_⟩
  rintro position i rest rfl hpaid
  refine ⟨fun span hspan => Instruction.names_sound hwords hspan, fun fault s' hact => ?_⟩
  have hchanges := i.act_changes (Host.serve_shows handle) (m := m.paid) hwords hsend
    ⟨hpaid, hreached.paid_le⟩ s
  rw [hact] at hchanges
  exact hchanges.fails _ rfl

section

attribute [local instance] Room.usual

/-- Two numbers and an offset were pushed and the numbers added, so the sum can be put into memory. -/
theorem World.Worded.stack_words_adding :
    let message : Message := { gas := 9, destination := .ofNat 1 }
    let frame : Launch := ⟨[0x60, 5, 0x60, 3, 0x01, 0x60, 0, 0x52], message, .calling []⟩
    ∃ handle past m s, frame.Reaches handle past [(7, .store)] m s ∧ m.stack = [0, 8] ∧
      (∀ item ∈ m.stack, IsWord item ∧ Converts item) ∧ m.stack.length ≤ past.length ∧
      ∀ fault s', Instruction.store.act frame.guest (serve Host.methods handle) m.paid s ≠
        (.error (.crash fault), s') := by
  intro message frame
  have hopens : frame.opening.isSome = true := by decide +kernel
  obtain ⟨⟨handle, session⟩, hopening⟩ := Option.isSome_iff_exists.1 hopens
  have hreached : frame.Reaches handle _ [(7, .store)] _ _ :=
    ⟨session, hopening, .step (.step (.step (.step .start (by decide) rfl) (by decide) rfl)
      (by decide) rfl) (by decide) rfl⟩
  have hworded : (World.calling []).Worded := World.calling_worded isWord_zero
  have hinput : IsWord message.input.length := isWord_zero
  obtain ⟨hitems, hheight, -, hnext⟩ := hworded.stack_words hinput (.ran _ .refl) hreached
  refine ⟨handle, _, _, _, hreached, rfl, hitems, hheight, fun fault s' hcrash => ?_⟩
  refine (hnext 7 .store [] rfl (by decide)).2 fault s' hcrash ⟨fun span hspan => .inr ?_, trivial⟩
  cases List.mem_singleton.1 hspan
  decide

end

/-- In a world whose hosts bring in words, at each point of each frame of a call or run, memory holds at
each position the byte last written there, and zero where nothing was written; so many bytes of call
data, of a code or of what a call returned are written as an instruction asks for, and those behind the
end of their source are zero. The next instruction, if it can be paid, reads what memory holds, be its
part of memory within what has grown so far or not, unless it exceeds the limits of memory or of the
native side. Memory then grows to hold what it reads and writes, where that has a size, and no further;
no byte changes but those that are written, and memory is as it was if nothing has a size. -/
theorem World.Worded.memory_flat [Room] {w : World} (worded : w.Worded) {message : Message}
    (input : IsWord message.input.length) {frame : Launch} (played : w.Plays message frame)
    {handle : Handle} {past : List (Executed Session)} {ahead : List (Nat × Instruction)} {m : Machine}
    {s : Session} (reached : frame.Reaches handle past ahead m s) :
    let answer := serve Host.methods handle
    let codeOf := Session.codeAt handle
    let memory := flat (past.filterMap (·.written frame.guest answer codeOf))
    (∀ p, Bytes.byteAt m.memory p = memory p) ∧
      ∀ position i rest, ahead = (position, i) :: rest → 0 ≤ m.paid.gas →
        let limits := i.WithinLimits frame.guest m.stack
        let write := Executed.written frame.guest answer codeOf ⟨position, i, m.paid, s⟩
        (∀ span, i.reads frame.guest m.stack = some span →
          i.Gets limits (Bytes.window memory span.offset.toNat span.size.toNat)
            (i.move frame.guest m.paid)) ∧
        ∀ next s', i.act frame.guest answer m.paid s = (.ok next, s') →
          (∀ n : Nat, next.memory.length ≤ n ↔ m.memory.length ≤ n ∧
            ∀ span ∈ i.touched frame.guest m.stack, span.size ≠ 0 → span.offset + span.size ≤ n) ∧
          (∀ p, (∀ put, write = some put → ¬ put.Covers p) →
            Bytes.byteAt next.memory p = Bytes.byteAt m.memory p) ∧
          ((∀ span ∈ i.touched frame.guest m.stack, span.size = 0) → next.memory = m.memory) := by
  intro answer codeOf memory
  have hframe := worded.plays input played
  obtain ⟨session, hopening, hreached⟩ := reached
  obtain ⟨hsession, hsend⟩ := hframe.opening hopening
  obtain ⟨hwords, hs⟩ := hreached.words hframe.input (Host.serve_words handle) hsession
  have hmemory : Bytes.byteAt m.memory = memory :=
    hreached.memory hframe.input (Host.serve_words handle) hsession hsend (Host.serve_shows handle)
  refine ⟨fun p => congrFun hmemory p, ?_⟩
  rintro position i rest rfl hpaid limits write
  have hpaidWords : m.paid.Words := hwords
  refine ⟨fun span hspan => ?_, fun next s' hact => ?_⟩
  · rw [← hmemory]
    exact Instruction.move_gets hpaidWords hsend ⟨hpaid, hreached.paid_le⟩ hspan
  · have hends := i.act_changes (Host.serve_shows handle) hpaidWords hsend ⟨hpaid, hreached.paid_le⟩ s
    rw [hact] at hends
    have hchanged := hends.gives next rfl
    refine ⟨hchanged.length_le_iff, fun p => hchanged.outside, fun hempty => ?_⟩
    refine hchanged.eq_of_empty hempty fun put hput => ?_
    obtain ⟨span, hspan, -, hsize⟩ := Instruction.exists_writes hput
    rw [hsize, hempty span (List.mem_append_right _ (Option.mem_toList.2 hspan))]
    rfl

section

attribute [local instance] Room.usual

/-- A number was put into memory. Its last byte is returned and one more, for which memory grows. -/
theorem World.Worded.memory_flat_returning :
    let message : Message := { gas := 9, destination := .ofNat 1 }
    let code : Bytes := [0x60, 0x2a, 0x60, 0, 0x52, 0x60, 2, 0x60, 31, 0xf3]
    let frame : Launch := ⟨code, message, .calling []⟩
    ∃ handle past m s, frame.Reaches handle past [(9, .ret)] m s ∧
      m.memory.length = 32 ∧ Bytes.byteAt m.memory 31 = 0x2a ∧ Bytes.byteAt m.memory 32 = 0 ∧
      Instruction.ret.Uses [0x2a, 0] (Instruction.ret.move frame.guest m.paid) := by
  intro message code frame
  have hopens : frame.opening.isSome = true := by decide +kernel
  obtain ⟨⟨handle, session⟩, hopening⟩ := Option.isSome_iff_exists.1 hopens
  have hreached : frame.Reaches handle _ [(9, .ret)] _ _ :=
    ⟨session, hopening, .step (.step (.step (.step (.step .start (by decide) rfl) (by decide) rfl)
      (by decide) rfl) (by decide) rfl) (by decide) rfl⟩
  have hworded : (World.calling []).Worded := World.calling_worded isWord_zero
  have hinput : IsWord message.input.length := isWord_zero
  obtain ⟨hbytes, hnext⟩ := hworded.memory_flat hinput (.ran _ .refl) hreached
  refine ⟨handle, _, _, _, hreached, rfl, (hbytes 31).trans rfl, (hbytes 32).trans rfl, ?_⟩
  obtain ⟨hreads, -⟩ := hnext 9 .ret [] rfl (by decide)
  refine (hreads ⟨31, 2⟩ rfl).resolve_right fun hfails => hfails.2 ⟨fun span hspan => .inr ?_, trivial⟩
  cases List.mem_singleton.1 hspan
  decide

end

end ContractHost
