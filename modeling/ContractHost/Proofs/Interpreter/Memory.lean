import ContractHost.Interpreter.Memory
import ContractHost.Proofs.Bytes
import ContractHost.Proofs.Yields

/-!
# Memory as an endless string

Memory grows when it is read or written, but what is read does not depend on how far it has grown: it is
the byte last written to each position, and zero where nothing was written. So memory stands for an
endless string of zeros over which each write puts its bytes. What has no size touches nothing, wherever
it lies, and needs no room.

* `Write.over`, `flat`: the endless string that writes leave.
* `Memory.grow`: memory after a part of it was touched.
* `Memory.read_ends`, `Memory.write_ends`: reading and writing, and when there is no room.
-/

namespace ContractHost

/-! ## Writes over an endless string -/

/-- Bytes put at a position. -/
structure Write where
  offset : Nat
  bytes : Bytes

/-- A write reaches a position. -/
def Write.Covers (write : Write) (position : Nat) : Prop :=
  write.offset ≤ position ∧ position < write.offset + write.bytes.length

instance (write : Write) (position : Nat) : Decidable (write.Covers position) :=
  inferInstanceAs (Decidable (_ ∧ _))

/-- An endless string with bytes put over it. -/
def Write.over (write : Write) (source : Nat → UInt8) (position : Nat) : UInt8 :=
  if write.Covers position then write.bytes.byteAt (position - write.offset) else source position

theorem Write.over_of_covers {write : Write} {position : Nat} (h : write.Covers position)
    (source : Nat → UInt8) :
    write.over source position = write.bytes.byteAt (position - write.offset) :=
  if_pos h

theorem Write.over_of_not_covers {write : Write} {position : Nat} (h : ¬ write.Covers position)
    (source : Nat → UInt8) : write.over source position = source position :=
  if_neg h

/-- The endless string that writes leave, the newest of them in front. It is zero at first. -/
def flat (writes : List Write) : Nat → UInt8 := writes.foldr Write.over fun _ => 0

/-! ## Room -/

/-- A part of a string of bytes. -/
structure Span where
  offset : Int
  size : Int

/-- A part that begins at a position and has a number of bytes. -/
def Span.Sound (span : Span) : Prop := 0 ≤ span.offset ∧ 0 ≤ span.size

/-- There is room for a part of memory. -/
def Span.Fits [Room] (span : Span) : Prop := span.size = 0 ∨ span.offset + span.size ≤ Room.limit

theorem Span.Sound.not_fits [Room] {span : Span} (h : span.Sound) (hlarge : Room.limit < span.size) :
    ¬ span.Fits := by
  have hlimit := Room.limit_pos
  rintro (hempty | hroom)
  · omega
  · have hoffset := h.1
    omega

theorem checkRoom_ends [Room] (size : Int) :
    Ends (checkRoom size) (fun _ => True) fun _ => Room.limit < size := by
  have hlimit := Room.limit_lt
  unfold checkRoom
  split
  · exact .error (by omega)
  · split
    · exact .error ‹_›
    · exact .ok trivial

theorem zeroBytes_ends [Room] (size : Int) :
    Ends (zeroBytes size) (· = List.replicate size.toNat 0) fun _ => Room.limit < size :=
  (checkRoom_ends size).bind fun _ _ => .ok rfl

theorem padTo_ends [Room] (size : Int) (bytes : Bytes) :
    Ends (padTo size bytes) (· = Bytes.padRight size.toNat bytes) fun _ => Room.limit < size :=
  (checkRoom_ends size).bind fun _ _ => .ok rfl

namespace Memory

/-! ## Growing -/

/-- Memory after a part of it was touched. -/
def grow (memory : Memory) (span : Span) : Memory :=
  if span.size = 0 then memory else Bytes.padRight (span.offset + span.size).toNat memory

theorem byteAt_grow (memory : Memory) (span : Span) (position : Nat) :
    Bytes.byteAt (memory.grow span) position = Bytes.byteAt memory position := by
  unfold grow
  split
  · rfl
  · exact Bytes.byteAt_append_zeros ..

/-- Memory grows as far as it must and no further. -/
theorem length_grow_le_iff (memory : Memory) (span : Span) (n : Nat) :
    (memory.grow span).length ≤ n ↔
      memory.length ≤ n ∧ (span.size ≠ 0 → span.offset + span.size ≤ n) := by
  unfold grow
  split
  · rename_i hempty
    exact ⟨fun h => ⟨h, fun hsome => absurd hempty hsome⟩, And.left⟩
  · rename_i hsome
    rw [Bytes.length_padRight, Nat.max_le, Int.toNat_le]
    exact and_congr_right fun _ => ⟨fun h _ => h, fun h => h hsome⟩

/-- A part that was touched lies within memory. -/
theorem size_le_grow (memory : Memory) (offset size : Nat) :
    size ≤ (memory.grow ⟨offset, size⟩).length - offset := by
  by_cases hempty : size = 0
  · omega
  · have hsize : (size : Int) ≠ 0 := by omega
    rw [grow, if_neg hsize, Bytes.length_padRight]
    show size ≤ max memory.length ((offset : Int) + size).toNat - offset
    omega

theorem touch_ends [Room] (memory : Memory) (span : Span) :
    Ends (memory.touch span.offset span.size) (· = memory.grow span) fun _ => ¬ span.Fits := by
  unfold touch grow Span.Fits
  split
  · rename_i htouch
    have hcount : (span.offset + span.size - memory.length).toNat =
        (span.offset + span.size).toNat - memory.length := by omega
    have hzeros := zeroBytes_ends (span.offset + span.size - memory.length)
    refine (hzeros.imp (fun _ => id) fun _ hlarge => ?_).bind fun zeros hzeros => .ok ?_
    · omega
    · rw [hzeros, hcount, if_neg htouch.1, Bytes.padRight]
  · rename_i htouch
    refine .ok ?_
    split
    · rfl
    · have hcount : (span.offset + span.size).toNat - memory.length = 0 := by omega
      rw [Bytes.padRight, hcount, List.replicate_zero, List.append_nil]

/-! ## Reading and writing -/

/-- What is read are the bytes of the endless string. -/
theorem read_ends [Room] (memory : Memory) {span : Span} (h : span.Sound) :
    Ends (memory.read span.offset span.size)
      (· = (Bytes.window (Bytes.byteAt memory) span.offset.toNat span.size.toNat, memory.grow span))
      fun _ => ¬ span.Fits := by
  refine (touch_ends memory span).bind fun grown hgrown => .ok ?_
  subst hgrown
  obtain ⟨offset, size⟩ := span
  obtain ⟨offset, rfl⟩ := Int.eq_ofNat_of_zero_le h.1
  obtain ⟨size, rfl⟩ := Int.eq_ofNat_of_zero_le h.2
  have hread := Bytes.slice_eq_window (size_le_grow memory offset size)
  rw [funext (byteAt_grow memory _)] at hread
  exact congrArg (·, memory.grow ⟨offset, size⟩) hread

/-- Bytes are put into memory that is large enough, where they replace as many. -/
theorem byteAt_splice {memory : Memory} {offset : Nat} {bytes : Bytes}
    (h : bytes.length ≤ memory.length - offset) :
    (splice memory offset ((offset : Int) + bytes.length) bytes).length = memory.length ∧
      ∀ position, Bytes.byteAt (splice memory offset ((offset : Int) + bytes.length) bytes) position =
        Write.over ⟨offset, bytes⟩ (Bytes.byteAt memory) position := by
  rw [← Int.natCast_add, splice_natCast memory bytes (Nat.le_add_right ..)]
  by_cases hempty : bytes = []
  · subst hempty
    rw [List.append_nil, List.length_nil, Nat.add_zero, List.take_append_drop]
    refine ⟨rfl, fun position => (Write.over_of_not_covers ?_ _).symm⟩
    rintro ⟨hfrom, hto⟩
    exact Nat.lt_irrefl _ (Nat.lt_of_lt_of_le hto hfrom)
  · have hsome := List.length_pos_iff.2 hempty
    have hroom : offset + bytes.length ≤ memory.length := by omega
    have hfirst : (memory.take offset).length = offset := List.length_take_of_le (by omega)
    have hfront : (memory.take offset ++ bytes).length = offset + bytes.length := by
      rw [List.length_append, hfirst]
    refine ⟨?_, fun position => ?_⟩
    · rw [List.length_append, hfront, List.length_drop]
      omega
    · by_cases hcovers : Write.Covers ⟨offset, bytes⟩ position
      · have hfrom : offset ≤ position := hcovers.1
        have hto : position < offset + bytes.length := hcovers.2
        rw [Write.over_of_covers hcovers, Bytes.byteAt_append_left (by omega),
          Bytes.byteAt_append_right (by omega), hfirst]
      · rw [Write.over_of_not_covers hcovers]
        rcases Nat.lt_or_ge position offset with hbefore | hafter
        · rw [Bytes.byteAt_append_left (by omega), Bytes.byteAt_append_left (by omega),
            Bytes.byteAt_take hbefore]
        · have hbehind : offset + bytes.length ≤ position :=
            Nat.le_of_not_lt fun hto => hcovers ⟨hafter, hto⟩
          rw [Bytes.byteAt_append_right (by omega), Bytes.byteAt_drop, hfront,
            Nat.add_sub_cancel' hbehind]

/-- A write puts its bytes over the endless string. -/
theorem write_ends [Room] (memory : Memory) {offset : Int} (hoffset : 0 ≤ offset) (bytes : Bytes) :
    Ends (memory.write offset bytes)
      (fun after => after.length = (memory.grow ⟨offset, bytes.length⟩).length ∧
        ∀ position, Bytes.byteAt after position =
          Write.over ⟨offset.toNat, bytes⟩ (Bytes.byteAt memory) position)
      fun _ => ¬ Span.Fits ⟨offset, bytes.length⟩ := by
  refine (touch_ends memory ⟨offset, bytes.length⟩).bind fun grown hgrown => .ok ?_
  subst hgrown
  obtain ⟨offset, rfl⟩ := Int.eq_ofNat_of_zero_le hoffset
  obtain ⟨hlength, hbytes⟩ := byteAt_splice (size_le_grow memory offset bytes.length)
  rw [funext (byteAt_grow memory _)] at hbytes
  exact ⟨hlength, hbytes⟩

end Memory

end ContractHost
