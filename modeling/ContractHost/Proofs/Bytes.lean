import ContractHost.Bytes.BigEndian
import ContractHost.Bytes.Slice
import Mathlib.Data.List.GetD
import Mathlib.Data.List.Induction

/-!
# Strings of bytes, byte by byte

A string of bytes spells a number below a power of 256, from which it is written back. It can also be
read as an endless string, with zeros behind its last byte; a slice of it that is filled up with zeros is
then a window on the endless string, wherever the slice ends.

* `Bytes.toNat_lt`, `Bytes.ofNat_toNat`: the number that bytes spell.
* `Bytes.byteAt`: one byte of the endless string.
* `Bytes.window`: so many bytes of it, `Bytes.padRight_slice` for what they are good for.
-/

namespace ContractHost

theorem twoTo_le {m n : Nat} (h : m ≤ n) : twoTo m ≤ twoTo n := Nat.pow_le_pow_right (by decide) h

theorem slice_eq_take {α : Type} (items : List α) (offset size : Nat) :
    slice items offset ((offset : Int) + size) = (items.drop offset).take size := by
  rw [← Int.natCast_add, slice_natCast, List.drop_take, Nat.add_sub_cancel_left]

theorem length_slice_le {α : Type} (items : List α) (offset size : Nat) :
    (slice items offset ((offset : Int) + size)).length ≤ size := by
  rw [slice_eq_take]
  exact List.length_take_le ..

theorem splice_natCast {α : Type} (items new : List α) {start stop : Nat} (h : start ≤ stop) :
    splice items start stop new = items.take start ++ new ++ items.drop stop := by
  have htake : items.take (min start items.length) = items.take start := List.take_eq_take_min.symm
  have hdrop : items.drop (max (min start items.length) (min stop items.length)) =
      items.drop stop := by
    rcases Nat.le_total stop items.length with hin | hout
    · rw [Nat.min_eq_left hin, Nat.max_eq_right (Nat.le_trans (Nat.min_le_left ..) h)]
    · rw [List.drop_eq_nil_of_le hout, List.drop_eq_nil_of_le (by omega)]
  simp only [splice, signedPosition_natCast, htake, hdrop]

namespace Bytes

/-! ## The number that bytes spell -/

theorem toNat_lt (bytes : Bytes) : toNat bytes < twoTo (8 * bytes.length) := by
  induction bytes using List.reverseRecOn with
  | nil => exact Nat.one_pos
  | append_singleton bytes byte ih =>
    have hpow : twoTo (8 * (bytes.length + 1)) = 256 * twoTo (8 * bytes.length) := by
      rw [Nat.mul_succ, twoTo_add, Nat.mul_comm]
    have hbyte := byte.toNat_lt
    rw [toNat_append_singleton, List.length_append, List.length_singleton, hpow]
    omega

/-- Bytes are written back from the number that they spell. -/
theorem ofNat_toNat (bytes : Bytes) : ofNat bytes.length (toNat bytes) = bytes := by
  induction bytes using List.reverseRecOn with
  | nil => rfl
  | append_singleton bytes byte ih =>
    have hbyte := byte.toNat_lt
    have hrest : (toNat bytes * 256 + byte.toNat) / 256 = toNat bytes := by omega
    have hlast : UInt8.ofNat (toNat bytes * 256 + byte.toNat) = byte := by
      rw [← UInt8.toNat_inj, UInt8.toNat_ofNat']
      omega
    rw [toNat_append_singleton, List.length_append, List.length_singleton, ofNat, hrest, hlast, ih]

theorem toNat_zeros (count : Nat) (bytes : Bytes) :
    toNat (List.replicate count 0 ++ bytes) = toNat bytes := by
  induction count with
  | zero => rfl
  | succ count ih => exact ih

theorem length_padRight (size : Nat) (bytes : Bytes) :
    (padRight size bytes).length = max bytes.length size := by
  rw [padRight, List.length_append, List.length_replicate]
  omega

/-! ## Endless strings -/

/-- The byte at a position, zero behind the end. -/
def byteAt (bytes : Bytes) (position : Nat) : UInt8 := bytes.getD position 0

/-- So many bytes of an endless string from a position on. -/
def window (source : Nat → UInt8) (offset size : Nat) : Bytes :=
  (List.range' offset size).map source

theorem byteAt_of_length_le {bytes : Bytes} {position : Nat} (h : bytes.length ≤ position) :
    bytes.byteAt position = 0 :=
  List.getD_eq_default _ _ h

theorem byteAt_append_left {first : Bytes} {position : Nat} (h : position < first.length)
    (second : Bytes) : byteAt (first ++ second) position = first.byteAt position :=
  List.getD_append _ _ _ _ h

theorem byteAt_append_right {first : Bytes} {position : Nat} (h : first.length ≤ position)
    (second : Bytes) :
    byteAt (first ++ second) position = second.byteAt (position - first.length) :=
  List.getD_append_right _ _ _ _ h

/-- Zeros behind the end change no byte. -/
theorem byteAt_append_zeros (bytes : Bytes) (count position : Nat) :
    byteAt (bytes ++ List.replicate count 0) position = bytes.byteAt position := by
  rcases Nat.lt_or_ge position bytes.length with hin | hout
  · exact byteAt_append_left hin _
  · rw [byteAt_append_right hout, byteAt_of_length_le hout]
    exact List.getElem?_getD_replicate_default_eq ..

theorem byteAt_take {bytes : Bytes} {count position : Nat} (h : position < count) :
    byteAt (bytes.take count) position = bytes.byteAt position := by
  simp only [byteAt, List.getD_eq_getElem?_getD, List.getElem?_take_of_lt h]

theorem byteAt_drop (bytes : Bytes) (count position : Nat) :
    byteAt (bytes.drop count) position = bytes.byteAt (count + position) := by
  simp only [byteAt, List.getD_eq_getElem?_getD, List.getElem?_drop]

/-- Strings of one length are told apart by a byte. -/
theorem ext_byteAt {first second : Bytes} (hlength : first.length = second.length)
    (h : ∀ position < first.length, first.byteAt position = second.byteAt position) :
    first = second := by
  refine List.ext_getElem hlength fun position hfirst hsecond => ?_
  have hbyte := h position hfirst
  rwa [byteAt, byteAt, List.getD_eq_getElem _ _ hfirst, List.getD_eq_getElem _ _ hsecond] at hbyte

theorem length_window (source : Nat → UInt8) (offset size : Nat) :
    (window source offset size).length = size := by
  rw [window, List.length_map, List.length_range']

theorem byteAt_window {source : Nat → UInt8} {offset size position : Nat} (h : position < size) :
    (window source offset size).byteAt position = source (offset + position) := by
  have hlength : position < (window source offset size).length := by rwa [length_window]
  rw [byteAt, List.getD_eq_getElem _ _ hlength]
  simp [window]

/-- A part of a string filled up with zeros is a window on the endless string. -/
theorem padRight_take_drop (bytes : Bytes) (offset size : Nat) :
    padRight size ((bytes.drop offset).take size) = window bytes.byteAt offset size := by
  refine ext_byteAt ?_ fun position hposition => ?_
  · rw [length_padRight, length_window, List.length_take]
    omega
  · rw [length_padRight, List.length_take] at hposition
    have hsize : position < size := by omega
    rw [byteAt_window hsize, padRight, byteAt_append_zeros, byteAt_take hsize, byteAt_drop]

theorem padRight_slice (bytes : Bytes) (offset size : Nat) :
    padRight size (slice bytes offset ((offset : Int) + size)) = window bytes.byteAt offset size := by
  rw [slice_eq_take, padRight_take_drop]

/-- A slice that ends within the string, or has no size, needs no zeros. -/
theorem slice_eq_window {bytes : Bytes} {offset size : Nat} (h : size ≤ bytes.length - offset) :
    slice bytes offset ((offset : Int) + size) = window bytes.byteAt offset size := by
  have hlength : ((bytes.drop offset).take size).length = size := by
    rw [List.length_take, List.length_drop]
    exact Nat.min_eq_left h
  rw [← padRight_slice, slice_eq_take, padRight, hlength, Nat.sub_self, List.replicate_zero,
    List.append_nil]

end Bytes

end ContractHost
