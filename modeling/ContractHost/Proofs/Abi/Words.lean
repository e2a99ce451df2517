import ContractHost.Abi.Decoding
import ContractHost.Abi.Encoding
import ContractHost.Proofs.Bytes
import ContractHost.Proofs.Execution.Steps

/-!
# Reading what stands in data

What was written on words is read back where it stands, whatever stands before and behind it.

* `Holds`: bytes stand at a position of some data.
* `unsignedAt_intWord`, `signedAt_intWord`, `fixedBytesAt_padRight`, `addressAt_padded`, `boolAt_word`:
  values in one word.
* `bytesAt_counted`: bytes behind their number.
-/

namespace ContractHost.Abi

/-- Bytes stand at a position of some data. -/
def Holds (data : Bytes) (position : Nat) (bytes : Bytes) : Prop := bytes <+: data.drop position

namespace Holds

variable {data first second : Bytes} {position : Nat}

theorem self (data : Bytes) : Holds data 0 data := List.prefix_refl _

theorem left (h : Holds data position (first ++ second)) : Holds data position first :=
  (List.prefix_append first second).trans h

theorem right (h : Holds data position (first ++ second)) :
    Holds data (position + first.length) second := by
  obtain ⟨rest, hrest⟩ := h
  refine ⟨rest, ?_⟩
  rw [← List.drop_drop, ← hrest, List.append_assoc, List.drop_left]

theorem take (h : Holds data position first) : (data.drop position).take first.length = first := by
  obtain ⟨rest, hrest⟩ := h
  rw [← hrest, List.take_left]

theorem length_le (h : Holds data position first) : first.length ≤ data.length - position := by
  rw [← List.length_drop]
  exact List.IsPrefix.length_le h

/-- Bytes that are there end within the data. -/
theorem end_le (h : Holds data position first) (hsome : 0 < first.length) :
    position + first.length ≤ data.length := by
  have hle := h.length_le
  omega

end Holds

@[simp]
theorem length_numberWord (n : Nat) : (numberWord n).length = 32 := Bytes.length_ofNat ..

@[simp]
theorem length_intWord (n : Int) : (intWord n).length = 32 := length_numberWord _

/-- Bytes are filled up in two steps as in one. -/
theorem padRight_eq_append {small large : Nat} (h : small ≤ large) {bytes : Bytes}
    (hbytes : bytes.length ≤ small) :
    Bytes.padRight large bytes = Bytes.padRight small bytes ++ List.replicate (large - small) 0 := by
  unfold Bytes.padRight
  rw [List.append_assoc, List.replicate_append_replicate]
  congr 2
  omega

theorem padRight_padRight {small large : Nat} (h : small ≤ large) {bytes : Bytes}
    (hbytes : bytes.length ≤ small) :
    Bytes.padRight large (Bytes.padRight small bytes) = Bytes.padRight large bytes := by
  have hlength := Bytes.length_padRight small bytes
  rw [Nat.max_eq_right hbytes] at hlength
  rw [padRight_eq_append h hbytes, Bytes.padRight, hlength]

section

variable {data : Bytes} {position : Nat}

theorem wordAt_of_holds {word : Bytes} (hword : word.length = 32) (h : Holds data position word) :
    wordAt data position = .ok word := by
  have htake := h.take
  rw [hword] at htake
  simp only [wordAt, htake, if_pos hword]

theorem numberAt_numberWord {n : Nat} (hn : n < twoTo 256) (h : Holds data position (numberWord n)) :
    numberAt data position = .ok n := by
  unfold numberAt
  rw [wordAt_of_holds (length_numberWord n) h]
  have hread : Bytes.toNat (numberWord n) = n := by
    rw [numberWord, Bytes.toNat_ofNat]
    exact Nat.mod_eq_of_lt hn
  exact congrArg Except.ok hread

theorem numberAt_intWord {n : Int} (h : Holds data position (intWord n)) :
    numberAt data position = .ok (n % twoTo 256).toNat := by
  have hpos : (0 : Int) < twoTo 256 := by decide
  have hnonneg := Int.emod_nonneg n (Int.ne_of_gt hpos)
  have hless := Int.emod_lt_of_pos n hpos
  exact numberAt_numberWord (by omega) h

/-! ## Values in one word -/

theorem unsignedAt_intWord {bits : Nat} (hbits : bits ≤ 256) {n : Int}
    (hn : fitsUnsigned bits n = true) (h : Holds data position (intWord n)) :
    ∃ m : Nat, unsignedAt data bits position = .ok m ∧ (m : Int) = n := by
  have hle := twoTo_le hbits
  obtain ⟨hnonneg, hless⟩ : 0 ≤ n ∧ n < twoTo bits := by simpa [fitsUnsigned] using hn
  have hmod : n % twoTo 256 = n := Int.emod_eq_of_lt hnonneg (by omega)
  have hnumber := numberAt_intWord h
  rw [hmod] at hnumber
  refine ⟨n.toNat, ?_, Int.toNat_of_nonneg hnonneg⟩
  have hfits : n.toNat < twoTo bits := by omega
  unfold unsignedAt
  rw [hnumber]
  exact if_pos hfits

/-- A number read as two's complement is the integer that was written. -/
theorem signed_emod {bits : Nat} (hbits : 1 ≤ bits) {n : Int} (hn : fitsSigned bits n = true) :
    signed bits (n % twoTo bits).toNat = n := by
  obtain ⟨hlow, hhigh⟩ : -twoTo (bits - 1) ≤ n ∧ n < twoTo (bits - 1) := by
    simpa [fitsSigned] using hn
  have hhalf : twoTo bits = twoTo (bits - 1) * 2 := by
    rw [← twoTo_succ, Nat.sub_add_cancel hbits]
  have hpos := twoTo_pos (bits - 1)
  unfold signed
  by_cases hneg : n < 0
  · have hmod : n % twoTo bits = n + twoTo bits := by
      rw [← Int.add_emod_right]
      exact Int.emod_eq_of_lt (by omega) (by omega)
    rw [hmod, if_neg (by omega)]
    omega
  · have hmod : n % twoTo bits = n := Int.emod_eq_of_lt (by omega) (by omega)
    rw [hmod, if_pos (by omega)]
    omega

theorem signedAt_intWord {bits : Nat} (hbits : 1 ≤ bits ∧ bits ≤ 256) {n : Int}
    (hn : fitsSigned bits n = true) (h : Holds data position (intWord n)) :
    signedAt data bits position = .ok n := by
  have hhalf : twoTo (bits - 1) ≤ twoTo (256 - 1) := twoTo_le (by omega)
  have hwide : fitsSigned 256 n = true := by
    simp only [fitsSigned, Bool.and_eq_true, decide_eq_true_eq] at hn ⊢
    omega
  have hnarrow : (n % twoTo 256).toNat % twoTo bits = (n % twoTo bits).toNat := by
    have hpos : (0 : Int) < twoTo 256 := by decide
    have hpos' : (0 : Int) < twoTo bits := Int.natCast_pos.2 (twoTo_pos bits)
    have hdvd : ((twoTo bits : Nat) : Int) ∣ (twoTo 256 : Nat) :=
      Int.natCast_dvd_natCast.2 (Nat.pow_dvd_pow 2 hbits.2)
    rw [← Int.emod_emod_of_dvd n hdvd]
    exact (Int.toNat_emod (Int.emod_nonneg n (Int.ne_of_gt hpos)) (Int.le_of_lt hpos')).symm
  unfold signedAt
  rw [numberAt_intWord h]
  simp only [bind, Except.bind, hnarrow, signed_emod hbits.1 hn, signed_emod (by decide) hwide]
  rfl

theorem boolAt_word {b : Bool} (h : Holds data position (numberWord (if b then 1 else 0))) :
    boolAt data position = .ok b := by
  unfold boolAt unsignedAt
  rw [numberAt_numberWord (by cases b <;> decide) h]
  cases b <;> rfl

theorem addressAt_padded {a : Address} (h : Holds data position (List.replicate 12 0 ++ a.bytes)) :
    addressAt data position = .ok a := by
  have hlength : a.bytes.length = 20 := a.length_bytes
  have hless : Bytes.toNat a.bytes < twoTo 160 := by
    have hlt := Bytes.toNat_lt a.bytes
    rwa [hlength] at hlt
  have hback : FixedBytes.addressOfNat (Bytes.toNat a.bytes) = a := by
    refine FixedBytes.ext ?_
    have hbytes := Bytes.ofNat_toNat a.bytes
    rwa [hlength] at hbytes
  unfold addressAt unsignedAt numberAt
  rw [wordAt_of_holds (by simp [hlength]) h]
  simp only [bind, Except.bind, pure, Except.pure, Bytes.toNat_zeros, if_pos hless, hback]

theorem fixedBytesAt_padRight {size : Nat} (hsize : size ≤ 32) {bytes : Bytes}
    (hbytes : bytes.length ≤ size) (h : Holds data position (Bytes.padRight 32 bytes)) :
    fixedBytesAt data size position = .ok (Bytes.padRight size bytes) := by
  have hlength : (Bytes.padRight size bytes).length = size := by
    rw [Bytes.length_padRight]
    omega
  unfold fixedBytesAt
  rw [wordAt_of_holds (by rw [Bytes.length_padRight]; omega) h, padRight_eq_append hsize hbytes]
  simp only [bind, Except.bind, List.drop_left' hlength, List.take_left' hlength]
  simp [pure, Except.pure]

/-! ## Values behind their length -/

theorem padToWords_eq (bytes : Bytes) : padToWords bytes =
    bytes ++ List.replicate ((bytes.length + 31) / 32 * 32 - bytes.length) 0 := rfl

theorem length_padToWords (bytes : Bytes) :
    (padToWords bytes).length = (bytes.length + 31) / 32 * 32 := by
  rw [padToWords, Bytes.length_padRight]
  omega

theorem length_counted (bytes : Bytes) :
    (counted bytes).length = 32 + (bytes.length + 31) / 32 * 32 := by
  rw [counted, List.length_append, length_numberWord, length_padToWords]

theorem bytesAt_counted {bytes : Bytes} (hdata : data.length ≤ greatestSize)
    (h : Holds data position (counted bytes)) : bytesAt data position = .ok bytes := by
  have hend := h.end_le (by rw [length_counted]; omega)
  rw [length_counted] at hend
  have hgreatest : greatestSize < twoTo 256 := by decide
  have hbody := h.right
  rw [length_numberWord] at hbody
  have hblock := hbody.take
  rw [length_padToWords] at hblock
  unfold bytesAt
  rw [numberAt_numberWord (by omega) h.left]
  simp only [bind, Except.bind]
  rw [if_neg (by omega), hblock, if_neg (by rw [length_padToWords]; omega), padToWords_eq,
    List.drop_left, List.take_left]
  simp [pure, Except.pure]

end

end ContractHost.Abi
