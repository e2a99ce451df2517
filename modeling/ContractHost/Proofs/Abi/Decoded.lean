import ContractHost.Proofs.Abi.Fits

/-!
# Decoded values are of their type

Whatever is read as a value of a type fits it: numbers have so many bits, bytes of a fixed number are so
many, an array of a fixed size has so many items, and a tuple has a value for each component.

* `AbiType.induct`: induction on a type, where the components of a tuple come together.
* `decode_fits`: a decoded value fits its type.
-/

namespace ContractHost.Abi

namespace AbiType

/-- Whether a type is neither an array nor a tuple. -/
def isSingle : AbiType → Bool
  | .array .. => false
  | .tuple _ => false
  | _ => true

/-- Induction on a type, where the components of a tuple come together. -/
@[elab_as_elim]
theorem induct {motive : AbiType → Prop} (single : ∀ type, type.isSingle = true → motive type)
    (array : ∀ item size, motive item → motive (.array item size))
    (tuple : ∀ components, (∀ type ∈ components, motive type) → motive (.tuple components)) :
    ∀ type, motive type
  | .array item size => array item size (induct single array tuple item)
  | .tuple components => tuple components fun type _ => induct single array tuple type
  | .uint _ | .int _ | .bool | .address | .ufixed .. | .fixed .. | .bytesN _ | .bytes | .string =>
    single _ rfl

end AbiType

variable {data : Bytes} {position : Nat}

/-! ## Values that are neither arrays nor tuples -/

theorem unsignedAt_fits (bits : Nat) :
    Yields (unsignedAt data bits position) fun n => fitsUnsigned bits n = true := by
  refine yields_then fun n => ?_
  split
  · rename_i hn
    have hcast : (n : Int) < twoTo bits := Int.ofNat_lt.2 hn
    exact yields_ok (Bool.and_eq_true_iff.2
      ⟨decide_eq_true (Int.natCast_nonneg n), decide_eq_true hcast⟩)
  · exact yields_error _

theorem fitsSigned_signed {bits n : Nat} (hn : n < twoTo bits) :
    fitsSigned bits (signed bits n) = true := by
  have hhalf : twoTo bits ≤ 2 * twoTo (bits - 1) := by
    cases bits with
    | zero => decide
    | succ bits => exact Nat.le_of_eq ((twoTo_succ bits).trans (Nat.mul_comm _ _))
  rw [signed]
  split
  · simp only [fitsSigned, Bool.and_eq_true, decide_eq_true_eq]
    omega
  · simp only [fitsSigned, Bool.and_eq_true, decide_eq_true_eq]
    omega

theorem signedAt_fits (bits : Nat) :
    Yields (signedAt data bits position) fun n => fitsSigned bits n = true := by
  refine yields_then fun n => ?_
  simp only
  split
  · exact yields_ok (fitsSigned_signed (Nat.mod_lt n (twoTo_pos bits)))
  · exact yields_error _

theorem fixedBytesAt_fits (size : Nat) :
    Yields (fixedBytesAt data size position) fun bytes => bytes.length ≤ size := by
  refine yields_then fun word => ?_
  split
  · exact yields_ok (List.length_take_le ..)
  · exact yields_error _

theorem decode_single {type : AbiType} (h : type.isSingle = true) :
    Yields (decode data type position) fun found => Fits type found.1 := by
  cases type with
  | uint bits => exact yields_bind (unsignedAt_fits bits) fun n hn => yields_ok (.uint hn)
  | int bits => exact yields_bind (signedAt_fits bits) fun n hn => yields_ok (.int hn)
  | bool => exact yields_then fun b => yields_ok (.bool b)
  | address => exact yields_then fun a => yields_ok (.address a)
  | ufixed bits places => exact yields_bind (unsignedAt_fits bits) fun n hn => yields_ok (.ufixed hn)
  | fixed bits places => exact yields_bind (signedAt_fits bits) fun n hn => yields_ok (.fixed hn)
  | bytesN size => exact yields_bind (fixedBytesAt_fits size) fun bytes hn => yields_ok (.bytesN hn)
  | bytes => exact yields_then fun bytes => yields_ok (.bytes bytes)
  | string => exact yields_then fun found => yields_ok (.string (.ofChars found.1))
  | array item size => cases h
  | tuple components => cases h

/-! ## Arrays and tuples -/

section Read

variable {P : Datum → Prop} {read : Nat → Read} (h : ∀ position, Yields (read position) (P ·.1))
include h

theorem readTail_yields (start : Nat) : Yields (readTail data start read position) (P ·.1) := by
  refine yields_then fun offset => ?_
  exact yields_bind (h (start + offset)) fun found hfound => yields_ok hfound

theorem readItems_yields (count : Nat) :
    Yields (readItems read count position) fun found =>
      found.1.length = count ∧ ∀ item ∈ found.1, P item := by
  induction count generalizing position with
  | zero => exact yields_ok ⟨rfl, nofun⟩
  | succ count ih =>
    refine yields_bind (h position) fun first hfirst => ?_
    refine yields_bind ih fun found hfound => yields_ok ?_
    exact ⟨congrArg Nat.succ hfound.1, List.forall_mem_cons.2 ⟨hfirst, hfound.2⟩⟩

theorem readArray_yields (dynamic : Bool) (count : Nat) :
    Yields (readArray data dynamic read count position) fun found =>
      ∃ items, found.1 = .list items ∧ items.length = count ∧ ∀ item ∈ items, P item := by
  cases dynamic with
  | true =>
    refine yields_then fun _ => ?_
    refine yields_bind (readItems_yields (fun _ => readTail_yields h position) count) ?_
    exact fun found hfound => yields_ok ⟨found.1, rfl, hfound⟩
  | false =>
    refine yields_bind (readItems_yields h count) ?_
    exact fun found hfound => yields_ok ⟨found.1, rfl, hfound⟩

end Read

theorem decodeMembers_fits {types : List AbiType}
    (h : ∀ type ∈ types, ∀ position, Yields (decode data type position) (Fits type ·.1))
    (start : Nat) :
    Yields (decodeMembers data start types position) (List.Forall₂ Fits types ·.1) := by
  induction types generalizing position with
  | nil => exact yields_ok .nil
  | cons type types ih =>
    obtain ⟨htype, htypes⟩ := List.forall_mem_cons.1 h
    rw [decodeMembers]
    split
    · refine yields_bind (readTail_yields htype start) fun first hfirst => ?_
      exact yields_bind (ih htypes) fun found hfound => yields_ok (.cons hfirst hfound)
    · refine yields_bind (htype position) fun first hfirst => ?_
      exact yields_bind (ih htypes) fun found hfound => yields_ok (.cons hfirst hfound)

/-- A decoded value fits its type. -/
theorem decode_fits (type : AbiType) (position : Nat) :
    Yields (decode data type position) fun found => Fits type found.1 := by
  induction type using AbiType.induct generalizing position with
  | single type hsingle => exact decode_single hsingle
  | array item size ih =>
    have hitems (count start : Nat) (hsize : ∀ n, size = some n → count = n) :
        Yields (readArray data item.isDynamic (decode data item) count start)
          fun found => Fits (.array item size) found.1 := by
      intro found hfound
      obtain ⟨items, hvalue, hlength, hfits⟩ := readArray_yields ih item.isDynamic count found hfound
      rw [hvalue]
      exact .array (fun n hn => hlength.trans (hsize n hn)) hfits
    cases size with
    | none => exact yields_then fun count => hitems count _ nofun
    | some size => exact hitems size position fun n hn => Option.some.inj hn
  | tuple components ih =>
    rw [decode]
    refine yields_then fun _ => ?_
    refine yields_bind (decodeMembers_fits ih position) fun found hfound => yields_ok ?_
    exact .tuple hfound.length_eq fun pair hpair => (List.forall₂_iff_zip.1 hfound).2 hpair

end ContractHost.Abi
