import ContractHost.Proofs.Abi.Fits

/-!
# Reading what was written

A value is read back from its encoding, wherever that stands in some data. The invariant for members,
read one after another, is where the rest of the head stands and where the rest of the tail does. The
first pass accepts their offsets because every encoding takes as many words at least as its type counts
for in a head.

* `Codes`: what holds of a value and its encoding.
* `members_read`: members of a tuple, from any one on.
* `Fits.codes`: every value that fits its type.
* `decodeAll_encodeAll`: lists of values.
-/

namespace ContractHost.Abi

/-- The encoding of a value: it is that of the value as it comes back, it is not shorter than its type
says, and the value is read back where it stands. -/
structure Codes (type : AbiType) (value : Datum) : Prop where
  same : encode type (settled type value) = encode type value
  size : ∀ bytes, encode type value = .ok bytes →
    32 ≤ bytes.length ∧ 32 * type.headSlots ≤ bytes.length
  reads : ∀ {data bytes : Bytes} {position : Nat}, data.length ≤ greatestSize →
    encode type value = .ok bytes → Holds data position bytes →
    ∃ next, decode data type position = .ok (settled type value, next) ∧
      (type.isDynamic = false → next = position + bytes.length)

/-! ## Heads and tails -/

theorem AbiType.headSlots_of_dynamic {type : AbiType} (h : type.isDynamic = true) :
    type.headSlots = 1 := by
  cases type with
  | array item size =>
    cases size with
    | none => rfl
    | some n => exact if_pos h
  | _ => rfl

theorem length_headOf (next : Nat) (parts : List Part) :
    (headOf next parts).length = headSize parts := by
  induction parts generalizing next with
  | nil => rfl
  | cons part rest ih =>
    rw [headOf, headSize, Part.headSize]
    split
    · rw [List.length_append, length_numberWord, ih]
    · rw [List.length_append, ih]

theorem tailOf_cons (part : Part) (rest : List Part) :
    tailOf (part :: rest) = if part.dynamic then part.bytes ++ tailOf rest else tailOf rest := by
  unfold tailOf
  split
  · rename_i h
    rw [List.filter_cons_of_pos h, List.flatMap_cons]
  · rename_i h
    rw [List.filter_cons_of_neg h]

theorem encodeMembers_cons_eq_ok_iff {type : AbiType} {types : List AbiType} {item : Datum}
    {items : List Datum} {parts : List Part} :
    encodeMembers (type :: types) (item :: items) = .ok parts ↔
      ∃ bytes rest, encode type item = .ok bytes ∧ encodeMembers types items = .ok rest ∧
        parts = { dynamic := type.isDynamic, bytes } :: rest := by
  rw [encodeMembers, bind_eq_ok_iff]
  constructor
  · rintro ⟨bytes, hbytes, hrest⟩
    obtain ⟨rest, hrest, hparts⟩ := bind_eq_ok_iff.1 hrest
    exact ⟨bytes, rest, hbytes, hrest, (Except.ok.inj hparts).symm⟩
  · rintro ⟨bytes, rest, hbytes, hrest, rfl⟩
    exact ⟨bytes, hbytes, bind_eq_ok_iff.2 ⟨rest, hrest, rfl⟩⟩

section

variable {types : List AbiType} {items : List Datum} {parts : List Part}

/-- A head has a word at least for each member, and as many as the types count for. -/
theorem headSize_ge (hcodes : List.Forall₂ Codes types items)
    (hparts : encodeMembers types items = .ok parts) :
    32 * items.length ≤ headSize parts ∧ 32 * slots types ≤ headSize parts := by
  induction hcodes generalizing parts with
  | nil =>
    cases hparts
    exact ⟨Nat.le_refl 0, Nat.le_refl 0⟩
  | @cons type item types items hcode _ ih =>
    obtain ⟨bytes, rest, hbytes, hrest, rfl⟩ := encodeMembers_cons_eq_ok_iff.1 hparts
    obtain ⟨hword, hslots⟩ := hcode.size bytes hbytes
    obtain ⟨hcount, htypes⟩ := ih hrest
    have hpart : 32 ≤ Part.headSize { dynamic := type.isDynamic, bytes } ∧
        32 * type.headSlots ≤ Part.headSize { dynamic := type.isDynamic, bytes } := by
      unfold Part.headSize
      cases hdynamic : type.isDynamic with
      | true => simp [AbiType.headSlots_of_dynamic hdynamic]
      | false => exact ⟨hword, hslots⟩
    rw [headSize, slots, List.length_cons]
    omega

theorem length_join_of_static (hcodes : List.Forall₂ Codes types items)
    (hparts : encodeMembers types items = .ok parts) (h : AbiType.anyDynamic types = false) :
    (join parts).length = headSize parts := by
  have htail : tailOf parts = [] := by
    induction hcodes generalizing parts with
    | nil =>
      cases hparts
      rfl
    | cons hcode _ ih =>
      obtain ⟨bytes, rest, hbytes, hrest, rfl⟩ := encodeMembers_cons_eq_ok_iff.1 hparts
      rw [AbiType.anyDynamic, Bool.or_eq_false_iff] at h
      rw [tailOf_cons, h.1]
      exact ih hrest h.2
  rw [join, htail, List.append_nil, length_headOf]

theorem encodeMembers_settled (hcodes : List.Forall₂ Codes types items) :
    encodeMembers types (settledMembers types items) = encodeMembers types items := by
  induction hcodes with
  | nil => rfl
  | cons hcode _ ih => rw [settledMembers, encodeMembers, encodeMembers, hcode.same, ih]

/-- Members are read from a position on, where the rest of their head stands, while the rest of the tail
stands where the next offset leads. -/
theorem members_read (hcodes : List.Forall₂ Codes types items)
    (hparts : encodeMembers types items = .ok parts) {data : Bytes}
    (hdata : data.length ≤ greatestSize) {start slots next position : Nat}
    (hslots : 32 * slots ≤ next) (hhead : Holds data position (headOf next parts))
    (htail : Holds data (start + next) (tailOf parts)) :
    scanHead data start slots types position = .ok () ∧
      decodeMembers data start types position =
        .ok (settledMembers types items, position + headSize parts) := by
  induction hcodes generalizing parts next position with
  | nil =>
    cases hparts
    exact ⟨rfl, rfl⟩
  | @cons type item types items hcode _ ih =>
    obtain ⟨bytes, rest, hbytes, hrest, rfl⟩ := encodeMembers_cons_eq_ok_iff.1 hparts
    rw [headOf] at hhead
    rw [tailOf_cons] at htail
    rw [scanHead, decodeMembers, headSize, Part.headSize, settledMembers]
    cases hdynamic : type.isDynamic with
    | true =>
      simp only [hdynamic, if_true] at hhead htail
      have hword := (hcode.size bytes hbytes).1
      have hend := htail.left.end_le (by omega)
      have hgreatest : greatestSize < twoTo 256 := by decide
      have hoffset := numberAt_numberWord (by omega) hhead.left
      have hcheck : checkOffset data start slots next = .ok () := if_pos (by omega)
      obtain ⟨after, hread, -⟩ := hcode.reads hdata hbytes htail.left
      have hrestHead := hhead.right
      have hrestTail := htail.right
      rw [length_numberWord] at hrestHead
      rw [Nat.add_assoc] at hrestTail
      obtain ⟨hscan, hmembers⟩ := ih hrest (by omega) hrestHead hrestTail
      simp only [if_true, readTail, hoffset, bind, Except.bind, pure, Except.pure, hcheck, hread,
        hscan, hmembers, Nat.add_assoc, and_self]
    | false =>
      simp only [hdynamic, Bool.false_eq_true, if_false] at hhead htail
      obtain ⟨after, hread, hafter⟩ := hcode.reads hdata hbytes hhead.left
      obtain ⟨hscan, hmembers⟩ := ih hrest hslots hhead.right htail
      rw [hafter hdynamic] at hread
      simp only [Bool.false_eq_true, if_false, hread, bind, Except.bind, pure, Except.pure, hscan,
        hmembers, Nat.add_assoc, and_self]

/-- Members are read where their head and their tail stand together. -/
theorem join_read (hcodes : List.Forall₂ Codes types items)
    (hparts : encodeMembers types items = .ok parts) {data : Bytes}
    (hdata : data.length ≤ greatestSize) {slots position : Nat} (hslots : 32 * slots ≤ headSize parts)
    (h : Holds data position (join parts)) :
    scanHead data position slots types position = .ok () ∧
      decodeMembers data position types position =
        .ok (settledMembers types items, position + headSize parts) := by
  have htail := h.right
  rw [length_headOf] at htail
  exact members_read hcodes hparts hdata hslots h.left htail

end

/-! ## Every value -/

/-- A value of one word, with its encoding and what is read from it. -/
theorem Codes.of_word {type : AbiType} {value : Datum} {word : Bytes}
    (hencode : encode type value = .ok word)
    (hsame : encode type (settled type value) = encode type value) (hword : word.length = 32)
    (hslots : type.headSlots = 1)
    (hreads : ∀ {data : Bytes} {position : Nat}, Holds data position word →
      decode data type position = .ok (settled type value, position + 32)) : Codes type value := by
  refine ⟨hsame, fun bytes hbytes => ?_, fun _ hbytes hholds => ?_⟩
  · cases hencode.symm.trans hbytes
    omega
  · cases hencode.symm.trans hbytes
    exact ⟨_, hreads hholds, fun _ => by rw [hword]⟩

/-- A value behind its length. -/
theorem Codes.of_counted {type : AbiType} {value : Datum} {bytes : Bytes}
    (hencode : encode type value = .ok (counted bytes))
    (hsame : settled type value = value) (hslots : type.headSlots = 1)
    (hdynamic : type.isDynamic = true)
    (hreads : ∀ {data : Bytes} {position : Nat}, data.length ≤ greatestSize →
      Holds data position (counted bytes) →
        ∃ next, decode data type position = .ok (settled type value, next)) : Codes type value := by
  refine ⟨by rw [hsame], fun found hfound => ?_, fun hdata hfound hholds => ?_⟩
  · rw [← Except.ok.inj (hencode.symm.trans hfound), length_counted, hslots]
    omega
  · rw [← Except.ok.inj (hencode.symm.trans hfound)] at hholds
    obtain ⟨next, hnext⟩ := hreads hdata hholds
    exact ⟨next, hnext, fun hstatic => nomatch hdynamic.symm.trans hstatic⟩

theorem isDynamic_replicate (type : AbiType) (count : Nat) (h : type.isDynamic = false) :
    AbiType.anyDynamic (List.replicate count type) = false := by
  induction count with
  | zero => rfl
  | succ count ih => rw [List.replicate_succ, AbiType.anyDynamic, h, ih]; rfl

/-- The items of an array of a fixed size. -/
theorem Codes.of_items {item : AbiType} {items : List Datum} (hsome : 1 ≤ items.length)
    (h : ∀ value ∈ items, Codes item value) :
    Codes (.array item (some items.length)) (.list items) := by
  have hcodes := (forall₂_replicate rfl).2 h
  have hencode {bytes : Bytes}
      (hbytes : encode (.array item (some items.length)) (.list items) = .ok bytes) :
      ∃ parts, encodeMembers (List.replicate items.length item) items = .ok parts ∧
        bytes = join parts := by
    rw [encode, encodeItems_eq] at hbytes
    obtain ⟨parts, hparts, hjoin⟩ := bind_eq_ok_iff.1 hbytes
    exact ⟨parts, hparts, (Except.ok.inj hjoin).symm⟩
  refine ⟨?_, fun bytes hbytes => ?_, fun hdata hbytes hholds => ?_⟩
  · rw [settled, encode, encode, encodeItems_eq, encodeItems_eq,
      length_settledItems, encodeMembers_settled hcodes]
  · obtain ⟨parts, hparts, rfl⟩ := hencode hbytes
    obtain ⟨hcount, -⟩ := headSize_ge hcodes hparts
    have hslots : AbiType.headSlots (.array item (some items.length)) ≤ items.length := by
      rw [AbiType.headSlots]
      split <;> omega
    rw [join, List.length_append, length_headOf]
    omega
  · obtain ⟨parts, hparts, rfl⟩ := hencode hbytes
    obtain ⟨hcount, -⟩ := headSize_ge hcodes hparts
    obtain ⟨hscan, hmembers⟩ := join_read hcodes hparts hdata hcount hholds
    refine ⟨_, readArray_of_members hscan hmembers, fun hstatic => ?_⟩
    rw [length_join_of_static hcodes hparts (isDynamic_replicate item _ hstatic)]

/-- The items of an array behind their number. -/
theorem Codes.of_counted_items {item : AbiType} {items : List Datum}
    (h : ∀ value ∈ items, Codes item value) : Codes (.array item none) (.list items) := by
  have hcodes := (forall₂_replicate rfl).2 h
  have hencode {bytes : Bytes} (hbytes : encode (.array item none) (.list items) = .ok bytes) :
      ∃ parts, encodeMembers (List.replicate items.length item) items = .ok parts ∧
        bytes = numberWord items.length ++ join parts := by
    rw [encode, encodeItems_eq] at hbytes
    obtain ⟨parts, hparts, hjoin⟩ := bind_eq_ok_iff.1 hbytes
    exact ⟨parts, hparts, (Except.ok.inj hjoin).symm⟩
  refine ⟨?_, fun bytes hbytes => ?_, fun {data bytes position} hdata hbytes hholds => ?_⟩
  · rw [settled, encode, encode, encodeItems_eq, encodeItems_eq,
      length_settledItems, encodeMembers_settled hcodes]
  · obtain ⟨parts, -, hjoin⟩ := hencode hbytes
    rw [hjoin, List.length_append, length_numberWord, AbiType.headSlots]
    · omega
    · exact nofun
  · obtain ⟨parts, hparts, hjoin⟩ := hencode hbytes
    rw [hjoin] at hholds
    obtain ⟨hcount, -⟩ := headSize_ge hcodes hparts
    have hend := hholds.end_le (by rw [List.length_append, length_numberWord]; omega)
    rw [List.length_append, length_numberWord, join, List.length_append, length_headOf] at hend
    have hgreatest : greatestSize < twoTo 256 := by decide
    have hnumber := numberAt_numberWord (by omega) hholds.left
    have hbody := hholds.right
    rw [length_numberWord] at hbody
    obtain ⟨hscan, hmembers⟩ := join_read hcodes hparts hdata hcount hbody
    have hdecode : decode data (.array item none) position =
        readArray data item.isDynamic (decode data item) items.length (position + 32) := by
      rw [decode, hnumber]
      rfl
    exact ⟨_, hdecode.trans (readArray_of_members hscan hmembers), nofun⟩

theorem Codes.of_members {types : List AbiType} {items : List Datum} (hsome : types ≠ [])
    (hcodes : List.Forall₂ Codes types items) : Codes (.tuple types) (.list items) := by
  have hencode {bytes : Bytes} (hbytes : encode (.tuple types) (.list items) = .ok bytes) :
      ∃ parts, encodeMembers types items = .ok parts ∧ bytes = join parts := by
    rw [encode] at hbytes
    obtain ⟨parts, hparts, hjoin⟩ := bind_eq_ok_iff.1 hbytes
    exact ⟨parts, hparts, (Except.ok.inj hjoin).symm⟩
  refine ⟨?_, fun bytes hbytes => ?_, fun {data bytes position} hdata hbytes hholds => ?_⟩
  · rw [settled, encode, encode, encodeMembers_settled hcodes]
  · obtain ⟨parts, hparts, rfl⟩ := hencode hbytes
    obtain ⟨hcount, -⟩ := headSize_ge hcodes hparts
    have hlength := hcodes.length_eq
    have hpos := List.length_pos_iff.2 hsome
    rw [join, List.length_append, length_headOf, AbiType.headSlots]
    · omega
    · exact nofun
  · obtain ⟨parts, hparts, rfl⟩ := hencode hbytes
    obtain ⟨-, hslots⟩ := headSize_ge hcodes hparts
    obtain ⟨hscan, hmembers⟩ := join_read hcodes hparts hdata hslots hholds
    refine ⟨position + headSize parts, ?_, fun hstatic => ?_⟩
    · rw [decode, hscan]
      simp only [bind, Except.bind, hmembers]
      rfl
    · rw [length_join_of_static hcodes hparts hstatic]

theorem Fits.codes {type : AbiType} {value : Datum} (h : Fits type value) (proper : type.Proper) :
    Codes type value := by
  induction h with
  | @uint bits n h =>
    cases proper with
    | uint hbits =>
      refine .of_word rfl rfl (length_intWord n) rfl fun hholds => ?_
      obtain ⟨m, hm, rfl⟩ := unsignedAt_intWord (TypeText.isBitSize_iff.1 hbits).2.1 h hholds
      rw [decode, hm]
      rfl
  | @int bits n h =>
    cases proper with
    | int hbits =>
      obtain ⟨hlow, hhigh, -⟩ := TypeText.isBitSize_iff.1 hbits
      refine .of_word rfl rfl (length_intWord n) rfl fun hholds => ?_
      rw [decode, signedAt_intWord ⟨by omega, hhigh⟩ h hholds]
      rfl
  | @ufixed bits places n h =>
    cases proper with
    | ufixed hbits =>
      refine .of_word rfl rfl (length_intWord n) rfl fun hholds => ?_
      obtain ⟨m, hm, rfl⟩ := unsignedAt_intWord (TypeText.isBitSize_iff.1 hbits).2.1 h hholds
      rw [decode, hm]
      rfl
  | @fixed bits places n h =>
    cases proper with
    | fixed hbits =>
      obtain ⟨hlow, hhigh, -⟩ := TypeText.isBitSize_iff.1 hbits
      refine .of_word rfl rfl (length_intWord n) rfl fun hholds => ?_
      rw [decode, signedAt_intWord ⟨by omega, hhigh⟩ h hholds]
      rfl
  | bool b =>
    refine .of_word rfl rfl (length_numberWord _) rfl fun hholds => ?_
    rw [decode, boolAt_word hholds]
    rfl
  | address a =>
    refine .of_word rfl rfl ?_ rfl fun hholds => ?_
    · rw [List.length_append, List.length_replicate, a.length_bytes]
      rfl
    · rw [decode, addressAt_padded hholds]
      rfl
  | @bytesN size bytes h =>
    cases proper with
    | bytesN hsize =>
      refine .of_word rfl ?_ ?_ rfl fun hholds => ?_
      · exact congrArg Except.ok (padRight_padRight hsize.2 h)
      · rw [Bytes.length_padRight]
        omega
      · rw [decode, fixedBytesAt_padRight hsize.2 h hholds]
        rfl
  | bytes bytes =>
    refine .of_counted rfl rfl rfl rfl fun hdata hholds => ?_
    rw [decode, bytesAt_counted hdata hholds]
    exact ⟨_, rfl⟩
  | string text =>
    cases text with
    | plain s =>
      refine .of_counted rfl rfl rfl rfl fun hdata hholds => ?_
      rw [decode, stringAt, bytesAt_counted hdata hholds]
      simp only [bind, Except.bind, Utf8.decode?_ofChars]
      exact ⟨_, congrArg (fun s => Except.ok (Datum.string (.plain s), _)) String.ofList_toList⟩
    -- a half cannot be encoded
    | halved front half rest => exact ⟨rfl, nofun, nofun⟩
  | @array item size items hsize _ ih =>
    cases proper with
    | array hitem hcount =>
      have hcodes : ∀ value ∈ items, Codes item value := fun value hvalue => ih value hvalue hitem
      cases size with
      | none => exact .of_counted_items hcodes
      | some n =>
        have hlength := hsize n rfl
        have hsome := hcount n rfl
        subst hlength
        exact .of_items hsome hcodes
  | tuple hlength _ ih =>
    cases proper with
    | tuple hcomponents hsome =>
      refine .of_members hsome (forall₂_of_zip hlength fun pair hpair => ?_)
      exact ih pair hpair (hcomponents _ (List.of_mem_zip hpair).1)

/-! ## Lists of values -/

theorem forall₂_codes {types : List AbiType} {values : List Datum}
    (hfits : List.Forall₂ Fits types values) (proper : ∀ type ∈ types, type.Proper) :
    List.Forall₂ Codes types values := by
  refine forall₂_of_zip hfits.length_eq fun pair hpair => ?_
  exact ((List.forall₂_iff_zip.1 hfits).2 hpair).codes (proper _ (List.of_mem_zip hpair).1)

theorem encodeAll_eq_ok_iff {types : List AbiType} {values : List Datum} {data : Bytes} :
    encodeAll types values = .ok data ↔
      List.Forall₂ Fits types values ∧ ∃ parts, encodeMembers types values = .ok parts ∧
        data = join parts ∧ data.length ≤ greatestSize := by
  have hfits : checkMembers types values = .ok () ↔ List.Forall₂ Fits types values := by
    rw [checkMembers_eq_ok_iff]
    exact ⟨fun h => h.imp fun _ _ => fits_of_check, fun h => h.imp fun _ _ => Fits.check⟩
  unfold encodeAll
  rw [bind_eq_ok_iff, ← hfits]
  constructor
  · rintro ⟨⟨⟩, hcheck, h⟩
    obtain ⟨parts, hparts, h⟩ := bind_eq_ok_iff.1 h
    refine ⟨hcheck, parts, hparts, ?_⟩
    by_cases hsize : greatestSize < (join parts).length
    · simp [hsize, throw, throwThe, MonadExceptOf.throw, bind, Except.bind] at h
    · rw [if_neg hsize] at h
      have hjoin : join parts = data := Except.ok.inj h
      rw [← hjoin]
      exact ⟨rfl, Nat.not_lt.1 hsize⟩
  · rintro ⟨hcheck, parts, hparts, rfl, hsize⟩
    refine ⟨(), hcheck, bind_eq_ok_iff.2 ⟨parts, hparts, ?_⟩⟩
    rw [if_neg (Nat.not_lt.2 hsize)]
    rfl

/-- What an encoding is made of is what comes back from it, and that has the same encoding. -/
theorem decodeAll_encodeAll {types : List AbiType} (proper : ∀ type ∈ types, type.Proper)
    {values : List Datum} {data : Bytes} (h : encodeAll types values = .ok data) :
    decodeAll types data = .ok (settledMembers types values) ∧
      encodeAll types (settledMembers types values) = .ok data := by
  obtain ⟨hfits, parts, hparts, rfl, hsize⟩ := encodeAll_eq_ok_iff.1 h
  have hcodes := forall₂_codes hfits proper
  obtain ⟨-, hslots⟩ := headSize_ge hcodes hparts
  obtain ⟨hscan, hmembers⟩ := join_read hcodes hparts hsize hslots (.self _)
  refine ⟨?_, encodeAll_eq_ok_iff.2 ⟨?_, parts, ?_, rfl, hsize⟩⟩
  · rw [decodeAll, hscan]
    simp only [bind, Except.bind, hmembers]
    rfl
  · exact fits_settledMembers (hfits.imp fun _ _ => Fits.settled)
  · rw [encodeMembers_settled hcodes, hparts]

end ContractHost.Abi
