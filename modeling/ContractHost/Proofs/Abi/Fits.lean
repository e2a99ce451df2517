import ContractHost.Proofs.Abi.Words
import ContractHost.Proofs.Yields

/-!
# Values of a type

What a check accepts, as a relation with one case for each kind of type, so that everything about the
values of a type goes by induction on it. Arrays are looked at as tuples whose components are all the
same, for checking, writing and reading alike.

* `AbiType.Proper`: types with sizes that make sense.
* `Fits`, `fits_iff_check`: the values that a check accepts.
* `settled`: a value as it comes back, with bytes of a fixed number filled up.
* `encodeItems_eq`, `readItems_eq`, `checkOffsets_eq`: arrays as tuples.
-/

namespace ContractHost.Abi

/-- A type whose sizes make sense, and with a component at least in every tuple. -/
inductive AbiType.Proper : AbiType → Prop
  | uint {bits : Nat} (h : TypeText.isBitSize bits = true) : Proper (.uint bits)
  | int {bits : Nat} (h : TypeText.isBitSize bits = true) : Proper (.int bits)
  | bool : Proper .bool
  | address : Proper .address
  | ufixed {bits places : Nat} (h : TypeText.isBitSize bits = true)
    (hplaces : 1 ≤ places ∧ places ≤ 80) : Proper (.ufixed bits places)
  | fixed {bits places : Nat} (h : TypeText.isBitSize bits = true)
    (hplaces : 1 ≤ places ∧ places ≤ 80) : Proper (.fixed bits places)
  | bytesN {size : Nat} (h : 1 ≤ size ∧ size ≤ 32) : Proper (.bytesN size)
  | bytes : Proper .bytes
  | string : Proper .string
  | array {item : AbiType} {size : Option Nat} (h : Proper item) (hsize : ∀ n, size = some n → 1 ≤ n) :
    Proper (.array item size)
  | tuple {components : List AbiType} (h : ∀ type ∈ components, Proper type)
    (hsome : components ≠ []) : Proper (.tuple components)

theorem TypeText.isBitSize_iff {bits : Nat} :
    isBitSize bits = true ↔ 8 ≤ bits ∧ bits ≤ 256 ∧ bits % 8 = 0 := by
  simp [isBitSize, and_assoc]

/-- A value that fits a type. -/
inductive Fits : AbiType → Datum → Prop
  | uint {bits : Nat} {n : Int} (h : fitsUnsigned bits n = true) : Fits (.uint bits) (.int n)
  | int {bits : Nat} {n : Int} (h : fitsSigned bits n = true) : Fits (.int bits) (.int n)
  | ufixed {bits places : Nat} {n : Int} (h : fitsUnsigned bits n = true) :
    Fits (.ufixed bits places) (.fraction n places)
  | fixed {bits places : Nat} {n : Int} (h : fitsSigned bits n = true) :
    Fits (.fixed bits places) (.fraction n places)
  | bool (b : Bool) : Fits .bool (.bool b)
  | address (a : Address) : Fits .address (.address a)
  | bytesN {size : Nat} {bytes : Bytes} (h : bytes.length ≤ size) : Fits (.bytesN size) (.bytes bytes)
  | bytes (bytes : Bytes) : Fits .bytes (.bytes bytes)
  | string (text : Text) : Fits .string (.string text)
  | array {item : AbiType} {size : Option Nat} {items : List Datum}
    (hsize : ∀ n, size = some n → items.length = n) (h : ∀ value ∈ items, Fits item value) :
    Fits (.array item size) (.list items)
  | tuple {types : List AbiType} {items : List Datum} (hlength : types.length = items.length)
    (h : ∀ pair ∈ types.zip items, Fits pair.1 pair.2) : Fits (.tuple types) (.list items)

/-- What is shown of a list of items is shown of a list, and of everything else by itself. -/
@[elab_as_elim]
theorem Datum.induct {motive : Datum → Prop} (int : ∀ n, motive (.int n))
    (fraction : ∀ n places, motive (.fraction n places)) (bool : ∀ b, motive (.bool b))
    (address : ∀ a, motive (.address a)) (bytes : ∀ bytes, motive (.bytes bytes))
    (string : ∀ text, motive (.string text))
    (list : ∀ items, (∀ item ∈ items, motive item) → motive (.list items)) :
    ∀ value, motive value
  | .int n => int n
  | .fraction n places => fraction n places
  | .bool b => bool b
  | .address a => address a
  | .bytes b => bytes b
  | .string text => string text
  | .list items => list items fun item _ =>
    Datum.induct int fraction bool address bytes string list item

/-! ## Checks -/

theorem require_eq_ok_iff {condition : Bool} {fault : Fault} :
    require condition fault = .ok () ↔ condition = true := by
  cases condition <;> simp [require]

theorem checkItems_eq_ok_iff {type : AbiType} {items : List Datum} :
    checkItems type items = .ok () ↔ ∀ value ∈ items, check type value = .ok () := by
  induction items with
  | nil => simp [checkItems]
  | cons item rest ih =>
    rw [checkItems, bind_eq_ok_iff, List.forall_mem_cons, ← ih]
    exact ⟨fun ⟨_, h, h'⟩ => ⟨h, h'⟩, fun ⟨h, h'⟩ => ⟨(), h, h'⟩⟩

theorem checkMembers_eq_ok_iff {types : List AbiType} {items : List Datum} :
    checkMembers types items = .ok () ↔
      List.Forall₂ (fun type value => check type value = .ok ()) types items := by
  induction types generalizing items with
  | nil => cases items <;> simp [checkMembers]
  | cons type types ih =>
    cases items with
    | nil => simp [checkMembers]
    | cons item rest =>
      rw [checkMembers, bind_eq_ok_iff, List.forall₂_cons, ← ih]
      exact ⟨fun ⟨_, h, h'⟩ => ⟨h, h'⟩, fun ⟨h, h'⟩ => ⟨(), h, h'⟩⟩

theorem forall₂_of_zip {α β : Type} {R : α → β → Prop} {as : List α} {bs : List β}
    (hlength : as.length = bs.length) (h : ∀ pair ∈ as.zip bs, R pair.1 pair.2) :
    List.Forall₂ R as bs :=
  List.forall₂_iff_zip.2 ⟨hlength, fun hpair => h _ hpair⟩

theorem forall₂_replicate {α β : Type} {R : α → β → Prop} {a : α} {bs : List β} {count : Nat}
    (hcount : bs.length = count) :
    List.Forall₂ R (List.replicate count a) bs ↔ ∀ b ∈ bs, R a b := by
  subst hcount
  induction bs with
  | nil => simp
  | cons b rest ih =>
    rw [List.length_cons, List.replicate_succ, List.forall₂_cons, List.forall_mem_cons, ih]

theorem exists_of_mem_right {α β : Type} {R : α → β → Prop} {as : List α} {bs : List β}
    (h : List.Forall₂ R as bs) {b : β} (hb : b ∈ bs) : ∃ a ∈ as, R a b := by
  induction h with
  | nil => cases hb
  | @cons first second as bs hfirst _ ih =>
    rcases List.mem_cons.1 hb with rfl | hb
    · exact ⟨first, List.mem_cons_self, hfirst⟩
    · obtain ⟨a, ha, hR⟩ := ih hb
      exact ⟨a, List.mem_cons_of_mem first ha, hR⟩

theorem fits_of_check {type : AbiType} {value : Datum} (h : check type value = .ok ()) :
    Fits type value := by
  induction value using Datum.induct generalizing type with
  | int n =>
    cases type with
    | uint bits => exact .uint (require_eq_ok_iff.1 h)
    | int bits => exact .int (require_eq_ok_iff.1 h)
    | _ => simp [check] at h
  | fraction n places =>
    cases type with
    | ufixed bits places' =>
      obtain ⟨rfl, hfits⟩ : places = places' ∧ fitsUnsigned bits n = true := by
        simpa using require_eq_ok_iff.1 h
      exact .ufixed hfits
    | fixed bits places' =>
      obtain ⟨rfl, hfits⟩ : places = places' ∧ fitsSigned bits n = true := by
        simpa using require_eq_ok_iff.1 h
      exact .fixed hfits
    | _ => simp [check] at h
  | bool b =>
    cases type with
    | bool => exact .bool b
    | _ => simp [check] at h
  | address a =>
    cases type with
    | address => exact .address a
    | _ => simp [check] at h
  | bytes bytes =>
    cases type with
    | bytesN size => exact .bytesN (by simpa using require_eq_ok_iff.1 h)
    | bytes => exact .bytes bytes
    | _ => simp [check] at h
  | string text =>
    cases type with
    | string => exact .string text
    | _ => simp [check] at h
  | list items ih =>
    cases type with
    | array item size =>
      rw [check, bind_eq_ok_iff] at h
      obtain ⟨⟨⟩, hcount, hitems⟩ := h
      have hcount := require_eq_ok_iff.1 hcount
      refine .array (fun n hn => ?_)
        fun value hvalue => ih value hvalue (checkItems_eq_ok_iff.1 hitems value hvalue)
      rw [hn] at hcount
      simpa using hcount
    | tuple types =>
      rw [check, checkMembers_eq_ok_iff, List.forall₂_iff_zip] at h
      refine .tuple h.1 fun pair hpair => ?_
      exact ih pair.2 (List.of_mem_zip hpair).2 (h.2 hpair)
    | _ => simp [check] at h

theorem Fits.check {type : AbiType} {value : Datum} (h : Fits type value) :
    check type value = .ok () := by
  induction h with
  | uint h | int h => exact require_eq_ok_iff.2 h
  | ufixed h | fixed h => exact require_eq_ok_iff.2 (by simpa using h)
  | bool | address | bytes | string => rfl
  | bytesN h => exact require_eq_ok_iff.2 (by simpa using h)
  | @array item size items hsize _ ih =>
    rw [Abi.check, bind_eq_ok_iff]
    refine ⟨(), require_eq_ok_iff.2 ?_, checkItems_eq_ok_iff.2 ih⟩
    cases size with
    | none => rfl
    | some n => simpa using hsize n rfl
  | tuple hlength _ ih =>
    rw [Abi.check, checkMembers_eq_ok_iff]
    exact forall₂_of_zip hlength ih

/-- The values that a check accepts. -/
theorem fits_iff_check {type : AbiType} {value : Datum} :
    Fits type value ↔ check type value = .ok () := ⟨Fits.check, fits_of_check⟩

/-! ## Values as they come back -/

mutual

/-- A value as it comes back from its encoding: bytes of a fixed number are filled up with zeros. -/
def settled : AbiType → Datum → Datum
  | .bytesN size, .bytes bytes => .bytes (Bytes.padRight size bytes)
  | .array item _, .list items => .list (settledMembers (List.replicate items.length item) items)
  | .tuple types, .list items => .list (settledMembers types items)
  | _, value => value

/-- Values as they come back, each of its type. -/
def settledMembers : List AbiType → List Datum → List Datum
  | type :: types, item :: items => settled type item :: settledMembers types items
  | _, _ => []

end

theorem length_settledMembers {types : List AbiType} {items : List Datum}
    (h : types.length = items.length) : (settledMembers types items).length = items.length := by
  induction items generalizing types with
  | nil => cases types <;> simp [settledMembers]
  | cons item rest ih =>
    cases types with
    | nil => simp at h
    | cons type types => simp [settledMembers, ih (Nat.succ.inj h)]

theorem length_settledItems (type : AbiType) (items : List Datum) :
    (settledMembers (List.replicate items.length type) items).length = items.length :=
  length_settledMembers List.length_replicate

theorem fits_settledMembers {types : List AbiType} {items : List Datum}
    (h : List.Forall₂ (fun type value => Fits type (settled type value)) types items) :
    List.Forall₂ Fits types (settledMembers types items) := by
  induction h with
  | nil => exact .nil
  | cons hfits _ ih => exact .cons hfits ih

theorem Fits.settled {type : AbiType} {value : Datum} (h : Fits type value) :
    Fits type (settled type value) := by
  induction h with
  | uint h => exact .uint h
  | int h => exact .int h
  | ufixed h => exact .ufixed h
  | fixed h => exact .fixed h
  | bool b => exact .bool b
  | address a => exact .address a
  | bytesN h =>
    refine .bytesN ?_
    rw [Bytes.length_padRight]
    omega
  | bytes bytes => exact .bytes bytes
  | string text => exact .string text
  | @array item size items hsize _ ih =>
    have hlength := length_settledItems item items
    have hitems := fits_settledMembers ((forall₂_replicate rfl).2 ih)
    exact .array (fun n hn => hlength.trans (hsize n hn)) ((forall₂_replicate hlength).1 hitems)
  | tuple hlength _ ih =>
    have hitems := fits_settledMembers (forall₂_of_zip hlength ih)
    exact .tuple hitems.length_eq fun pair hpair => (List.forall₂_iff_zip.1 hitems).2 hpair

/-! ## Arrays as tuples -/

theorem encodeItems_eq (type : AbiType) (items : List Datum) :
    encodeItems type items = encodeMembers (List.replicate items.length type) items := by
  induction items with
  | nil => rfl
  | cons item rest ih => rw [encodeItems, ih, List.length_cons, List.replicate_succ, encodeMembers]

/-- How a member is read: at its place, or where the offset in its place leads. -/
def readMember (data : Bytes) (start : Nat) (type : AbiType) (position : Nat) : Read :=
  if type.isDynamic then readTail data start (decode data type) position
  else decode data type position

theorem readItems_eq (data : Bytes) (start : Nat) (type : AbiType) (count position : Nat) :
    readItems (readMember data start type) count position =
      decodeMembers data start (List.replicate count type) position := by
  induction count generalizing position with
  | zero => rfl
  | succ count ih =>
    simp only [readItems, List.replicate_succ, decodeMembers, readMember, ih]
    split <;> rfl

theorem checkOffsets_eq {type : AbiType} (h : type.isDynamic = true) (data : Bytes)
    (start slots count position : Nat) :
    checkOffsets data start slots count position =
      scanHead data start slots (List.replicate count type) position := by
  induction count generalizing position with
  | zero => rfl
  | succ count ih => rw [checkOffsets, List.replicate_succ, scanHead, if_pos h, ih]

/-- An array is read like a tuple of so many components of its type. -/
theorem readArray_of_members {data : Bytes} {type : AbiType} {count start next : Nat}
    {items : List Datum}
    (hscan : scanHead data start count (List.replicate count type) start = .ok ())
    (hmembers : decodeMembers data start (List.replicate count type) start = .ok (items, next)) :
    readArray data type.isDynamic (decode data type) count start = .ok (.list items, next) := by
  rw [← readItems_eq] at hmembers
  unfold readArray
  cases hdynamic : type.isDynamic with
  | true =>
    have hread : readMember data start type = readTail data start (decode data type) :=
      funext fun position => if_pos hdynamic
    rw [hread] at hmembers
    rw [if_pos rfl, checkOffsets_eq hdynamic, hscan, hmembers]
    rfl
  | false =>
    have hread : readMember data start type = decode data type :=
      funext fun position => if_neg (by rw [hdynamic]; exact Bool.false_ne_true)
    rw [hread] at hmembers
    rw [if_neg Bool.false_ne_true, hmembers]
    rfl

end ContractHost.Abi
