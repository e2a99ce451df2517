import ContractHost.Abi.Call
import ContractHost.Proofs.Abi.Inverse
import ContractHost.Proofs.Abi.Spelling

/-!
# Texts to data and back

Value texts that have an encoding under their types' texts come back from it, up to what decoding fills
up, and the texts of what they then show have the same encoding.

* `decodeTypes_encodeTypes`: values come back from their encoding.
* `encodeParams_spelled`: the texts of what is decoded are encoded as the same data.
-/

namespace ContractHost.Abi

variable {coders : List AbiType} {values : List Datum} {data : Bytes}

/-! ## Values -/

section

variable {types : List (List Char)}

/-- The types that texts mean. -/
def Means (types : List (List Char)) (coders : List AbiType) : Prop :=
  List.Forall₂ (fun text type => AbiType.ofText text = .ok type) types coders

theorem Means.proper (h : Means types coders) : ∀ type ∈ coders, type.Proper := by
  intro type htype
  obtain ⟨text, -, hread⟩ := exists_of_mem_right h htype
  exact AbiType.proper_of_ofText hread

theorem encodeTypes_eq_ok_iff : encodeTypes types values = .ok data ↔
    ∃ coders, Means types coders ∧ encodeAll coders values = .ok data := by
  simp only [encodeTypes, mapError_eq_ok_iff, bind_eq_ok_iff, mapM_eq_ok_iff]
  rfl

theorem decodeTypes_eq_ok_iff : decodeTypes types data = .ok values ↔
    ∃ coders, Means types coders ∧ decodeAll coders data = .ok values := by
  simp only [decodeTypes, mapError_eq_ok_iff, bind_eq_ok_iff, mapM_eq_ok_iff]
  rfl

/-- Values come back from their encoding, and what comes back has the same encoding. -/
theorem decodeTypes_encodeTypes (h : encodeTypes types values = .ok data) :
    ∃ coders, Means types coders ∧ List.Forall₂ Fits coders values ∧
      decodeTypes types data = .ok (settledMembers coders values) ∧
      encodeTypes types (settledMembers coders values) = .ok data := by
  obtain ⟨coders, hmeans, hencode⟩ := encodeTypes_eq_ok_iff.1 h
  obtain ⟨hdecode, hsame⟩ := decodeAll_encodeAll hmeans.proper hencode
  obtain ⟨hfits, -⟩ := encodeAll_eq_ok_iff.1 hencode
  exact ⟨coders, hmeans, hfits, decodeTypes_eq_ok_iff.2 ⟨coders, hmeans, hdecode⟩,
    encodeTypes_eq_ok_iff.2 ⟨coders, hmeans, hsame⟩⟩

end

/-! ## Texts -/

section

variable {types texts : List Text}

theorem encodeParams_eq_ok_iff {lenient : Bool} : encodeParams types texts lenient = .ok data ↔
    types.length = texts.length ∧ ∃ values,
      List.Forall₂ (fun pair value => parse lenient pair.1 pair.2 = .ok value) (types.zip texts) values ∧
        encodeTypes (types.map Text.chars) values = .ok data := by
  unfold encodeParams
  by_cases hlength : types.length = texts.length
  · rw [if_neg (not_not_intro hlength), bind_eq_ok_iff]
    simp only [mapM_eq_ok_iff]
    exact ⟨fun h => ⟨hlength, h⟩, And.right⟩
  · rw [if_pos hlength]
    exact ⟨nofun, fun h => absurd h.1 hlength⟩

theorem readsBack_settled {type text : Text} {value : Datum} {coder : AbiType}
    (hstring : type.chars = "string".toList ∨ beginsWith type.chars "string".toList = false)
    (hparse : parse true type text = .ok value) (fits : Fits coder value) (proper : coder.Proper) :
    ReadsBack type (settled coder value) := by
  rcases hstring with hname | hstring
  · have hends : endsWithBracket type.chars = false := by rw [hname]; decide
    have hread (text : Text) : parse true type text = .ok (.string text) := by
      rw [parse_single hends]
      refine Reads.parseSingle ?_
      rw [hname]
      exact .string
    obtain rfl : Datum.string text = value := Except.ok.inj ((hread text).symm.trans hparse)
    cases fits
    exact hread text
  · exact (spells_of_parse hparse hstring fits proper).read

theorem forall₂_readsBack
    (hstrings : ∀ type ∈ types,
      type.chars = "string".toList ∨ beginsWith type.chars "string".toList = false)
    (hlength : types.length = texts.length)
    (hparse : List.Forall₂ (fun pair value => parse true pair.1 pair.2 = .ok value)
      (types.zip texts) values)
    (hmeans : Means (types.map Text.chars) coders) (hfits : List.Forall₂ Fits coders values) :
    List.Forall₂ ReadsBack types (settledMembers coders values) := by
  rw [Means, List.forall₂_map_left_iff] at hmeans
  induction hmeans generalizing texts values with
  | nil =>
    rw [List.forall₂_nil_left_iff.1 hfits]
    exact .nil
  | @cons type coder types coders hcoder hrest ih =>
    obtain ⟨value, values, hvalue, hvalues, rfl⟩ := List.forall₂_cons_left_iff.1 hfits
    obtain ⟨text, texts, rfl⟩ := List.exists_cons_of_length_eq_add_one hlength.symm
    obtain ⟨hfirst, hmore⟩ := List.forall₂_cons.1 hparse
    obtain ⟨hstring, hstrings⟩ := List.forall_mem_cons.1 hstrings
    rw [settledMembers]
    exact .cons (readsBack_settled hstring hfirst hvalue (AbiType.proper_of_ofText hcoder))
      (ih hstrings (Nat.succ.inj hlength) hmore hvalues)

theorem parse_spelled (h : List.Forall₂ ReadsBack types values) :
    List.Forall₂ (fun pair value => parse true pair.1 pair.2 = .ok value)
      (types.zip (((types.zip values).map fun (type, value) =>
        (type, Shown.ofDatum type.chars value)).map fun entry => entry.2.spelled)) values := by
  induction h with
  | nil => exact .nil
  | cons hfirst _ ih => exact .cons hfirst ih

theorem decodeParams_of_data {source : Source} (hsource : source.data = .ok data)
    (h : decodeTypes (types.map Text.chars) data = .ok values) : decodeParams types source =
      .ok ((types.zip values).map fun (type, value) => (type, Shown.ofDatum type.chars value)) := by
  simp only [decodeParams, hsource, bind, Except.bind, h]
  rfl

/-- Value texts that have an encoding, with text only where a type is text as a whole, come back from it
as one entry for each type; and what the entries show is, in text, encoded as the same data. -/
theorem encodeParams_spelled
    (hstrings : ∀ type ∈ types,
      type.chars = "string".toList ∨ beginsWith type.chars "string".toList = false)
    (h : encodeParams types texts true = .ok data) :
    ∃ entries, decodeParams types (.raw data) = .ok entries ∧ entries.map Prod.fst = types ∧
      encodeParams types (entries.map fun entry => entry.2.spelled) true = .ok data := by
  obtain ⟨hlength, values, hparse, hencode⟩ := encodeParams_eq_ok_iff.1 h
  obtain ⟨coders, hmeans, hfits, hdecode, hsame⟩ := decodeTypes_encodeTypes hencode
  have hread := forall₂_readsBack hstrings hlength hparse hmeans hfits
  refine ⟨_, decodeParams_of_data rfl hdecode, ?_,
    encodeParams_eq_ok_iff.2 ⟨?_, _, parse_spelled hread, hsame⟩⟩
  · rw [List.map_map]
    exact List.map_fst_zip (Nat.le_of_eq hread.length_eq)
  · rw [List.length_map, List.length_map, List.length_zip, ← hread.length_eq, Nat.min_self]

end

/-- White space, capitals, a missing mark and missing bytes are gone from the texts that come back. -/
theorem encodeParams_spelled_bytes :
    ∃ data, encodeParams ["bytes4[]", "string"] ["[ 0xAB, \"cd\"]", " hi"] true = .ok data ∧
      ∃ entries, decodeParams ["bytes4[]", "string"] (.raw data) = .ok entries ∧
        entries.map Prod.fst = ["bytes4[]", "string"] ∧
        encodeParams ["bytes4[]", "string"] (entries.map fun entry => entry.2.spelled) true =
          .ok data := by
  have hencode : encodeParams ["bytes4[]", "string"] ["[ 0xAB, \"cd\"]", " hi"] true =
      .ok (numberWord 64 ++ numberWord 160 ++
        (numberWord 2 ++ Bytes.padRight 32 [0xab] ++ Bytes.padRight 32 [0xcd]) ++
        counted [0x20, 0x68, 0x69]) := by
    decide +kernel
  exact ⟨_, hencode, encodeParams_spelled (by decide) hencode⟩

end ContractHost.Abi
