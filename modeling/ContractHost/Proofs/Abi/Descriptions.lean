import ContractHost.Abi.Description
import ContractHost.Proofs.Abi.TypeTexts

/-!
# Types in descriptions

A contract's description names a type by its text, but for tuples: these are called tuples, and their
components are described one by one.

* `Describes`: a parameter that describes a type.
* `Describes.canonicalType`: the type in full is the text of the type that is described.
* `index_name_of_findEntry`: an entry that is found by a name has it.
-/

namespace ContractHost.Abi

theorem parenthesised_ofChars (texts : List (List Char)) :
    parenthesised (texts.map Text.ofChars) =
      ('(' :: commaSeparated texts ++ [')']).map Letter.char := by
  rw [parenthesised, TypeText.separated_ofChars, List.map_append, List.map_cons, List.map_singleton]

namespace AbiType

/-- The components of the tuples that stand in the arrays of a type, or of the type itself. -/
def components? : AbiType → Option (List AbiType)
  | .tuple components => some components
  | .array item _ => item.components?
  | _ => none

/-- The array parts at the end of a type's text. -/
def arrayParts : AbiType → List Char
  | .array item size => item.arrayParts ++ TypeText.sizeText size
  | _ => []

theorem text_array (item : AbiType) (size : Option Nat) :
    (array item size).text = item.text ++ TypeText.sizeText size := rfl

theorem text_tuple (components : List AbiType) :
    (tuple components).text = '(' :: commaSeparated (components.map text) ++ [')'] := by
  have htexts (types : List AbiType) : TypeText.texts (writtenAll types) = types.map text := by
    induction types with
    | nil => rfl
    | cons type rest ih => rw [writtenAll, TypeText.texts, ih, List.map_cons, text]
  rw [text, written, TypeText.text, htexts]

theorem text_of_components {type : AbiType} {components : List AbiType}
    (h : type.components? = some components) :
    type.text = '(' :: commaSeparated (components.map text) ++ ')' :: type.arrayParts := by
  induction type using components?.induct with
  | case1 components' =>
    cases h
    exact text_tuple components
  | case2 item size ih =>
    rw [text_array, ih h, arrayParts, List.append_assoc]
    rfl
  | case3 type => simp_all [components?]

/-- The text of a type without tuples does not begin like that of a tuple. -/
theorem text_of_no_components {type : AbiType} (h : type.components? = none) :
    ∃ c rest, type.text = c :: rest ∧ c ≠ 't' := by
  induction type using components?.induct with
  | case1 components => cases h
  | case2 item size ih =>
    obtain ⟨c, rest, htext, hc⟩ := ih h
    exact ⟨c, rest ++ TypeText.sizeText size, by rw [text_array, htext, List.cons_append], hc⟩
  | case3 type htuple harray =>
    cases type with
    | tuple components => exact absurd rfl (htuple components)
    | array item size => exact absurd rfl (harray item size)
    | _ => exact ⟨_, _, rfl, by decide⟩

end AbiType

/-- A parameter that describes a type: by the type's text, or as a tuple with the descriptions of its
components. -/
inductive Describes : Value → AbiType → Prop
  | named {fields : List (Text × Value)} {type : AbiType} (hsingle : type.components? = none)
    (htype : Value.field? fields "type" = some (.text (.ofChars type.text))) :
    Describes (.table fields) type
  | tuple {fields : List (Text × Value)} {type : AbiType} {components : List AbiType}
    {params : List Value} (hsome : type.components? = some components)
    (htype : Value.field? fields "type" =
      some (.text (.ofChars ("tuple".toList ++ type.arrayParts))))
    (hparams : Value.field? fields "components" = some (.list params))
    (hlength : params.length = components.length)
    (h : ∀ pair ∈ params.zip components, Describes pair.1 pair.2) : Describes (.table fields) type

section Fields

variable {fields : List (Text × Value)} {type : Text}
  (htype : Value.field? fields "type" = some (.text type))
include htype

theorem canonicalType_named (h : ¬"tuple".toList <+: type.chars) :
    canonicalType (.table fields) = .ok type := by
  rw [← List.isPrefixOf_iff_prefix] at h
  rw [canonicalType]
  simp only [htype, if_neg h]

theorem canonicalType_tuple {params : List Value} {suffix : List Char}
    (h : type = .ofChars ("tuple".toList ++ suffix))
    (hparams : Value.field? fields "components" = some (.list params)) :
    canonicalType (.table fields) = do
      return .ofLetters (parenthesised (← params.mapM canonicalType) ++ suffix.map .char) := by
  have hstart : "tuple".toList.isPrefixOf type.chars = true := by
    rw [h, Text.chars_ofChars]
    exact List.isPrefixOf_iff_prefix.2 ⟨suffix, rfl⟩
  have hsuffix : type.letters.drop 5 = suffix.map .char := by
    rw [h, Text.letters_ofChars]
    rfl
  rw [canonicalType]
  simp only [htype, hstart, if_true, hsuffix]
  have hall : params.attach.mapM (fun param => canonicalType param.1) = params.mapM canonicalType := by
    conv_rhs => rw [← List.attach_map_subtype_val params]
    exact List.mapM_map.symm
  split
  · rename_i hnone
    rw [hparams] at hnone
    cases hnone
  · rename_i params' hsome
    rw [hparams] at hsome
    cases hsome
    rw [hall]
  · rename_i other hlist hsome
    rw [hparams] at hsome
    cases hsome
    exact absurd rfl (hlist params)

end Fields

/-- The type in full is the text of the type that is described. -/
theorem Describes.canonicalType {param : Value} {type : AbiType} (h : Describes param type) :
    canonicalType param = .ok (.ofChars type.text) := by
  induction h with
  | @named fields type hsingle htype =>
    obtain ⟨c, rest, htext, hc⟩ := AbiType.text_of_no_components hsingle
    have hstart : ¬"tuple".toList <+: type.text := by
      rw [htext]
      rintro ⟨more, hmore⟩
      exact hc (List.cons.inj hmore).1.symm
    rw [← Text.chars_ofChars type.text] at hstart
    exact canonicalType_named htype hstart
  | @tuple fields type components params hsome htype hparams hlength _ ih =>
    have hcomponents : params.mapM Abi.canonicalType =
        .ok ((components.map AbiType.text).map Text.ofChars) := by
      rw [mapM_eq_ok_iff, List.map_map, List.forall₂_map_right_iff]
      exact forall₂_of_zip hlength ih
    rw [canonicalType_tuple htype rfl hparams, hcomponents]
    simp only [bind, Except.bind, pure, Except.pure]
    rw [parenthesised_ofChars, ← List.map_append, Text.ofLetters_chars,
      AbiType.text_of_components hsome, List.append_assoc]
    rfl

/-! ## Entries -/

theorem answers_of_findFrom {kind : String} {name : Option Text} {place : Nat}
    {entries : List Value} {found : Nat × Value}
    (h : findFrom kind name place entries = .ok (some found)) :
    answers found.2 kind name = .ok true := by
  induction entries generalizing place with
  | nil => cases h
  | cons entry rest ih =>
    rw [findFrom] at h
    obtain ⟨is, his, h⟩ := bind_eq_ok_iff.1 h
    cases is with
    | true =>
      cases h
      exact his
    | false => exact ih h

theorem exists_of_getD_eq_ok {value default found : Value} {name : String}
    (h : value.getD name default = .ok found) :
    ∃ fields, value = .table fields ∧ (Value.field? fields name).getD default = found := by
  cases value with
  | table fields => exact ⟨fields, rfl, Except.ok.inj h⟩
  | _ => cases h

theorem index_name_of_answers {entry : Value} {kind : String} {name : Text}
    (h : answers entry kind (some name) = .ok true) : entry.index "name" = .ok (.text name) := by
  obtain ⟨is, -, h⟩ := bind_eq_ok_iff.1 h
  split at h
  · obtain ⟨value, hvalue, hname⟩ := bind_eq_ok_iff.1 h
    have htext : value = .text name := by
      cases value <;> simp_all [isText]
    obtain ⟨fields, rfl, hfield⟩ := exists_of_getD_eq_ok hvalue
    rw [htext, Option.getD_eq_iff] at hfield
    obtain hfield | ⟨-, hnull⟩ := hfield
    · rw [Value.index, hfield]
    · cases hnull
  · cases h

theorem index_name_of_findEntry {entries : List Value} {kind : String} {name : Text} {entry : Value}
    (h : findEntry entries kind (some name) = .ok entry) : entry.index "name" = .ok (.text name) := by
  obtain ⟨found, hfound, hentry⟩ := bind_eq_ok_iff.1 h
  obtain ⟨found?, hplace, hfound⟩ := bind_eq_ok_iff.1 hfound
  cases found? with
  | none => cases hfound
  | some place =>
    cases hfound
    cases hentry
    exact index_name_of_answers (answers_of_findFrom (mapError_eq_ok_iff.1 hplace))

end ContractHost.Abi
