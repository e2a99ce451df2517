import ContractHost.CommandLine.Run
import ContractHost.Proofs.Abi.Logs
import ContractHost.Proofs.Abi.Readings
import ContractHost.Proofs.State.Numbers

/-!
# Decoded values in JSON

What the commands that decode values print is JSON made of texts, truth values, lists and tables, unless a
number with a fixed point is among the values: such a number is shown as a decimal fraction, for which JSON
has no form here, and nothing handles the fault. Wherever the number stands in arrays and tuples, it is not
lost on the way.

* `Datum.Fractional`, `Shown.Fractional`: values with a number that has a fixed point.
* `fractional_ofDatum`: such a number is shown under every text of its type.
* `Prints`: what is printed of decoded values.
* `report_decoding`: the commands that decode.
-/

namespace ContractHost

/-- A document of texts, truth values, lists and tables. -/
inductive Value.Printable : Value → Prop
  | bool (b : Bool) : Printable (.bool b)
  | text (t : Text) : Printable (.text t)
  | list {items : List Value} (h : ∀ item ∈ items, Printable item) : Printable (.list items)
  | table {fields : List (Text × Value)} (h : ∀ field ∈ fields, Printable field.2) :
    Printable (.table fields)

/-- Whatever is printable can be written. -/
theorem Value.Printable.writable {v : Value} (h : v.Printable) : Json.writable v = true := by
  induction h with
  | bool b => rfl
  | text s => rfl
  | list _ ih => exact Json.writableItems_iff.2 ih
  | table _ ih => exact Json.writableFields_iff.2 ih

theorem exists_of_mapM_eq_none {α β : Type} {f : α → Option β} {items : List α}
    (h : items.mapM f = none) : ∃ a ∈ items, f a = none := by
  induction items with
  | nil => cases h
  | cons a rest ih =>
    rw [List.mapM_cons] at h
    cases ha : f a with
    | none => exact ⟨a, List.mem_cons_self, ha⟩
    | some b =>
      cases hrest : rest.mapM f with
      | none =>
        obtain ⟨other, hmem, hnone⟩ := ih hrest
        exact ⟨other, List.mem_cons_of_mem a hmem, hnone⟩
      | some results =>
        rw [ha, hrest] at h
        cases h

theorem forall₂_of_mapM_eq_some {α β : Type} {f : α → Option β} {items : List α} {results : List β}
    (h : items.mapM f = some results) : List.Forall₂ (fun a b => f a = some b) items results := by
  induction items generalizing results with
  | nil =>
    cases h
    exact .nil
  | cons a rest ih =>
    rw [List.mapM_cons] at h
    obtain ⟨b, hb, h⟩ := Option.bind_eq_some_iff.1 h
    obtain ⟨more, hmore, h⟩ := Option.bind_eq_some_iff.1 h
    cases h
    exact .cons hb (ih hmore)

theorem forall₂_comp {α β γ : Type} {R : α → β → Prop} {S : β → γ → Prop} {T : α → γ → Prop}
    {as : List α} {bs : List β} {cs : List γ} (h : List.Forall₂ R as bs) (h' : List.Forall₂ S bs cs)
    (hcomp : ∀ a ∈ as, ∀ b c, R a b → S b c → T a c) : List.Forall₂ T as cs := by
  induction h generalizing cs with
  | nil =>
    rw [List.forall₂_nil_left_iff.1 h']
    exact .nil
  | @cons a b as bs hab _ ih =>
    obtain ⟨c, cs, hbc, hrest, rfl⟩ := List.forall₂_cons_left_iff.1 h'
    obtain ⟨hfirst, hmore⟩ := List.forall_mem_cons.1 hcomp
    exact .cons (hfirst b c hab hbc) (ih hrest hmore)

namespace Abi

/-! ## Numbers with a fixed point -/

/-- A number with a fixed point is in a value. -/
inductive Datum.Fractional : Datum → Prop
  | fraction (n : Int) (places : Nat) : Fractional (.fraction n places)
  | list {items : List Datum} {item : Datum} (hitem : item ∈ items) (h : Fractional item) :
    Fractional (.list items)

namespace Shown

/-- A decimal fraction is in what is shown. -/
inductive Fractional : Shown → Prop
  | decimal (n : Int) (places : Nat) : Fractional (.decimal n places)
  | list {items : List Shown} {item : Shown} (hitem : item ∈ items) (h : Fractional item) :
    Fractional (.list items)

theorem not_fractional_bool (b : Bool) : ¬(bool b).Fractional := by
  intro h
  cases h

theorem not_fractional_text (t : Text) : ¬(text t).Fractional := by
  intro h
  cases h

/-- Induction on what is shown, where the items of a list come together. -/
@[elab_as_elim]
theorem induct {motive : Shown → Prop} (bool : ∀ b, motive (.bool b)) (text : ∀ s, motive (.text s))
    (decimal : ∀ n places, motive (.decimal n places))
    (list : ∀ items, (∀ item ∈ items, motive item) → motive (.list items)) : ∀ shown, motive shown
  | .bool b => bool b
  | .text s => text s
  | .decimal n places => decimal n places
  | .list items => list items fun item _ => induct bool text decimal list item

theorem toValues?_eq_mapM (items : List Shown) : toValues? items = items.mapM toValue? := by
  induction items with
  | nil => rfl
  | cons item rest ih =>
    rw [toValues?, List.mapM_cons, ih]

/-- What is shown has a printable document, or has a decimal fraction in it and no document. -/
theorem toValue?_cases (shown : Shown) :
    (shown.Fractional ∧ shown.toValue? = none) ∨
      ¬shown.Fractional ∧ ∃ value, shown.toValue? = some value ∧ value.Printable := by
  induction shown using induct with
  | bool b => exact .inr ⟨not_fractional_bool b, _, rfl, .bool b⟩
  | text s => exact .inr ⟨not_fractional_text s, _, rfl, .text s⟩
  | decimal n places => exact .inl ⟨.decimal n places, rfl⟩
  | list items ih =>
    rw [toValue?, toValues?_eq_mapM]
    cases hitems : items.mapM toValue? with
    | none =>
      obtain ⟨item, hitem, hnone⟩ := exists_of_mapM_eq_none hitems
      obtain ⟨hdecimal, -⟩ | ⟨-, value, hvalue, -⟩ := ih item hitem
      · exact .inl ⟨.list hitem hdecimal, rfl⟩
      · cases hnone.symm.trans hvalue
    | some values =>
      have hall := forall₂_of_mapM_eq_some hitems
      refine .inr ⟨?_, .list values, rfl, .list fun value hvalue => ?_⟩
      · rintro (_ | ⟨hitem, hdecimal⟩)
        obtain ⟨value, -, hvalue⟩ := exists_of_mem_right hall.flip hitem
        obtain ⟨-, hnone⟩ | ⟨hno, -⟩ := ih _ hitem
        · cases hnone.symm.trans hvalue
        · exact hno hdecimal
      · obtain ⟨item, hitem, hread⟩ := exists_of_mem_right hall hvalue
        obtain ⟨-, hnone⟩ | ⟨-, found, hfound, hprints⟩ := ih item hitem
        · cases hnone.symm.trans hread
        · cases hread.symm.trans hfound
          exact hprints

theorem toValue?_eq_none_iff {shown : Shown} : shown.toValue? = none ↔ shown.Fractional := by
  obtain ⟨hdecimal, hnone⟩ | ⟨hno, value, hvalue, -⟩ := toValue?_cases shown
  · exact iff_of_true hnone hdecimal
  · rw [hvalue]
    exact iff_of_false (Option.some_ne_none value) hno

theorem printable_of_toValue? {shown : Shown} {value : Value} (h : shown.toValue? = some value) :
    value.Printable := by
  obtain ⟨-, hnone⟩ | ⟨-, found, hfound, hprints⟩ := toValue?_cases shown
  · cases hnone.symm.trans h
  · cases h.symm.trans hfound
    exact hprints

end Shown

/-! ## Values under the texts of their types -/

theorem Shown.fractional_list_iff {items : List Shown} :
    (Shown.list items).Fractional ↔ ∃ item ∈ items, item.Fractional :=
  ⟨fun | .list hitem h => ⟨_, hitem, h⟩, fun ⟨_, hitem, h⟩ => .list hitem h⟩

theorem Datum.fractional_list_iff {items : List Datum} :
    (Datum.list items).Fractional ↔ ∃ item ∈ items, item.Fractional :=
  ⟨fun | .list hitem h => ⟨_, hitem, h⟩, fun ⟨_, hitem, h⟩ => .list hitem h⟩

theorem fractional_single {type : AbiType} (hsingle : type.isSingle = true) {value : Datum}
    (fits : Fits type value) (text : List Char) :
    (Shown.ofDatum text value).Fractional ↔ value.Fractional := by
  cases fits with
  | ufixed | fixed => exact iff_of_true (.decimal ..) (.fraction ..)
  | array | tuple => cases hsingle
  | bool b =>
    refine iff_of_false ?_ (by intro h; cases h)
    rw [Shown.ofDatum, Shown.single]
    split
    · exact Shown.not_fractional_bool b
    · exact Shown.not_fractional_text _
  | _ => exact iff_of_false (Shown.not_fractional_text _) (by intro h; cases h)

theorem isSingle_of_coderOf {name : String} {suffix : Suffix} {type : AbiType}
    (h : TypeText.coderOf name suffix = .ok type) : type.isSingle = true := by
  unfold TypeText.coderOf at h
  split at h <;> cases h <;> rfl

/-- The members of a tuple show their numbers one by one. -/
theorem fractional_members {texts : List (List Char)} {items : List Datum}
    (h : List.Forall₂ (fun text item => (Shown.ofDatum text item).Fractional ↔ item.Fractional)
      texts items) :
    (∃ shown ∈ Shown.ofMembers texts items, shown.Fractional) ↔ ∃ item ∈ items, item.Fractional := by
  induction h with
  | nil => simp [Shown.ofMembers]
  | cons hfirst _ ih => simp [Shown.ofMembers, hfirst, ih]

/-- A number with a fixed point is shown under the text of its type, wherever it stands. -/
theorem fractional_written {written : TypeText} (h : written.Written) {type : AbiType}
    (hcoder : written.expand.coder = .ok type) {value : Datum} (fits : Fits type value) :
    (Shown.ofDatum written.text value).Fractional ↔ value.Fractional := by
  induction h generalizing type value with
  | @basic name suffix _ hsuffix =>
    obtain ⟨name', suffix', hexpand, -⟩ := AbiType.expandBasic_positive name hsuffix
    rw [TypeText.expand, hexpand, TypeText.coder] at hcoder
    exact fractional_single (isSingle_of_coderOf hcoder) fits _
  | @tuple components hwritten _ ih =>
    rw [TypeText.expand, TypeText.coder, AbiType.expandAll_eq_map] at hcoder
    obtain ⟨types, htypes, htype⟩ := bind_eq_ok_iff.1 hcoder
    cases htype
    rw [AbiType.coders_eq_ok_iff, List.forall₂_map_left_iff] at htypes
    cases fits with
    | @tuple _ items hlength hitems =>
      have hneat : ∀ text ∈ components.map TypeText.text, Neat text := by
        intro text htext
        obtain ⟨component, hcomponent, rfl⟩ := List.mem_map.1 htext
        exact (hwritten component hcomponent).neat
      rw [TypeText.text, TypeText.texts_eq_map, ofDatum_parentheses hneat, Shown.fractional_list_iff,
        Datum.fractional_list_iff]
      refine fractional_members (List.forall₂_map_left_iff.2 ?_)
      exact forall₂_comp htypes (forall₂_of_zip hlength hitems) fun component hcomponent _ _ hcoder fits =>
        ih component hcomponent hcoder fits
  | array _ _ ih =>
    rw [TypeText.expand, TypeText.coder] at hcoder
    obtain ⟨item, hitem, htype⟩ := bind_eq_ok_iff.1 hcoder
    cases htype
    cases fits with
    | @array _ _ items _ hitems =>
      rw [TypeText.text, ofDatum_sizeText, Shown.fractional_list_iff, Datum.fractional_list_iff]
      simp only [List.mem_map, exists_exists_and_eq_and]
      exact exists_congr fun value => and_congr_right fun hvalue => ih hitem (hitems value hvalue)

/-- A number with a fixed point is shown under every text of its type. -/
theorem fractional_ofDatum {text : List Char} {type : AbiType} (h : AbiType.ofText text = .ok type)
    {value : Datum} (fits : Fits type value) :
    (Shown.ofDatum text value).Fractional ↔ value.Fractional := by
  unfold AbiType.ofText at h
  split at h
  · rename_i written hread
    unfold TypeText.resolve at h
    split at h
    · cases h
    · split at h
      · rw [← TypeText.text_of_read? hread]
        exact fractional_written (TypeText.read?_written hread) h fits
      · cases h
  · split at h <;> cases h

/-! ## Entries -/

theorem decodeAll_fits (types : List AbiType) (data : Bytes) :
    Yields (decodeAll types data) (List.Forall₂ Fits types ·) := by
  refine yields_then fun _ => ?_
  refine yields_bind (decodeMembers_fits (fun type _ position => decode_fits type position) 0) ?_
  exact fun found hfound => yields_ok hfound

/-- The entries of values show the numbers of the values. -/
theorem fractional_entries {types : List Text} {values : List Datum}
    (h : List.Forall₂ (fun type value => (Shown.ofDatum type.chars value).Fractional ↔ value.Fractional)
      types values) :
    (∃ entry ∈ (types.zip values).map fun (type, value) => (type, Shown.ofDatum type.chars value),
      entry.2.Fractional) ↔ ∃ value ∈ values, value.Fractional := by
  induction h with
  | nil => simp
  | cons hfirst _ ih =>
    simp only [List.zip_cons_cons, List.map_cons, List.exists_mem_cons_iff, ih, hfirst]

/-- Values that are decoded have an entry for each type, and their numbers with a fixed point are shown. -/
theorem decodeParams_entries {types : List Text} {source : Source} {data : Bytes}
    {values : List Datum} (hsource : source.data = .ok data)
    (h : decodeTypes (types.map Text.chars) data = .ok values) :
    ∃ entries, decodeParams types source = .ok entries ∧ entries.map Prod.fst = types ∧
      ((∃ entry ∈ entries, entry.2.Fractional) ↔ ∃ value ∈ values, value.Fractional) := by
  obtain ⟨coders, hmeans, hdecode⟩ := decodeTypes_eq_ok_iff.1 h
  rw [Means, List.forall₂_map_left_iff] at hmeans
  have hshown : List.Forall₂
      (fun type value => (Shown.ofDatum type.chars value).Fractional ↔ value.Fractional) types values :=
    forall₂_comp hmeans (decodeAll_fits coders data values hdecode) fun _ _ _ _ htype fits =>
      fractional_ofDatum htype fits
  refine ⟨_, decodeParams_of_data hsource h, ?_, fractional_entries hshown⟩
  rw [List.map_map]
  exact List.map_fst_zip (Nat.le_of_eq hshown.length_eq)

end Abi

/-! ## Commands -/

namespace CommandLine

open Abi

/-- What is printed of decoded values. -/
inductive Prints (entries : List (Value × Shown)) : Except CommandError Report → Prop
  /-- JSON with a table for each entry, when no number has a fixed point. -/
  | json (documents : List Value)
    (htables : List.Forall₂ (fun entry document => ∃ value, entry.2.toValue? = some value ∧
      document = .table [(fieldName entry.1, value)]) entries documents)
    (hprintable : (Value.list documents).Printable)
    (hwritable : Json.writable (.list documents) = true)
    (h : ¬∃ entry ∈ entries, entry.2.Fractional) :
    Prints entries (.ok ⟨[Json.write .indented (.list documents)], true⟩)
  /-- Nothing, when a number has a fixed point. -/
  | escapes (h : ∃ entry ∈ entries, entry.2.Fractional) :
    Prints entries (.error (.ofFault .wrongType))

theorem decodedReport_prints (entries : List (Value × Shown)) :
    Prints entries (decodedReport entries) := by
  unfold decodedReport
  simp only
  split
  · rename_i documents hdocuments
    have htables : List.Forall₂ (fun entry document => ∃ value, entry.2.toValue? = some value ∧
        document = .table [(fieldName entry.1, value)]) entries documents := by
      refine (forall₂_of_mapM_eq_some hdocuments).imp fun entry document hread => ?_
      obtain ⟨value, hvalue, rfl⟩ := Option.map_eq_some_iff.1 hread
      exact ⟨value, hvalue, rfl⟩
    have hprintable : (Value.list documents).Printable := by
      refine .list fun document hdocument => ?_
      obtain ⟨entry, -, value, hvalue, rfl⟩ := exists_of_mem_right htables hdocument
      refine .table fun field hfield => ?_
      rw [List.mem_singleton.1 hfield]
      exact Shown.printable_of_toValue? hvalue
    refine .json documents htables hprintable hprintable.writable ?_
    rintro ⟨entry, hentry, hdecimal⟩
    obtain ⟨document, -, value, hvalue, -⟩ := exists_of_mem_right htables.flip hentry
    rw [Shown.toValue?_eq_none_iff.2 hdecimal] at hvalue
    cases hvalue
  · rename_i hnone
    obtain ⟨entry, hentry, hno⟩ := exists_of_mapM_eq_none hnone
    exact .escapes ⟨entry, hentry, Shown.toValue?_eq_none_iff.1 (Option.map_eq_none_iff.1 hno)⟩

/-- A command prints what it decodes, or fails as the decoding does. -/
def Reports (decoded : Except CommandError (List (Value × Shown)))
    (report : Except CommandError Report) : Prop :=
  match decoded with
  | .ok entries => Prints entries report
  | .error e => report = .error e

theorem reports_map {α : Type} (decoded : Except CommandError α)
    (entries : α → List (Value × Shown)) :
    Reports (decoded.map entries) (decoded >>= fun a => decodedReport (entries a)) := by
  cases decoded with
  | ok a => exact decodedReport_prints (entries a)
  | error e => rfl

/-- Decoded parameters have an entry for each type, and show a decimal fraction exactly if a number with a
fixed point is among the values. The commands that decode print JSON with a table for each entry if no
decimal fraction is shown, and let a fault escape if one is; before that they fail only as the decoding
does. -/
theorem report_decoding (types : List Text) (source : Source) (description : List Value)
    (args : Arguments) :
    (∀ data values, source.data = .ok data → decodeTypes (types.map Text.chars) data = .ok values →
      ∃ entries, decodeParams types source = .ok entries ∧ entries.map Prod.fst = types ∧
        ((∃ entry ∈ entries, entry.2.Fractional) ↔ ∃ value ∈ values, value.Fractional)) ∧
      let data := Source.hex ((args.text? "--data").getD "")
      let name := (args.text? "--name").getD ""
      let event := (args.text? "--event").getD ""
      let topics := (args.texts "--param").map Source.hex
      Reports (((decodeParams (args.texts "--type") data).mapError .abi).map withTypes)
        (CodingCommand.decodeParams.report description args) ∧
      Reports (((decodeFunction description name data).mapError (.ofWithFault .abi)).map withTypes)
        (CodingCommand.decodeFunction.report description args) ∧
      Reports ((decodeLog description event topics data).mapError (.ofWithFault .abi))
        (CodingCommand.decodeLog.report description args) := by
  refine ⟨fun data values => decodeParams_entries, ?_, ?_, ?_⟩
  · exact reports_map _ withTypes
  · exact reports_map _ withTypes
  · have hlog := reports_map ((decodeLog description ((args.text? "--event").getD "")
      ((args.texts "--param").map Source.hex) (Source.hex ((args.text? "--data").getD ""))).mapError (CommandError.ofWithFault .abi)) id
    rwa [Except.map_id] at hlog

/-- A number with a fixed point in an array in a tuple. -/
theorem report_decoding_nested :
    ∃ data entries, decodeTypes ["(bool,fixed8x1[])".toList] data =
        .ok [.list [.bool true, .list [.fraction 5 1]]] ∧
      decodeParams ["(bool,fixed8x1[])"] (.raw data) = .ok entries ∧
      ∃ entry ∈ entries, entry.2.Fractional := by
  have hencode : encodeTypes ["(bool,fixed8x1[])".toList] [.list [.bool true, .list [.fraction 5 1]]] =
      .ok (numberWord 32 ++ numberWord 1 ++ numberWord 64 ++ numberWord 1 ++ numberWord 5) := by
    decide +kernel
  have hproper : (AbiType.tuple [.bool, .array (.fixed 8 1) none]).Proper := by
    refine .tuple (List.forall_mem_cons.2 ⟨.bool, List.forall_mem_singleton.2 ?_⟩) (List.cons_ne_nil _ _)
    exact .array (.fixed (by decide) (by decide)) nofun
  have hdecode : decodeTypes ["(bool,fixed8x1[])".toList] _ =
      .ok [.list [.bool true, .list [.fraction 5 1]]] :=
    @decodeTypes_text [.tuple [.bool, .array (.fixed 8 1) none]] (List.forall_mem_singleton.2 hproper)
      _ _ hencode
  obtain ⟨entries, hentries, -, hiff⟩ := (report_decoding [.plain "(bool,fixed8x1[])"] (.raw _) [] []).1 _ _ rfl hdecode
  have hfraction : (Datum.list [.bool true, .list [.fraction 5 1]]).Fractional :=
    .list (.tail _ (.head _)) (.list (.head _) (.fraction 5 1))
  exact ⟨_, entries, hdecode, hentries, hiff.2 ⟨_, List.mem_singleton_self _, hfraction⟩⟩

/-- Zero with a fixed point is decoded, and nothing handles the fault when it is to be printed. -/
theorem report_fraction :
    decodeTypes ["fixed128x18".toList] (List.replicate 32 0) = .ok [.fraction 0 18] ∧
      CodingCommand.decodeParams.report []
        [⟨"--type", ["fixed128x18"]⟩, ⟨"--data", [Hex.encode (List.replicate 32 0)]⟩] =
        .error (.ofFault .wrongType) := by
  have hencode : encodeTypes ["fixed128x18".toList] [.fraction 0 18] = .ok (List.replicate 32 0) := by
    decide +kernel
  have hproper : (AbiType.fixed 128 18).Proper := .fixed (by decide) (by decide)
  have hdecode : decodeTypes ["fixed128x18".toList] (List.replicate 32 0) = .ok [.fraction 0 18] :=
    @decodeTypes_text [.fixed 128 18] (List.forall_mem_singleton.2 hproper) _ _ hencode
  have hsource : (Source.hex (Hex.encode (List.replicate 32 0))).data = .ok (List.replicate 32 0) := by
    rw [Source.data, Source.bytes, Hex.decode_encode]
    rfl
  have hentries : decodeParams ["fixed128x18"] (.hex (Hex.encode (List.replicate 32 0))) =
      .ok [(.plain "fixed128x18", .decimal 0 18)] :=
    @decodeParams_of_data _ _ [.plain "fixed128x18"] _ hsource hdecode
  refine ⟨hdecode, ?_⟩
  show ((decodeParams ["fixed128x18"] (.hex (Hex.encode (List.replicate 32 0)))).mapError
    CommandError.abi >>= fun entries => decodedReport (withTypes entries)) = _
  rw [hentries]
  rfl

end CommandLine

end ContractHost
