import ContractHost.Proofs.Abi.Decoded
import ContractHost.Proofs.Abi.Descriptions
import ContractHost.Proofs.Abi.Spelling

/-!
# Values as their types show them

What a value shows is told by its type: a list for an array, and for a tuple a list with an entry for each
component, by the component's own type. The program has only the text of the type, which it takes apart at
its last bracket, at its outer parentheses and at the commas between them. The text of every type comes
apart into those of its parts, however tuples and arrays stand in one another: inside the parts all
brackets close, and so their commas are no places to cut. Tuples without components are no exception.

* `Renders`: what a value of a type shows, by recursion on the type.
* `neat_text`: the text of a type is a neat part of a longer one.
* `ofDatum_sizeText`, `ofDatum_parentheses`: what is shown under texts with a bracket at the end or
  parentheses around them, such as those of arrays and tuples.
* `canonicalType_renders`: a parameter's values are shown as its type says.
-/

namespace ContractHost.Abi

/-- What a value of a type shows. -/
inductive Renders : AbiType → Datum → Shown → Prop
  | uint (bits : Nat) (n : Int) : Renders (.uint bits) (.int n) (.text (Decimal.intText n))
  | int (bits : Nat) (n : Int) : Renders (.int bits) (.int n) (.text (Decimal.intText n))
  | bool (b : Bool) : Renders .bool (.bool b) (.bool b)
  | address (a : Address) : Renders .address (.address a) (.text (Derivation.checksum a))
  | ufixed (bits places : Nat) (n : Int) :
    Renders (.ufixed bits places) (.fraction n places) (.decimal n places)
  | fixed (bits places : Nat) (n : Int) :
    Renders (.fixed bits places) (.fraction n places) (.decimal n places)
  | bytesN (size : Nat) (bytes : Bytes) : Renders (.bytesN size) (.bytes bytes) (.text (Hex.encode bytes))
  | bytes (bytes : Bytes) : Renders .bytes (.bytes bytes) (.text (Hex.encode bytes))
  | string (text : Text) : Renders .string (.string text) (.text text)
  /-- An entry for each item. -/
  | array {item : AbiType} {size : Option Nat} {items : List Datum} {shown : List Shown}
    (hlength : items.length = shown.length)
    (h : ∀ pair ∈ items.zip shown, Renders item pair.1 pair.2) :
    Renders (.array item size) (.list items) (.list shown)
  /-- An entry for each component. -/
  | tuple {types : List AbiType} {items : List Datum} {shown : List Shown}
    (hitems : types.length = items.length) (hshown : types.length = shown.length)
    (h : ∀ entry ∈ types.zip (items.zip shown), Renders entry.1 entry.2.1 entry.2.2) :
    Renders (.tuple types) (.list items) (.list shown)

/-! ## Texts of types as parts -/

theorem neat_basic {name : String} (hsome : name.toList ≠ []) (hname : name.toList.all isPlain = true)
    (suffix : Suffix) : Neat (TypeText.basic name suffix).text :=
  .plain (List.append_ne_nil_of_left_ne_nil hsome _) (isPlain_basic hname suffix)

theorem neat_sizeText (size : Option Nat) : Neat (TypeText.sizeText size) := by
  cases size with
  | none =>
    show Neat (bracketed [])
    exact .bracketed nofun
  | some n =>
    have hdigits : Neat (Decimal.digits n) := neat_intChars n
    have hbracketed : TypeText.sizeText (some n) = bracketed [Decimal.digits n] := by
      rw [bracketed, TypeText.commaSeparated_one, TypeText.sizeText]
    rw [hbracketed]
    exact .bracketed (List.forall_mem_singleton.2 hdigits)

/-- The text of a type is a neat part of a longer one. -/
theorem neat_text (type : AbiType) : Neat type.text := by
  induction type using AbiType.induct with
  | single type hsingle =>
    cases type with
    | array item size => cases hsingle
    | tuple components => cases hsingle
    | _ => exact neat_basic (by decide) (by decide) _
  | array item size ih =>
    rw [AbiType.text_array]
    exact ih.append (neat_sizeText size)
  | tuple components ih =>
    rw [AbiType.text_tuple]
    refine .enclosed (.inr rfl) (.inr rfl) fun text htext => ?_
    obtain ⟨type, htype, rfl⟩ := List.mem_map.1 htext
    exact ih type htype

/-! ## Texts of types taken apart -/

/-- The text before a bracket with no other one behind it. -/
theorem beforeLastBracket?_append {front part : List Char} (h : '[' ∉ part) :
    beforeLastBracket? (front ++ '[' :: part) = some front := by
  have hout : ∀ c ∈ part.reverse, decide (c ≠ '[') = true := fun c hc =>
    decide_eq_true fun hbracket => h (List.mem_reverse.1 (hbracket ▸ hc))
  have hdrop : (front ++ '[' :: part).reverse.dropWhile (seen · ≠ '[') = '[' :: front.reverse := by
    rw [List.reverse_append, List.reverse_cons, List.append_assoc]
    simp only [seen_char]
    rw [List.dropWhile_append_of_pos hout]
    rfl
  rw [beforeLastBracket?, hdrop]
  exact congrArg some (List.reverse_reverse front)

theorem exists_sizeText (size : Option Nat) :
    ∃ part, TypeText.sizeText size = '[' :: part ∧ '[' ∉ part ∧ part.getLast? = some ']' := by
  cases size with
  | none => exact ⟨[']'], rfl, by decide, rfl⟩
  | some n =>
    refine ⟨Decimal.digits n ++ [']'], rfl, fun hmem => ?_, List.getLast?_concat ..⟩
    rcases List.mem_append.1 hmem with hdigit | hbracket
    · exact nomatch isPlain_of_mem_digits hdigit
    · exact absurd hbracket (by decide)

/-- A text with the size of an array after it ends with a bracket, and comes apart before the size. -/
theorem sizeText_apart (front : List Char) (size : Option Nat) :
    endsWithBracket (front ++ TypeText.sizeText size) = true ∧
      beforeLastBracket? (front ++ TypeText.sizeText size) = some front := by
  obtain ⟨part, hpart, hout, hlast⟩ := exists_sizeText size
  rw [hpart]
  refine ⟨decide_eq_true ?_, beforeLastBracket?_append hout⟩
  rw [List.getLast?_append_of_ne_nil _ (List.cons_ne_nil _ _), List.getLast?_cons, hlast]
  rfl

theorem insideTuple_parentheses (body : List Char) :
    Shown.insideTuple ('(' :: body ++ [')']) = body := by
  simp [Shown.insideTuple]

/-- Texts in parentheses end with no bracket, and come apart at the commas inside. -/
theorem parentheses_apart {texts : List (List Char)} (h : ∀ text ∈ texts, Neat text) :
    endsWithBracket ('(' :: commaSeparated texts ++ [')']) = false ∧
      splitItems (Shown.insideTuple ('(' :: commaSeparated texts ++ [')'])) = texts := by
  refine ⟨decide_eq_false ?_, ?_⟩
  · rw [List.getLast?_concat]
    decide
  · rw [insideTuple_parentheses]
    exact splitItems_commaSeparated h

/-- What is shown of a list under a text that comes apart before a size. -/
theorem ofDatum_sizeText (front : List Char) (size : Option Nat) (items : List Datum) :
    Shown.ofDatum (front ++ TypeText.sizeText size) (.list items) =
      .list (items.map (Shown.ofDatum front)) := by
  obtain ⟨hends, hinner⟩ := sizeText_apart front size
  rw [Shown.ofDatum, if_pos hends, hinner, Option.getD_some, Shown.ofItems_eq_map]

/-- What is shown of a list under texts in parentheses. -/
theorem ofDatum_parentheses {texts : List (List Char)} (h : ∀ text ∈ texts, Neat text)
    (items : List Datum) :
    Shown.ofDatum ('(' :: commaSeparated texts ++ [')']) (.list items) =
      .list (Shown.ofMembers texts items) := by
  obtain ⟨hends, hmembers⟩ := parentheses_apart h
  rw [Shown.ofDatum, hends, if_neg Bool.false_ne_true, hmembers]

theorem ofDatum_array (item : AbiType) (size : Option Nat) (items : List Datum) :
    Shown.ofDatum (AbiType.array item size).text (.list items) =
      .list (items.map (Shown.ofDatum item.text)) := by
  rw [AbiType.text_array, ofDatum_sizeText]

theorem ofDatum_tuple (types : List AbiType) (items : List Datum) :
    Shown.ofDatum (AbiType.tuple types).text (.list items) =
      .list (Shown.ofMembers (types.map AbiType.text) items) := by
  rw [AbiType.text_tuple]
  refine ofDatum_parentheses (fun text htext => ?_) items
  obtain ⟨type, -, rfl⟩ := List.mem_map.1 htext
  exact neat_text type

/-! ## What is shown -/

/-- What the members of a tuple show are entries that stand for them one by one. -/
theorem ofMembers_eq_iff {types : List AbiType} {items : List Datum}
    (hitems : types.length = items.length) {shown : List Shown} :
    Shown.ofMembers (types.map AbiType.text) items = shown ↔
      types.length = shown.length ∧ ∀ entry ∈ types.zip (items.zip shown),
        Shown.ofDatum entry.1.text entry.2.1 = entry.2.2 := by
  induction types generalizing items shown with
  | nil =>
    cases shown with
    | nil => simp [Shown.ofMembers]
    | cons first rest => simp [Shown.ofMembers]
  | cons type types ih =>
    obtain ⟨item, items, rfl⟩ := List.exists_cons_of_length_eq_add_one hitems.symm
    rw [List.map_cons, Shown.ofMembers]
    cases shown with
    | nil => simp
    | cons first rest => simp [ih (Nat.succ.inj hitems), and_left_comm]

theorem mem_zip_of_mem_zip {α β γ : Type} {as : List α} {bs : List β} {cs : List γ} {entry : α × β × γ}
    (h : entry ∈ as.zip (bs.zip cs)) : (entry.1, entry.2.1) ∈ as.zip bs := by
  induction as generalizing bs cs with
  | nil => cases h
  | cons a as ih =>
    cases bs with
    | nil => cases h
    | cons b bs =>
      cases cs with
      | nil => cases h
      | cons c cs =>
        rcases List.mem_cons.1 h with rfl | h
        · exact List.mem_cons_self
        · exact List.mem_cons_of_mem _ (ih h)

/-- Values of a type show what the type says. -/
theorem renders_ofDatum {type : AbiType} {value : Datum} (h : Fits type value) :
    Renders type value (Shown.ofDatum type.text value) := by
  induction h with
  | @uint bits n _ => exact .uint bits n
  | @int bits n _ => exact .int bits n
  | @ufixed bits places n _ => exact .ufixed bits places n
  | @fixed bits places n _ => exact .fixed bits places n
  | bool b => exact .bool b
  | address a => exact .address a
  | @bytesN size bytes _ => exact .bytesN size bytes
  | bytes bytes => exact .bytes bytes
  | string text => exact .string text
  | @array item size items _ _ ih =>
    rw [ofDatum_array]
    refine .array (List.length_map _).symm fun pair hpair => ?_
    have hshown : List.Forall₂ (Renders item) items (items.map (Shown.ofDatum item.text)) := by
      rw [List.forall₂_map_right_iff, List.forall₂_same]
      exact ih
    exact (List.forall₂_iff_zip.1 hshown).2 hpair
  | @tuple types items hlength _ ih =>
    rw [ofDatum_tuple]
    obtain ⟨hshown, hentries⟩ := (ofMembers_eq_iff hlength).1 rfl
    refine .tuple hlength hshown fun entry hentry => ?_
    rw [← hentries entry hentry]
    exact ih _ (mem_zip_of_mem_zip hentry)

theorem Renders.ofDatum_eq {type : AbiType} {value : Datum} {shown : Shown}
    (h : Renders type value shown) : Shown.ofDatum type.text value = shown := by
  induction h with
  | @array item size items shown hlength _ ih =>
    have hentries : List.Forall₂ (fun value entry => Shown.ofDatum item.text value = entry) items shown :=
      forall₂_of_zip hlength ih
    have hshown : items.map (Shown.ofDatum item.text) = shown := by
      rwa [← List.forall₂_eq_eq_eq, List.forall₂_map_left_iff]
    rw [ofDatum_array, hshown]
  | tuple hitems hshown _ ih =>
    rw [ofDatum_tuple, (ofMembers_eq_iff hitems).2 ⟨hshown, ih⟩]
  | _ => rfl

/-- The values of a type that a parameter describes are shown, under the parameter's type in full, as the
type says: each list has an entry for each item or component, by its own type. Every value that is decoded
is one of these. -/
theorem canonicalType_renders {param : Value} {type : AbiType} (h : Describes param type) :
    ∃ text, canonicalType param = .ok text ∧
      (∀ value, Fits type value →
        ∀ shown, Shown.ofDatum text.chars value = shown ↔ Renders type value shown) ∧
      ∀ data position value next, decode data type position = .ok (value, next) → Fits type value := by
  refine ⟨.ofChars type.text, h.canonicalType, fun value hfits shown => ?_, ?_⟩
  · rw [Text.chars_ofChars]
    refine ⟨?_, Renders.ofDatum_eq⟩
    rintro rfl
    exact renders_ofDatum hfits
  · exact fun data position value next hdecode => decode_fits type position _ hdecode

/-- Tuples in an array in a tuple in an array, some of them without components. -/
theorem canonicalType_renders_nested :
    let empty := Value.table [("type", .text "tuple"), ("components", .list [])]
    let flag := Value.table [("type", .text "bool")]
    let pair := Value.table [("type", .text "tuple[2]"), ("components", .list [flag, empty])]
    let count := Value.table [("type", .text "uint8")]
    let param := Value.table [("type", .text "tuple[]"), ("components", .list [count, pair])]
    let type : AbiType := .array (.tuple [.uint 8, .array (.tuple [.bool, .tuple []]) (some 2)]) none
    let value : Datum := .list [.list [.int 7,
      .list [.list [.bool true, .list []], .list [.bool false, .list []]]]]
    Describes param type ∧ Fits type value ∧ canonicalType param = .ok "(uint8,(bool,())[2])[]" ∧
      Renders type value (Shown.ofDatum "(uint8,(bool,())[2])[]".toList value) := by
  intro empty flag pair count param type value
  have hempty : Describes empty (.tuple []) := .tuple rfl rfl rfl rfl nofun
  have hflag : Describes flag .bool := .named rfl rfl
  have hpair : Describes pair (.array (.tuple [.bool, .tuple []]) (some 2)) :=
    .tuple rfl rfl rfl rfl (by simpa using ⟨hflag, hempty⟩)
  have hcount : Describes count (.uint 8) := .named rfl rfl
  have hparam : Describes param type := .tuple rfl rfl rfl rfl (by simpa using ⟨hcount, hpair⟩)
  have hfits : Fits type value := fits_of_check (by decide)
  obtain ⟨text, htext, hshown, -⟩ := canonicalType_renders hparam
  have hfull : canonicalType param = .ok "(uint8,(bool,())[2])[]" := hparam.canonicalType
  obtain rfl : .plain "(uint8,(bool,())[2])[]" = text := Except.ok.inj (hfull.symm.trans htext)
  exact ⟨hparam, hfits, hfull, (hshown value hfits _).1 rfl⟩

end ContractHost.Abi
