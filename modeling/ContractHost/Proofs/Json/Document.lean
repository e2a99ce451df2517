import ContractHost.Proofs.Json.Tokens
import ContractHost.Proofs.OrderedMap

/-!
# Documents that read back

A document without fractions and moments, whose texts need no escapes and whose tables have no field
twice, reads back from its text in either layout, provided that its integers have texts at all. The
budget that the text's length provides is enough: each character pays for a value and for the item or
field that it is.

* `Value.Plain`: such documents.
* `reads_value`: a value at the front of a text.
* `read_write`: a whole text.
-/

namespace ContractHost

mutual

/-- A document of plain texts and integers, with each field of a table under a name of its own. -/
def Value.Plain : Value → Prop
  | .float _ => False
  | .moment _ => False
  | .text s => PlainText s
  | .list items => Value.PlainItems items
  | .table fields => (fields.map Prod.fst).Nodup ∧ Value.PlainFields fields
  | _ => True

/-- A list of such documents. -/
def Value.PlainItems : List Value → Prop
  | [] => True
  | item :: rest => item.Plain ∧ Value.PlainItems rest

/-- Such documents under plain names. -/
def Value.PlainFields : List (Text × Value) → Prop
  | [] => True
  | (name, value) :: rest => PlainText name ∧ value.Plain ∧ Value.PlainFields rest

end

namespace Json

/-! ## Values -/

/-- A value begins with a character that tells it from white space and from the end of a list or a
table. -/
theorem valueChars_front {v : Value} (plain : v.Plain) (layout : Layout) (level : Nat) :
    ∃ c more, valueChars layout level v = c :: more ∧ isSpace c = false ∧ c ≠ ']' ∧ c ≠ '\x7d' := by
  have hdigit : ∀ c : Char, c.isDigit = true → isSpace c = false ∧ c ≠ ']' ∧ c ≠ '\x7d' := by
    intro c hc
    refine ⟨?_, ?_, ?_⟩
    · simp only [isSpace, Bool.or_eq_false_iff, decide_eq_false_iff_not]
      refine ⟨⟨⟨?_, ?_⟩, ?_⟩, ?_⟩ <;> rintro rfl <;> exact absurd hc (by decide)
    · rintro rfl
      exact absurd hc (by decide)
    · rintro rfl
      exact absurd hc (by decide)
  cases v with
  | float x => exact plain.elim
  | moment m => exact plain.elim
  | null => exact ⟨'n', _, rfl, by decide⟩
  | bool b => cases b <;> exact ⟨_, _, rfl, by decide⟩
  | text s => exact ⟨'"', _, rfl, by decide⟩
  | list items => cases items <;> exact ⟨'[', _, rfl, by decide⟩
  | table fields =>
    cases fields with
    | nil => exact ⟨'\x7b', _, rfl, by decide⟩
    | cons field rest => exact ⟨'\x7b', _, rfl, by decide⟩
  | int n =>
    cases n with
    | negSucc k => exact ⟨'-', _, rfl, by decide⟩
    | ofNat k =>
      cases hdigits : Decimal.digits k with
      | nil => exact absurd hdigits (Decimal.digits_ne_nil k)
      | cons c more =>
        have hc : c.isDigit = true := Decimal.isDigit_of_mem_digits (hdigits ▸ List.mem_cons_self)
        exact ⟨c, more, hdigits, hdigit c hc⟩

theorem skipSpace_valueChars {v : Value} (plain : v.Plain) (layout : Layout) (level : Nat)
    (rest : List Letter) :
    skipSpace ((valueChars layout level v).map .char ++ rest) =
      (valueChars layout level v).map .char ++ rest := by
  obtain ⟨c, more, hchars, hspace, -⟩ := valueChars_front plain layout level
  rw [hchars, List.map_cons, List.cons_append, skipSpace_cons hspace]

/-- A value is read back from the front of a text. Two of the budget for each character are enough: a
list or a table takes one for itself and one for each of its items. -/
def Reads (layout : Layout) (level : Nat) (v : Value) : Prop :=
  ∀ (budget : Nat) (rest : List Letter), Stops rest →
    2 * (valueChars layout level v).length ≤ budget →
      readValue budget ((valueChars layout level v).map .char ++ rest) = .ok (v, rest)

theorem stops_of_closing {close rest : List Letter} {bracket : Char} (layout : Layout) (level : Nat)
    (hbracket : isDigit bracket = false ∧ bracket ≠ '.' ∧ bracket ≠ 'e' ∧ bracket ≠ 'E')
    (h : close = (layout.first level).map .char ++ .char bracket :: rest) : Stops close := by
  intro letter more heq
  rw [h] at heq
  cases layout with
  | line =>
    cases heq
    exact hbracket
  | indented =>
    cases heq
    decide

theorem stops_between (layout : Layout) (level : Nat) (rest : List Letter) :
    Stops ((layout.between level).map .char ++ rest) := by
  intro letter more heq
  cases layout <;> cases heq <;> decide

theorem Reads.of_succ {layout : Layout} {level : Nat} {v : Value}
    (hpos : valueChars layout level v ≠ [])
    (h : ∀ (budget : Nat) (rest : List Letter), Stops rest →
      2 * (valueChars layout level v).length ≤ budget + 1 →
        readValue (budget + 1) ((valueChars layout level v).map .char ++ rest) = .ok (v, rest)) :
    Reads layout level v := by
  intro budget rest stops hbudget
  have hlength := List.length_pos_iff.2 hpos
  cases budget with
  | zero => omega
  | succ budget => exact h budget rest stops hbudget

theorem reads_int {n : Int} (h : Decimal.hasText n = true) (layout : Layout) (level : Nat) :
    Reads layout level (.int n) := by
  refine .of_succ ?_ fun budget rest stops _ => readValue_intChars h budget stops
  cases n with
  | ofNat k => exact Decimal.digits_ne_nil k
  | negSucc k => exact List.cons_ne_nil _ _

theorem reads_text {text : Text} (h : PlainText text) (layout : Layout) (level : Nat) :
    Reads layout level (.text text) := by
  refine .of_succ (List.cons_ne_nil _ _) fun budget rest _ _ => ?_
  obtain ⟨body, hchars, hread⟩ := readText_quotedChars h rest
  show readValue (budget + 1) ((quotedChars text).map .char ++ rest) = _
  rw [hchars, readValue, hread]
  rfl

/-! ## Lists -/

theorem readItems_last {budget : Nat} {text close tail : List Letter} {item : Value}
    (hitem : readValue budget text = .ok (item, close))
    (hclose : skipSpace close = .char ']' :: tail) :
    readItems (budget + 1) text = .ok ([item], tail) := by
  rw [readItems, hitem]
  simp only [bind, Except.bind, hclose]
  rfl

theorem readItems_next {budget : Nat} {text rest more tail : List Letter} {item : Value}
    {items : List Value} (hitem : readValue budget text = .ok (item, rest))
    (hcomma : skipSpace rest = .char ',' :: more)
    (hitems : readItems budget (skipSpace more) = .ok (items, tail)) :
    readItems (budget + 1) text = .ok (item :: items, tail) := by
  rw [readItems, hitem]
  simp only [bind, Except.bind, hcomma, hitems]
  rfl

theorem readValue_list {budget : Nat} {text more tail : List Letter} {c : Char} {items : List Value}
    (hskip : skipSpace text = .char c :: more) (hbracket : c ≠ ']')
    (hitems : readItems budget (.char c :: more) = .ok (items, tail)) :
    readValue (budget + 1) (.char '[' :: text) = .ok (.list items, tail) := by
  rw [readValue, hskip]
  split
  · rename_i heq
    exact absurd (Letter.char.inj (List.cons.inj heq).1) hbracket
  · rw [hitems]
    rfl

/-- The items of a list up to its end, given that each of them is read back. -/
theorem readItems_itemsChars {layout : Layout} {level : Nat} {items : List Value}
    (h : ∀ item ∈ items, item.Plain ∧ Reads layout level item) {item : Value}
    (hitem : Reads layout level item) {close tail : List Letter}
    (hclose : skipSpace close = .char ']' :: tail) (stops : Stops close) {budget : Nat}
    (hbudget : 2 * (valueChars layout level item ++ itemsChars layout level items).length + 1 ≤
      budget) :
    readItems budget
        ((valueChars layout level item).map .char ++
          ((itemsChars layout level items).map .char ++ close)) =
      .ok (item :: items, tail) := by
  induction items generalizing item budget with
  | nil =>
    obtain ⟨budget, rfl⟩ : ∃ b, budget = b + 1 := ⟨budget - 1, by omega⟩
    rw [List.length_append] at hbudget
    have hread := hitem budget close stops (by omega)
    exact readItems_last hread hclose
  | cons next items ih =>
    obtain ⟨budget, rfl⟩ : ∃ b, budget = b + 1 := ⟨budget - 1, by omega⟩
    obtain ⟨spaces, hbetween, hcomma, hspaces⟩ := between_eq layout level
    obtain ⟨hplain, hnext⟩ := h next List.mem_cons_self
    have hchars : (itemsChars layout level (next :: items)).map .char ++ close =
        (layout.between level).map .char ++ ((valueChars layout level next).map .char ++
          ((itemsChars layout level items).map .char ++ close)) := by
      rw [itemsChars, List.map_append, List.map_append, List.append_assoc, List.append_assoc]
    have hlength : (itemsChars layout level (next :: items)).length =
        1 + spaces.length + (valueChars layout level next ++ itemsChars layout level items).length := by
      rw [itemsChars, hbetween]
      simp only [List.length_append, List.length_cons]
      omega
    rw [List.length_append, hlength] at hbudget
    rw [hchars]
    generalize hrest : (valueChars layout level next).map .char ++
      ((itemsChars layout level items).map .char ++ close) = rest
    have hread := hitem budget ((layout.between level).map .char ++ rest)
      (stops_between layout level rest) (by omega)
    refine readItems_next hread (hcomma rest) ?_
    rw [hspaces, ← hrest, skipSpace_valueChars hplain]
    exact ih (fun other hother => h other (List.mem_cons_of_mem next hother)) hnext (by omega)

theorem reads_list {layout : Layout} {items : List Value} {level : Nat}
    (h : ∀ item ∈ items, item.Plain ∧ Reads layout (level + 1) item) :
    Reads layout level (.list items) := by
  cases items with
  | nil => exact .of_succ (List.cons_ne_nil _ _) fun _ _ _ _ => rfl
  | cons item items =>
    refine .of_succ (List.cons_ne_nil _ _) fun budget rest _ hbudget => ?_
    obtain ⟨hplain, hitem⟩ := h item List.mem_cons_self
    obtain ⟨c, more, hfront, hspace, hbracket, -⟩ := valueChars_front hplain layout (level + 1)
    have hchars : (valueChars layout level (.list (item :: items))).map .char ++ rest =
        .char '[' :: ((layout.first (level + 1)).map .char ++
          ((valueChars layout (level + 1) item).map .char ++
            ((itemsChars layout (level + 1) items).map .char ++
              ((layout.first level).map .char ++ .char ']' :: rest)))) := by
      simp [valueChars]
    have hclose : skipSpace ((layout.first level).map .char ++ .char ']' :: rest) =
        .char ']' :: rest := by
      rw [skipSpace_first, skipSpace_cons rfl]
    have hlength : 2 * (valueChars layout (level + 1) item ++
        itemsChars layout (level + 1) items).length + 1 ≤ budget := by
      simp only [valueChars, List.length_append, List.length_cons] at hbudget ⊢
      omega
    have hread := readItems_itemsChars (fun other hother => h other (List.mem_cons_of_mem item hother))
      hitem hclose (stops_of_closing layout level (by decide) rfl) hlength
    rw [hchars]
    rw [hfront, List.map_cons, List.cons_append] at hread ⊢
    refine readValue_list ?_ hbracket hread
    rw [skipSpace_first, skipSpace_cons hspace]

/-! ## Tables -/

theorem readFields_last {budget : Nat} {done : List (Text × Value)}
    {text more close tail : List Letter} {name : Text} {value : Value}
    (hname : readText text = .ok (name, .char ':' :: more))
    (hvalue : readValue budget (skipSpace more) = .ok (value, close))
    (hclose : skipSpace close = .char '\x7d' :: tail) :
    readFields (budget + 1) done (.char '"' :: text) = .ok (Value.setField done name value, tail) := by
  rw [readFields, hname]
  simp only [bind, Except.bind, skipSpace_cons (c := ':') rfl, hvalue, hclose]
  rfl

theorem readFields_next {budget : Nat} {done : List (Text × Value)}
    {text more rest next : List Letter} {name : Text} {value : Value}
    (hname : readText text = .ok (name, .char ':' :: more))
    (hvalue : readValue budget (skipSpace more) = .ok (value, rest))
    (hcomma : skipSpace rest = .char ',' :: next) :
    readFields (budget + 1) done (.char '"' :: text) =
      readFields budget (Value.setField done name value) (skipSpace next) := by
  rw [readFields, hname]
  simp only [bind, Except.bind, skipSpace_cons (c := ':') rfl, hvalue, hcomma]

/-- A field under a name that is not there yet goes to the end. -/
theorem setField_of_nodup {done rest : List (Text × Value)} {name : Text} {value : Value}
    (h : ((done ++ (name, value) :: rest).map Prod.fst).Nodup) :
    Value.setField done name value = done ++ [(name, value)] := by
  refine OrderedMap.put_of_not_mem (fun hmem => ?_) value
  rw [List.map_append, List.nodup_append] at h
  exact h.2.2 name hmem name List.mem_cons_self rfl

/-- The text of a field. -/
def fieldChars (layout : Layout) (level : Nat) (name : Text) (value : Value) : List Char :=
  quotedChars name ++ ':' :: ' ' :: valueChars layout level value

theorem length_fieldChars (layout : Layout) (level : Nat) (name : Text) (value : Value) :
    (fieldChars layout level name value).length =
      (quotedChars name).length + 2 + (valueChars layout level value).length := by
  simp only [fieldChars, List.length_append, List.length_cons]
  omega

/-- A field begins with the quote of its name. -/
theorem fieldChars_front (layout : Layout) (level : Nat) (name : Text) (value : Value)
    (rest : List Letter) :
    ∃ more, (fieldChars layout level name value).map .char ++ rest = .char '"' :: more :=
  ⟨_, rfl⟩

theorem skipSpace_fieldChars (layout : Layout) (level : Nat) (name : Text) (value : Value)
    (rest : List Letter) :
    skipSpace ((fieldChars layout level name value).map .char ++ rest) =
      (fieldChars layout level name value).map .char ++ rest := by
  obtain ⟨more, hfront⟩ := fieldChars_front layout level name value rest
  rw [hfront, skipSpace_cons rfl]

theorem fieldsChars_cons (layout : Layout) (level : Nat) (name : Text) (value : Value)
    (fields : List (Text × Value)) :
    fieldsChars layout level ((name, value) :: fields) =
      layout.between level ++ (fieldChars layout level name value ++ fieldsChars layout level fields) := by
  simp [fieldsChars, fieldChars]

theorem fieldChars_reads {layout : Layout} {level : Nat} {name : Text} {value : Value}
    (hname : PlainText name) (hplain : value.Plain) (hvalue : Reads layout level value)
    (budget : Nat) {rest : List Letter} (stops : Stops rest)
    (hbudget : 2 * (valueChars layout level value).length ≤ budget) :
    ∃ body more, (fieldChars layout level name value).map .char ++ rest = .char '"' :: body ∧
      readText body = .ok (name, .char ':' :: more) ∧
      readValue budget (skipSpace more) = .ok (value, rest) := by
  obtain ⟨body, hquoted, htext⟩ := readText_quotedChars hname
    (.char ':' :: .char ' ' :: ((valueChars layout level value).map .char ++ rest))
  refine ⟨body, .char ' ' :: ((valueChars layout level value).map .char ++ rest), ?_, htext, ?_⟩
  · rw [← hquoted, fieldChars, List.map_append, List.append_assoc]
    rfl
  · have hskip : skipSpace ([' '].map .char ++ ((valueChars layout level value).map .char ++ rest)) =
        (valueChars layout level value).map .char ++ rest := by
      rw [skipSpace_append (List.forall_mem_singleton.2 rfl), skipSpace_valueChars hplain]
    rw [List.map_singleton, List.singleton_append] at hskip
    rw [hskip]
    exact hvalue budget rest stops hbudget

/-- The fields of a table up to its end, given that the value of each is read back. -/
theorem readFields_fieldsChars {layout : Layout} {level : Nat} {fields : List (Text × Value)}
    (h : ∀ field ∈ fields, PlainText field.1 ∧ field.2.Plain ∧ Reads layout level field.2)
    {done : List (Text × Value)} {name : Text} {value : Value} (hname : PlainText name)
    (hplain : value.Plain) (hvalue : Reads layout level value)
    (hnodup : ((done ++ (name, value) :: fields).map Prod.fst).Nodup) {close tail : List Letter}
    (hclose : skipSpace close = .char '\x7d' :: tail) (stops : Stops close) {budget : Nat}
    (hbudget : 2 * (fieldChars layout level name value ++ fieldsChars layout level fields).length + 1 ≤
      budget) :
    readFields budget done
        ((fieldChars layout level name value).map .char ++
          ((fieldsChars layout level fields).map .char ++ close)) =
      .ok (done ++ (name, value) :: fields, tail) := by
  rw [List.length_append, length_fieldChars] at hbudget
  induction fields generalizing done name value budget with
  | nil =>
    obtain ⟨budget, rfl⟩ : ∃ b, budget = b + 1 := ⟨budget - 1, by omega⟩
    obtain ⟨body, more, hchars, htext, hread⟩ :=
      fieldChars_reads hname hplain hvalue budget stops (by omega)
    show readFields (budget + 1) done ((fieldChars layout level name value).map .char ++ close) = _
    rw [hchars, readFields_last htext hread hclose, setField_of_nodup hnodup]
  | cons field fields ih =>
    obtain ⟨nextName, nextValue⟩ := field
    obtain ⟨budget, rfl⟩ : ∃ b, budget = b + 1 := ⟨budget - 1, by omega⟩
    obtain ⟨spaces, hbetween, hcomma, hspaces⟩ := between_eq layout level
    obtain ⟨hnextName, hnextPlain, hnext⟩ :
        PlainText nextName ∧ nextValue.Plain ∧ Reads layout level nextValue := h _ List.mem_cons_self
    rw [fieldsChars_cons, hbetween, List.length_append, List.length_append, length_fieldChars,
      List.length_cons] at hbudget
    have hnodup' : (((done ++ [(name, value)]) ++ (nextName, nextValue) :: fields).map
        Prod.fst).Nodup := by
      rw [List.append_assoc]
      exact hnodup
    have hrest : readFields budget (done ++ [(name, value)])
        ((fieldChars layout level nextName nextValue).map .char ++
          ((fieldsChars layout level fields).map .char ++ close)) =
          .ok (done ++ [(name, value)] ++ (nextName, nextValue) :: fields, tail) :=
      ih (fun other hother => h other (List.mem_cons_of_mem _ hother)) hnextName hnextPlain hnext
        hnodup' (by omega)
    rw [List.append_assoc] at hrest
    have hskip : skipSpace (spaces.map .char ++ ((fieldChars layout level nextName nextValue).map .char ++
        ((fieldsChars layout level fields).map .char ++ close))) =
          (fieldChars layout level nextName nextValue).map .char ++
            ((fieldsChars layout level fields).map .char ++ close) := by
      rw [hspaces, skipSpace_fieldChars]
    rw [fieldsChars_cons, List.map_append, List.map_append, List.append_assoc, List.append_assoc]
    -- for this field the next ones are no more than what stands after it
    generalize (fieldChars layout level nextName nextValue).map .char ++
      ((fieldsChars layout level fields).map .char ++ close) = rest at hrest hskip ⊢
    obtain ⟨body, more, hchars, htext, hread⟩ := fieldChars_reads hname hplain hvalue budget
      (stops_between layout level rest) (by omega)
    rw [hchars, readFields_next htext hread (hcomma rest), setField_of_nodup hnodup, hskip]
    exact hrest

theorem readValue_table {budget : Nat} {text more tail : List Letter} {c : Char}
    {fields : List (Text × Value)} (hskip : skipSpace text = .char c :: more) (hbrace : c ≠ '\x7d')
    (hfields : readFields budget [] (.char c :: more) = .ok (fields, tail)) :
    readValue (budget + 1) (.char '\x7b' :: text) = .ok (.table fields, tail) := by
  rw [readValue, hskip]
  split
  · rename_i heq
    exact absurd (Letter.char.inj (List.cons.inj heq).1) hbrace
  · rw [hfields]
    rfl

theorem reads_table {layout : Layout} {fields : List (Text × Value)} {level : Nat}
    (hnodup : (fields.map Prod.fst).Nodup)
    (h : ∀ field ∈ fields, PlainText field.1 ∧ field.2.Plain ∧ Reads layout (level + 1) field.2) :
    Reads layout level (.table fields) := by
  cases fields with
  | nil => exact .of_succ (List.cons_ne_nil _ _) fun _ _ _ _ => rfl
  | cons field fields =>
    obtain ⟨name, value⟩ := field
    refine .of_succ (List.cons_ne_nil _ _) fun budget rest _ hbudget => ?_
    obtain ⟨hname, hplain, hvalue⟩ := h _ List.mem_cons_self
    have hchars : (valueChars layout level (.table ((name, value) :: fields))).map .char ++ rest =
        .char '\x7b' :: ((layout.first (level + 1)).map .char ++
          ((fieldChars layout (level + 1) name value).map .char ++
            ((fieldsChars layout (level + 1) fields).map .char ++
              ((layout.first level).map .char ++ .char '\x7d' :: rest)))) := by
      simp [valueChars, fieldChars]
    have hclose : skipSpace ((layout.first level).map .char ++ .char '\x7d' :: rest) =
        .char '\x7d' :: rest := by
      rw [skipSpace_first, skipSpace_cons rfl]
    have hlength : 2 * (fieldChars layout (level + 1) name value ++
        fieldsChars layout (level + 1) fields).length + 1 ≤ budget := by
      simp only [valueChars, fieldChars, List.length_append, List.length_cons, List.length_nil]
        at hbudget ⊢
      omega
    have hnodup' : (([] ++ (name, value) :: fields).map Prod.fst).Nodup := hnodup
    have hread := readFields_fieldsChars
      (fun other hother => h other (List.mem_cons_of_mem _ hother)) hname hplain hvalue hnodup' hclose
      (stops_of_closing layout level (by decide) rfl) hlength
    obtain ⟨more, hfront⟩ := fieldChars_front layout (level + 1) name value
      ((fieldsChars layout (level + 1) fields).map .char ++
        ((layout.first level).map .char ++ .char '\x7d' :: rest))
    rw [hchars]
    rw [hfront] at hread ⊢
    refine readValue_table ?_ (by decide) hread
    rw [skipSpace_first, skipSpace_cons rfl]

/-! ## Documents -/

mutual

/-- A plain document whose integers have texts is read back. -/
theorem reads_value (layout : Layout) : ∀ (v : Value) (level : Nat), v.Plain → writable v = true →
    Reads layout level v
  | .null, _, _, _ => .of_succ (List.cons_ne_nil _ _) fun _ _ _ _ => rfl
  | .bool true, _, _, _ => .of_succ (List.cons_ne_nil _ _) fun _ _ _ _ => rfl
  | .bool false, _, _, _ => .of_succ (List.cons_ne_nil _ _) fun _ _ _ _ => rfl
  | .float _, _, plain, _ => plain.elim
  | .moment _, _, plain, _ => plain.elim
  | .int _, level, _, small => reads_int small layout level
  | .text _, level, plain, _ => reads_text plain layout level
  | .list items, level, plain, small => reads_list (reads_items layout items (level + 1) plain small)
  | .table fields, level, plain, small =>
    reads_table plain.1 (reads_fields layout fields (level + 1) plain.2 small)

theorem reads_items (layout : Layout) : ∀ (items : List Value) (level : Nat),
    Value.PlainItems items → writableItems items = true →
      ∀ item ∈ items, item.Plain ∧ Reads layout level item
  | [], _, _, _ => nofun
  | item :: rest, level, plain, small => by
    intro other hother
    rw [writableItems, Bool.and_eq_true] at small
    rcases List.mem_cons.1 hother with heq | hrest
    · rw [heq]
      exact ⟨plain.1, reads_value layout item level plain.1 small.1⟩
    · exact reads_items layout rest level plain.2 small.2 other hrest

theorem reads_fields (layout : Layout) : ∀ (fields : List (Text × Value)) (level : Nat),
    Value.PlainFields fields → writableFields fields = true →
      ∀ field ∈ fields, PlainText field.1 ∧ field.2.Plain ∧ Reads layout level field.2
  | [], _, _, _ => nofun
  | (name, value) :: rest, level, plain, small => by
    intro other hother
    rw [writableFields, Bool.and_eq_true] at small
    rcases List.mem_cons.1 hother with heq | hrest
    · rw [heq]
      exact ⟨plain.1, plain.2.1, reads_value layout value level plain.2.1 small.1⟩
    · exact reads_fields layout rest level plain.2.2 small.2 other hrest

end

/-- A plain document is read back from its text, also with white space after it. -/
theorem read_write {v : Value} (plain : v.Plain) (small : writable v = true) (layout : Layout)
    {spaces : List Char} (hspaces : ∀ c ∈ spaces, isSpace c = true) :
    read (.plain (write layout v ++ String.ofList spaces)) = .ok v := by
  have hletters : (Text.plain (write layout v ++ String.ofList spaces)).letters =
      (valueChars layout 0 v).map .char ++ spaces.map .char := by
    rw [Text.letters, write, ← String.ofList_append, String.toList_ofList, List.map_append]
  have hend : skipSpace (spaces.map .char) = [] := by
    have hskip := skipSpace_append hspaces []
    rwa [List.append_nil] at hskip
  have stops : Stops (spaces.map .char) := by
    intro letter more heq
    obtain ⟨c, hmem, rfl⟩ := List.mem_map.1 (heq ▸ List.mem_cons_self : letter ∈ spaces.map .char)
    have hc := hspaces c hmem
    simp only [isSpace, Bool.or_eq_true, decide_eq_true_eq] at hc
    rcases hc with ((rfl | rfl) | rfl) | rfl <;> decide
  have hread := reads_value layout v 0 plain small
    (2 * ((valueChars layout 0 v).map Letter.char ++ spaces.map Letter.char).length + 2)
    (spaces.map .char) stops
    (by rw [List.length_append, List.length_map]; omega)
  unfold read
  simp only [hletters, skipSpace_valueChars plain, hread, bind, Except.bind, hend]
  rfl

end Json

end ContractHost
