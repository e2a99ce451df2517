import ContractHost.Document.Access
import ContractHost.Json.Reader
import ContractHost.Json.Writer
import ContractHost.Proofs.Numerals
import ContractHost.Proofs.OrderedMap
import ContractHost.Proofs.Yields

/-!
# Numbers of a document

A document that was read has no number whose digits could not be written. So the integers that are taken
from its fields have texts, be they integers there, fractions, or texts themselves.

* `Json.short_read`: a document that was read.
* `Value.hasText_toInt`: an integer taken from a value.
-/

namespace ContractHost

mutual

/-- A document whose integers have texts and whose fractions are in range. -/
def Value.Short : Value → Prop
  | .int n => Decimal.hasText n = true
  | .float x => x.Small
  | .list items => Value.ShortItems items
  | .table fields => Value.ShortFields fields
  | _ => True

/-- A list of such documents. -/
def Value.ShortItems : List Value → Prop
  | [] => True
  | item :: rest => item.Short ∧ Value.ShortItems rest

/-- Such documents under names. -/
def Value.ShortFields : List (Text × Value) → Prop
  | [] => True
  | (_, value) :: rest => value.Short ∧ Value.ShortFields rest

end

namespace Value

theorem shortItems_iff {items : List Value} : ShortItems items ↔ ∀ item ∈ items, item.Short := by
  induction items with
  | nil => simp [ShortItems]
  | cons item rest ih => simp [ShortItems, ih]

theorem shortFields_iff {fields : List (Text × Value)} :
    ShortFields fields ↔ ∀ field ∈ fields, field.2.Short := by
  induction fields with
  | nil => simp [ShortFields]
  | cons field rest ih => simp [ShortFields, ih]

end Value

/-! ## Reading documents -/

namespace Json

theorem digitValue_lt {c : Char} (h : isDigit c = true) : Decimal.digitValue c < 10 := by
  obtain ⟨-, hnine⟩ : '0' ≤ c ∧ c ≤ '9' := by simpa [isDigit] using h
  have hle : c.toNat ≤ '9'.toNat := hnine
  have hnine : '9'.toNat = 57 := rfl
  unfold Decimal.digitValue
  omega

theorem hasText_ofDigits {digits : List Char} (h : ∀ c ∈ digits, isDigit c = true)
    (hcount : digits.length ≤ 4300) (negative : Bool) :
    Decimal.hasText (if negative then -(Decimal.ofDigits digits : Int)
      else (Decimal.ofDigits digits : Int)) = true := by
  have hvalues : ∀ d ∈ digits.map Decimal.digitValue, d < 10 := by
    intro d hd
    obtain ⟨c, hc, rfl⟩ := List.mem_map.1 hd
    exact digitValue_lt (h c hc)
  have hspelled : Decimal.ofDigits digits =
      (digits.map Decimal.digitValue).foldl (fun n d => n * 10 + d) 0 := List.foldl_map.symm
  refine hasText_of_digits hvalues (by rwa [List.length_map]) ?_
  rw [← hspelled]
  cases negative
  · exact Int.natAbs_natCast _
  · exact (Int.natAbs_neg _).trans (Int.natAbs_natCast _)

theorem isDigit_of_mem_spanDigits {text : List Letter} {c : Char} (h : c ∈ (spanDigits text).1) :
    isDigit c = true := by
  obtain ⟨letter, hletter, rfl⟩ := List.mem_map.1 h
  exact List.all_eq_true.1 List.all_takeWhile letter hletter

theorem short_readNumber (negative : Bool) (text : List Letter) :
    Yields (readNumber negative text) (·.1.Short) := by
  unfold readNumber
  split
  rename_i whole rest heq
  have hwhole : ∀ c ∈ whole, isDigit c = true := by
    intro c hc
    split at heq
    · cases heq
      rw [List.mem_singleton.1 hc]
      rfl
    · have hspan : (spanDigits text).1 = whole := congrArg Prod.fst heq
      rw [← hspan] at hc
      exact isDigit_of_mem_spanDigits hc
  simp only
  split
  · exact yields_error _
  split
  · split
    · exact yields_error _
    · rename_i hcount
      exact yields_ok (hasText_ofDigits hwhole (Nat.le_of_not_lt hcount) negative)
  · exact yields_ok (Binary64.small_ofDecimal ..)

theorem short_setField {fields : List (Text × Value)} (h : ∀ field ∈ fields, field.2.Short)
    {value : Value} (hvalue : value.Short) (name : Text) :
    ∀ field ∈ Value.setField fields name value, field.2.Short := by
  intro field hfield
  rcases OrderedMap.mem_put hfield with hmem | heq
  · exact h field hmem
  · rw [heq]
    exact hvalue

/-- Within a budget the reader gives short documents. -/
structure ReadsShort (budget : Nat) : Prop where
  value : ∀ text, Yields (readValue budget text) (·.1.Short)
  items : ∀ text, Yields (readItems budget text) fun r => ∀ item ∈ r.1, item.Short
  fields : ∀ done text, (∀ field ∈ done, field.2.Short) →
    Yields (readFields budget done text) fun r => ∀ field ∈ r.1, field.2.Short

namespace ReadsShort

variable {budget : Nat}

theorem zero : ReadsShort 0 where
  value text := by
    rw [readValue]
    exact yields_error _
  items text := by
    rw [readItems]
    exact yields_error _
  fields done text _ := by
    rw [readFields]
    exact yields_error _

theorem value_succ (h : ReadsShort budget) (text : List Letter) :
    Yields (readValue (budget + 1) text) (·.1.Short) := by
  unfold readValue
  split
  · exact yields_then fun _ => yields_ok trivial
  · split
    · exact yields_ok trivial
    · exact yields_bind (h.items _) fun items hitems => yields_ok (Value.shortItems_iff.2 hitems)
  · split
    · exact yields_ok trivial
    · have hnone : ∀ field ∈ ([] : List (Text × Value)), field.2.Short := List.forall_mem_nil _
      exact yields_bind (h.fields [] _ hnone) fun fields hfields =>
        yields_ok (Value.shortFields_iff.2 hfields)
  -- words
  · exact yields_ok trivial
  · exact yields_ok trivial
  · exact yields_ok trivial
  · exact yields_ok trivial
  · exact yields_ok trivial
  · exact yields_ok trivial
  -- numbers
  · exact short_readNumber true _
  · exact short_readNumber false _

theorem items_succ (h : ReadsShort budget) (text : List Letter) :
    Yields (readItems (budget + 1) text) fun r => ∀ item ∈ r.1, item.Short := by
  unfold readItems
  refine yields_bind (h.value text) fun (item, rest) hitem => ?_
  simp only
  split
  · exact yields_ok (List.forall_mem_singleton.2 hitem)
  · refine yields_bind (h.items _) fun (items, rest) hitems => yields_ok ?_
    exact List.forall_mem_cons.2 ⟨hitem, hitems⟩
  · exact yields_error _

theorem fields_succ (h : ReadsShort budget) {done : List (Text × Value)} (text : List Letter)
    (hdone : ∀ field ∈ done, field.2.Short) :
    Yields (readFields (budget + 1) done text) fun r => ∀ field ∈ r.1, field.2.Short := by
  unfold readFields
  split
  · refine yields_then fun (name, rest) => ?_
    simp only
    split
    · refine yields_bind (h.value _) fun (value, rest) hvalue => ?_
      have hput := short_setField hdone hvalue name
      simp only
      split
      · exact yields_ok hput
      · exact h.fields _ _ hput
      · exact yields_error _
    · exact yields_error _
  · exact yields_error _

end ReadsShort

theorem reads_short (budget : Nat) : ReadsShort budget := by
  induction budget with
  | zero => exact .zero
  | succ budget ih => exact ⟨ih.value_succ, ih.items_succ, fun _ => ih.fields_succ⟩

theorem short_read (text : Text) : Yields (read text) Value.Short := by
  unfold read
  refine yields_bind ((reads_short _).value _) fun (value, rest) hresult => ?_
  simp only
  split
  · exact yields_ok hresult
  · exact yields_error _

end Json

/-! ## Taking documents apart -/

namespace Value

variable {value : Value}

theorem short_field? {fields : List (Text × Value)} (h : ShortFields fields) {name : String}
    (hfield : field? fields name = some value) : value.Short :=
  shortFields_iff.1 h _ (OrderedMap.mem_of_lookup hfield)

theorem short_getD (h : value.Short) (name : String) {default : Value} (hdefault : default.Short) :
    Yields (value.getD name default) Short := by
  intro found hfound
  cases value with
  | table fields =>
    cases hfield : field? fields name with
    | none =>
      simp only [getD, get, hfield] at hfound
      cases hfound
      exact hdefault
    | some other =>
      simp only [getD, get, hfield] at hfound
      cases hfound
      exact short_field? h hfield
  | _ => cases hfound

theorem short_fields (h : value.Short) :
    Yields value.fields fun fields => ∀ field ∈ fields, field.2.Short := by
  intro fields hfields
  cases value with
  | table fields =>
    cases hfields
    exact shortFields_iff.1 h
  | _ => cases hfields

/-- An integer that is taken from a short document has a text. -/
theorem hasText_toInt (h : value.Short) : Yields value.toInt (Decimal.hasText · = true) := by
  intro n hn
  cases value with
  | int m =>
    cases hn
    exact h
  | bool b =>
    cases hn
    cases b <;> decide
  | float x =>
    cases x with
    | finite negative mantissa exponent =>
      have small : (Binary64.finite negative mantissa exponent).Small := h
      cases hn
      exact Binary64.hasText_truncate? small rfl
    | nan => cases hn
    | infinite negative => cases hn
  | text s =>
    simp only [toInt] at hn
    split at hn
    · rename_i hspelled
      cases hn
      exact Text.hasText_integer? hspelled
    · cases hn
  | _ => cases hn

end Value

end ContractHost
