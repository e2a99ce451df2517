/-!
# Maps in order of insertion

A map is a list of entries with different keys, in the order in which the keys came in. Writing to a
key that is there replaces its value and keeps its place; a new key goes to the end.

* `get?_insert`: what a write does to each look-up.
* `keys_insert`: what a write does to the order of the keys.
-/

namespace ContractHost

/-- A map that remembers the order in which its keys came in. -/
@[ext]
structure OrderedMap (κ : Type) (ν : Type) where
  /-- Keys and values, in order. -/
  entries : List (κ × ν)
  /-- No key occurs twice. -/
  nodup : (entries.map Prod.fst).Nodup

namespace OrderedMap

variable {κ : Type} {ν : Type} [DecidableEq κ]

instance [DecidableEq ν] : DecidableEq (OrderedMap κ ν) := fun a b =>
  decidable_of_iff (a.entries = b.entries) ⟨OrderedMap.ext, congrArg _⟩

/-! ## Lists of entries -/

/-- The value at a key. -/
def lookup : List (κ × ν) → κ → Option ν
  | [], _ => none
  | (k, v) :: rest, key => if k = key then some v else lookup rest key

/-- A value put at a key: in the key's place, or at the end. -/
def put : List (κ × ν) → κ → ν → List (κ × ν)
  | [], key, value => [(key, value)]
  | (k, v) :: rest, key, value =>
    if k = key then (k, value) :: rest else (k, v) :: put rest key value

/-- The entries with a key other than the given one. -/
def remove : List (κ × ν) → κ → List (κ × ν)
  | [], _ => []
  | (k, v) :: rest, key => if k = key then remove rest key else (k, v) :: remove rest key

theorem map_fst_put (entries : List (κ × ν)) (key : κ) (value : ν) :
    (put entries key value).map Prod.fst =
      if key ∈ entries.map Prod.fst then entries.map Prod.fst
      else entries.map Prod.fst ++ [key] := by
  induction entries with
  | nil => simp [put]
  | cons entry rest ih =>
    obtain ⟨k, v⟩ := entry
    by_cases h : k = key
    · simp [put, h]
    · have h' : ¬ key = k := fun e => h e.symm
      simp only [put, if_neg h, List.map_cons, ih, List.mem_cons, h', false_or]
      split <;> simp

theorem lookup_put (entries : List (κ × ν)) (key other : κ) (value : ν) :
    lookup (put entries key value) other =
      if key = other then some value else lookup entries other := by
  induction entries with
  | nil => simp [put, lookup]
  | cons entry rest ih =>
    obtain ⟨k, v⟩ := entry
    by_cases h : k = key
    · subst h
      by_cases ho : k = other <;> simp [put, lookup, ho]
    · rw [put, if_neg h, lookup, lookup, ih]
      by_cases ho : k = other
      · rw [if_pos ho, if_pos ho, if_neg (fun e => h (ho.trans e.symm))]
      · rw [if_neg ho, if_neg ho]

theorem lookup_remove (entries : List (κ × ν)) (key other : κ) :
    lookup (remove entries key) other = if key = other then none else lookup entries other := by
  induction entries with
  | nil => simp [remove, lookup]
  | cons entry rest ih =>
    obtain ⟨k, v⟩ := entry
    by_cases h : k = key
    · subst h
      rw [remove, if_pos rfl, ih, lookup]
      by_cases ho : k = other
      · rw [if_pos ho, if_pos ho]
      · rw [if_neg ho, if_neg ho, if_neg ho]
    · rw [remove, if_neg h, lookup, lookup, ih]
      by_cases ho : k = other
      · rw [if_pos ho, if_pos ho, if_neg (fun e => h (ho.trans e.symm))]
      · rw [if_neg ho, if_neg ho]

theorem remove_sublist (entries : List (κ × ν)) (key : κ) :
    (remove entries key).Sublist entries := by
  induction entries with
  | nil => exact .slnil
  | cons entry rest ih =>
    rw [remove]
    split
    · exact ih.cons _
    · exact ih.cons_cons _

theorem lookup_eq_none_iff (entries : List (κ × ν)) (key : κ) :
    lookup entries key = none ↔ key ∉ entries.map Prod.fst := by
  induction entries with
  | nil => simp [lookup]
  | cons entry rest ih =>
    obtain ⟨k, v⟩ := entry
    by_cases h : k = key
    · simp [lookup, h]
    · have h' : ¬ key = k := fun e => h e.symm
      simp only [lookup, if_neg h, ih, List.map_cons, List.mem_cons, h', false_or]

theorem lookup_isSome_iff (entries : List (κ × ν)) (key : κ) :
    (lookup entries key).isSome ↔ key ∈ entries.map Prod.fst := by
  rw [← Option.ne_none_iff_isSome, ne_eq, lookup_eq_none_iff, Classical.not_not]

/-! ## Maps -/

/-- The map without entries. -/
def empty : OrderedMap κ ν := ⟨[], List.nodup_nil⟩

instance : Inhabited (OrderedMap κ ν) := ⟨empty⟩

instance : EmptyCollection (OrderedMap κ ν) := ⟨empty⟩

/-- The keys, in order. -/
def keys (m : OrderedMap κ ν) : List κ := m.entries.map Prod.fst

/-- The values, in order of their keys. -/
def values (m : OrderedMap κ ν) : List ν := m.entries.map Prod.snd

/-- The number of entries. -/
def size (m : OrderedMap κ ν) : Nat := m.entries.length

/-- Whether there is no entry. -/
def isEmpty (m : OrderedMap κ ν) : Bool := m.entries.isEmpty

/-- The value at a key. -/
def get? (m : OrderedMap κ ν) (key : κ) : Option ν := lookup m.entries key

/-- Whether a key is there. -/
def contains (m : OrderedMap κ ν) (key : κ) : Bool := (m.get? key).isSome

/-- A value put at a key. -/
def insert (m : OrderedMap κ ν) (key : κ) (value : ν) : OrderedMap κ ν where
  entries := put m.entries key value
  nodup := by
    rw [map_fst_put]
    split
    · exact m.nodup
    · rename_i h
      exact List.nodup_append.2 ⟨m.nodup, by simp, by
        intro a ha b hb e
        simp only [List.mem_singleton] at hb
        exact h (hb ▸ e ▸ ha)⟩

/-- The map without a key. -/
def erase (m : OrderedMap κ ν) (key : κ) : OrderedMap κ ν where
  entries := remove m.entries key
  nodup := m.nodup.sublist ((remove_sublist ..).map _)

/-- The map of a list of entries, each put in after the ones before it. -/
def ofList (entries : List (κ × ν)) : OrderedMap κ ν :=
  entries.foldl (fun m entry => m.insert entry.1 entry.2) empty

/-- Whether two maps have the same keys with values that `same` relates, in whatever order. -/
def equal (same : ν → ν → Bool) (a b : OrderedMap κ ν) : Bool :=
  a.size == b.size &&
    a.entries.all fun entry =>
      match b.get? entry.1 with
      | some value => same entry.2 value
      | none => false

theorem get?_insert (m : OrderedMap κ ν) (key other : κ) (value : ν) :
    (m.insert key value).get? other = if key = other then some value else m.get? other :=
  lookup_put ..

theorem get?_erase (m : OrderedMap κ ν) (key other : κ) :
    (m.erase key).get? other = if key = other then none else m.get? other :=
  lookup_remove ..

theorem keys_insert (m : OrderedMap κ ν) (key : κ) (value : ν) :
    (m.insert key value).keys = if key ∈ m.keys then m.keys else m.keys ++ [key] :=
  map_fst_put ..

theorem mem_keys_iff (m : OrderedMap κ ν) (key : κ) : key ∈ m.keys ↔ m.contains key = true :=
  (lookup_isSome_iff ..).symm

@[simp]
theorem get?_empty (key : κ) : (empty : OrderedMap κ ν).get? key = none := rfl

end OrderedMap

end ContractHost
