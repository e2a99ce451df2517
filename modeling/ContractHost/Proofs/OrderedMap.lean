import ContractHost.OrderedMap

/-!
# The order of a map

What a write and a removal do to the entries of a map, with their order. A write to a key that is there
leaves every entry in its place; a write to another key adds one entry at the end; a removal closes the
gap.

* `entries_insert_of_mem`, `entries_insert_of_not_mem`: a write.
* `keys_erase`: a removal.
-/

namespace ContractHost.OrderedMap

variable {κ ν : Type} [DecidableEq κ]

theorem put_of_mem {entries : List (κ × ν)} {key : κ} (hnodup : (entries.map Prod.fst).Nodup)
    (h : key ∈ entries.map Prod.fst) (value : ν) :
    put entries key value = entries.map fun e => if e.1 = key then (key, value) else e := by
  induction entries with
  | nil => simp at h
  | cons entry rest ih =>
    obtain ⟨k, v⟩ := entry
    rw [List.map_cons, List.nodup_cons] at hnodup
    by_cases hk : k = key
    · subst hk
      have hrest : (rest.map fun e => if e.1 = k then (k, value) else e) = rest := by
        refine (List.map_congr_left fun e he => ?_).trans (List.map_id' rest)
        have hne : e.1 ≠ k := fun hkey => hnodup.1 (List.mem_map.2 ⟨e, he, hkey⟩)
        exact if_neg hne
      simp only [put, List.map_cons, hrest, if_true]
    · have hmem : key ∈ rest.map Prod.fst :=
        (List.mem_cons.1 h).resolve_left fun hkey => hk hkey.symm
      simp only [put, List.map_cons, if_neg hk, ih hnodup.2 hmem]

theorem put_of_not_mem {entries : List (κ × ν)} {key : κ} (h : key ∉ entries.map Prod.fst)
    (value : ν) : put entries key value = entries ++ [(key, value)] := by
  induction entries with
  | nil => rfl
  | cons entry rest ih =>
    obtain ⟨k, v⟩ := entry
    rw [List.map_cons, List.mem_cons, not_or] at h
    rw [put, if_neg (Ne.symm h.1), ih h.2, List.cons_append]

theorem lookup_of_mem {entries : List (κ × ν)} (hnodup : (entries.map Prod.fst).Nodup) {key : κ}
    {value : ν} (h : (key, value) ∈ entries) : lookup entries key = some value := by
  induction entries with
  | nil => cases h
  | cons entry rest ih =>
    obtain ⟨k, v⟩ := entry
    rw [List.map_cons, List.nodup_cons] at hnodup
    rcases List.mem_cons.1 h with heq | hmem
    · cases heq
      rw [lookup, if_pos rfl]
    · have hne : k ≠ key := fun hk => hnodup.1 (List.mem_map.2 ⟨_, hmem, hk.symm⟩)
      rw [lookup, if_neg hne, ih hnodup.2 hmem]

theorem mem_of_lookup {entries : List (κ × ν)} {key : κ} {value : ν}
    (h : lookup entries key = some value) : (key, value) ∈ entries := by
  induction entries with
  | nil => cases h
  | cons entry rest ih =>
    obtain ⟨k, v⟩ := entry
    rw [lookup] at h
    split at h
    · rename_i hk
      cases h
      exact hk ▸ List.mem_cons_self
    · exact List.mem_cons_of_mem _ (ih h)

theorem mem_put {entries : List (κ × ν)} {key : κ} {value : ν} {entry : κ × ν}
    (h : entry ∈ put entries key value) : entry ∈ entries ∨ entry = (key, value) := by
  induction entries with
  | nil => exact Or.inr (List.mem_singleton.1 h)
  | cons first rest ih =>
    obtain ⟨k, v⟩ := first
    rw [put] at h
    split at h
    · rename_i hk
      rcases List.mem_cons.1 h with heq | hrest
      · exact Or.inr (hk ▸ heq)
      · exact Or.inl (List.mem_cons_of_mem _ hrest)
    · rcases List.mem_cons.1 h with heq | hrest
      · exact Or.inl (heq ▸ List.mem_cons_self)
      · rcases ih hrest with hmem | heq
        · exact Or.inl (List.mem_cons_of_mem _ hmem)
        · exact Or.inr heq

theorem put_put (entries : List (κ × ν)) (key : κ) (before value : ν) :
    put (put entries key before) key value = put entries key value := by
  induction entries with
  | nil => simp [put]
  | cons entry rest ih =>
    obtain ⟨k, v⟩ := entry
    by_cases hk : k = key
    · simp [put, hk]
    · simp [put, hk, ih]

theorem map_fst_remove (entries : List (κ × ν)) (key : κ) :
    (remove entries key).map Prod.fst = (entries.map Prod.fst).filter (· ≠ key) := by
  induction entries with
  | nil => rfl
  | cons entry rest ih =>
    obtain ⟨k, v⟩ := entry
    by_cases hk : k = key
    · simp [remove, hk, ih]
    · simp [remove, hk, ih]

theorem get?_of_mem {m : OrderedMap κ ν} {key : κ} {value : ν} (h : (key, value) ∈ m.entries) :
    m.get? key = some value :=
  lookup_of_mem m.nodup h

theorem mem_of_get? {m : OrderedMap κ ν} {key : κ} {value : ν} (h : m.get? key = some value) :
    (key, value) ∈ m.entries :=
  mem_of_lookup h

theorem entries_insert_of_mem {m : OrderedMap κ ν} {key : κ} (h : key ∈ m.keys) (value : ν) :
    (m.insert key value).entries = m.entries.map fun e => if e.1 = key then (key, value) else e :=
  put_of_mem m.nodup h value

theorem entries_insert_of_not_mem {m : OrderedMap κ ν} {key : κ} (h : key ∉ m.keys) (value : ν) :
    (m.insert key value).entries = m.entries ++ [(key, value)] :=
  put_of_not_mem h value

/-- A map grows at its end as long as the keys that come in are new. -/
theorem entries_insert_append {m : OrderedMap κ ν} {key : κ} {value : ν} {rest : List (κ × ν)}
    (h : ((m.entries ++ (key, value) :: rest).map Prod.fst).Nodup) :
    (m.insert key value).entries ++ rest = m.entries ++ (key, value) :: rest := by
  have hkey : key ∉ m.keys := by
    intro hmem
    rw [List.map_append, List.nodup_append] at h
    exact h.2.2 key hmem key List.mem_cons_self rfl
  rw [entries_insert_of_not_mem hkey, List.append_assoc, List.singleton_append]

/-- Of two writes to a key the second one counts. -/
theorem insert_insert (m : OrderedMap κ ν) (key : κ) (before value : ν) :
    (m.insert key before).insert key value = m.insert key value :=
  OrderedMap.ext (put_put ..)

theorem keys_erase (m : OrderedMap κ ν) (key : κ) :
    (m.erase key).keys = m.keys.filter (· ≠ key) :=
  map_fst_remove ..

end ContractHost.OrderedMap
