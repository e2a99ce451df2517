import ContractHost.Arena.Basic

/-!
# Objects in their slots

What one operation does to the slots of an arena in which the free slots are empty. An object that was
taken in sits in one slot until it is taken out, and its handle resolves to it. A new object gets such a
seat as long as the number of slots stays below `Handle.places`; beyond that the place of a handle wraps
round and names no slot, or another one.

* `insert_seated`: a new object gets a slot that was vacant.
* `resolve_seated`, `update_seated`, `reclaim_seated`: the operations on an object in its slot.
* `Keeps`: the objects of an earlier arena are still in their slots.
-/

namespace ContractHost

/-- A handle, the number of the slot that it names, and the serial number of the object in it. -/
structure Seat where
  handle : Handle
  index : Nat
  place_handle : handle.place = index + 1
  serial : Nat

theorem Handle.place_make {generation index : Nat} (h : index + 1 < places) :
    place (make generation index) = index + 1 := by
  rw [place, make, Nat.mul_add_mod_self_right, Nat.mod_eq_of_lt h]

theorem Handle.generation_make {generation index : Nat} (h : index + 1 < places) :
    Handle.generation (make generation index) = generation := by
  have hpos : 0 < places := twoTo_pos 32
  rw [Handle.generation, make, Nat.mul_comm, Nat.mul_add_div hpos, Nat.div_eq_of_lt h, Nat.add_zero]

namespace Arena

variable {α : Type}

/-- Every free slot is empty and is listed once. -/
structure Tidy (arena : Arena α) : Prop where
  nodup_free : arena.free.Nodup
  empty_of_mem_free : ∀ i ∈ arena.free, ∃ slot, arena.slots[i]? = some slot ∧ slot.occupant = none

/-- No object is in a slot. -/
def Vacant (arena : Arena α) (i : Nat) : Prop :=
  ∀ slot, arena.slots[i]? = some slot → slot.occupant = none

/-- The objects of an arena are in their slots, unchanged, in another one. -/
def Keeps (a b : Arena α) : Prop :=
  ∀ (i : Nat) (slot : Slot α),
    a.slots[i]? = some slot → slot.occupant.isSome → b.slots[i]? = some slot

/-- An object of a class has a seat. -/
def Seated (arena : Arena α) (seat : Seat) (kind : Kind) (object : α) : Prop :=
  arena.slots[seat.index]? =
    some { generation := seat.handle.generation
           occupant := some { object, kind, serial := seat.serial } }

theorem Tidy.empty (base : Kind) : Tidy { base := base : Arena α } :=
  ⟨List.nodup_nil, by simp⟩

theorem Keeps.refl (a : Arena α) : a.Keeps a := fun _ _ h _ => h

theorem Keeps.trans {a b c : Arena α} (hab : a.Keeps b) (hbc : b.Keeps c) : a.Keeps c :=
  fun i slot h hs => hbc i slot (hab i slot h hs) hs

theorem Seated.lt {arena : Arena α} {seat : Seat} {kind : Kind} {object : α}
    (h : arena.Seated seat kind object) : seat.index < arena.slots.length :=
  (List.getElem?_eq_some_iff.1 h).1

theorem Seated.of_keeps {a b : Arena α} {seat : Seat} {kind : Kind} {object : α}
    (h : a.Seated seat kind object) (hk : a.Keeps b) : b.Seated seat kind object :=
  hk _ _ h rfl

/-- An arena that differs from an earlier one only in a slot that was vacant keeps its objects. -/
theorem Keeps.of_vacant {a b c : Arena α} {i : Nat} (hab : a.Keeps b) (hv : a.Vacant i)
    (hc : ∀ j, j ≠ i → c.slots[j]? = b.slots[j]?) : a.Keeps c := by
  intro j slot h hs
  by_cases hj : j = i
  · subst hj
    rw [hv slot h] at hs
    cases hs
  · rw [hc j hj]
    exact hab j slot h hs

/-- A seated object's slot is not free. -/
theorem Seated.not_mem_free {arena : Arena α} {seat : Seat} {kind : Kind} {object : α}
    (h : arena.Seated seat kind object) (tidy : arena.Tidy) : seat.index ∉ arena.free := by
  intro hmem
  obtain ⟨slot, hslot, hempty⟩ := tidy.empty_of_mem_free _ hmem
  rw [Seated, hslot] at h
  cases h
  cases hempty

/-- Changing a slot that is not free keeps an arena tidy. -/
theorem Tidy.of_free {a b : Arena α} {i : Nat} (tidy : a.Tidy) (hfree : b.free = a.free)
    (hi : i ∉ a.free) (hb : ∀ j, j ≠ i → b.slots[j]? = a.slots[j]?) : b.Tidy where
  nodup_free := hfree ▸ tidy.nodup_free
  empty_of_mem_free j hj := by
    rw [hfree] at hj
    rw [hb j (fun e => hi (e ▸ hj))]
    exact tidy.empty_of_mem_free j hj

/-! ## Taking in -/

/-- An arena refuses an object only for its class, and changes no other setting when it takes one. -/
theorem insert_error {arena : Arena α} {kind : Kind} {object : α} {e : ArenaError}
    (h : arena.insert kind object = .error e) :
    kind.isA arena.base = false ∧ e = .unregistrable kind.name arena.base.name := by
  unfold insert at h
  split at h
  · split at h <;> cases h
  · rename_i hk
    cases h
    exact ⟨by simpa using hk, rfl⟩

theorem insert_ok {arena arena' : Arena α} {kind : Kind} {object : α} {handle : Handle}
    (h : arena.insert kind object = .ok (handle, arena')) :
    kind.isA arena.base = true ∧ arena'.base = arena.base ∧
      arena.slots.length ≤ arena'.slots.length := by
  unfold insert at h
  split at h
  · rename_i hk
    split at h <;> cases h
    · exact ⟨hk, rfl, by simp⟩
    · exact ⟨hk, rfl, by simp⟩
  · cases h

theorem insert_seated {arena arena' : Arena α} {kind : Kind} {object : α} {handle : Handle}
    (tidy : arena.Tidy) (h : arena.insert kind object = .ok (handle, arena'))
    (room : arena'.slots.length < Handle.places) :
    ∃ seat : Seat, seat.handle = handle ∧ arena'.Seated seat kind object ∧ arena'.Tidy ∧
      arena.Keeps arena' ∧ arena.Vacant seat.index := by
  unfold insert at h
  split at h
  · split at h
    · rename_i index free hfree
      cases h
      obtain ⟨slot, hslot, hempty⟩ := tidy.empty_of_mem_free index (by simp [hfree])
      have hlt : index < arena.slots.length := (List.getElem?_eq_some_iff.1 hslot).1
      have hnodup := tidy.nodup_free
      rw [hfree, List.nodup_cons] at hnodup
      have hvacant : arena.Vacant index := fun s hs => by
        rw [hslot] at hs
        cases hs
        exact hempty
      have hgeneration : (arena.slots[index]?.map (·.generation)).getD 0 = slot.generation := by
        rw [hslot]
        rfl
      rw [hgeneration]
      have hplace : index + 1 < Handle.places := by
        rw [List.length_set] at room
        exact Nat.lt_of_le_of_lt hlt room
      refine ⟨⟨_, index, Handle.place_make hplace, arena.serial⟩, rfl, ?_, ?_, ?_, hvacant⟩
      · rw [Seated, Handle.generation_make hplace, List.getElem?_set_self hlt]
      · refine ⟨hnodup.2, fun i hi => ?_⟩
        have hne : index ≠ i := fun e => hnodup.1 (e ▸ hi)
        obtain ⟨s, hs, he⟩ := tidy.empty_of_mem_free i (by simp [hfree, hi])
        exact ⟨s, by simpa [List.getElem?_set_ne hne] using hs, he⟩
      · refine (Keeps.refl arena).of_vacant hvacant fun j hj => ?_
        simp [List.getElem?_set_ne (Ne.symm hj)]
    · rename_i hfree
      cases h
      have hvacant : arena.Vacant arena.slots.length := fun s hs => by simp at hs
      have hplace : arena.slots.length + 1 < Handle.places := by
        rwa [List.length_append, List.length_singleton] at room
      refine ⟨⟨_, arena.slots.length, Handle.place_make hplace, arena.serial⟩, rfl, ?_, ?_, ?_,
        hvacant⟩
      · rw [Seated, Handle.generation_make hplace, List.getElem?_concat_length]
      · exact ⟨by simp [hfree], by simp [hfree]⟩
      · intro i s hs _
        have hlt : i < arena.slots.length := (List.getElem?_eq_some_iff.1 hs).1
        simpa [List.getElem?_append_left hlt] using hs
  · cases h

/-- The slot that makes an arena too large for its handles gets a handle without a place. -/
theorem insert_full {arena arena' : Arena α} {kind : Kind} {object : α} {handle : Handle}
    (h : arena.insert kind object = .ok (handle, arena'))
    (room : arena.slots.length < Handle.places) (full : Handle.places ≤ arena'.slots.length) :
    handle.place = 0 := by
  unfold insert at h
  split at h
  · split at h <;> cases h
    · rw [List.length_set] at full
      omega
    · rw [List.length_append, List.length_singleton] at full
      have hlength : arena.slots.length + 1 = Handle.places := by omega
      rw [Handle.place, Handle.make, hlength, Nat.mul_add_mod_self_right, Nat.mod_self]
  · cases h

theorem resolve_of_place_zero {arena : Arena α} {handle : Handle} {asked : Kind}
    (h : handle.place = 0) : arena.resolve handle asked = .error (.unknown handle) := by
  unfold resolve
  generalize handle.place = place at *
  subst h
  rfl

/-! ## Using and taking out -/

theorem length_update (arena : Arena α) (loan : Loan α) (object : α) :
    (arena.update loan object).slots.length = arena.slots.length := by
  unfold update
  split
  · simp
  · rfl

theorem base_update (arena : Arena α) (loan : Loan α) (object : α) :
    (arena.update loan object).base = arena.base := by
  unfold update
  split <;> rfl

theorem resolve_of_place {arena : Arena α} {index : Nat} {handle : Handle} {asked : Kind}
    {slot : Slot α} {occupant : Occupant α} (hplace : handle.place = index + 1)
    (hslot : arena.slots[index]? = some slot) (hoccupant : slot.occupant = some occupant)
    (hgeneration : slot.generation = handle.generation)
    (hkind : occupant.kind.isA asked = true) :
    arena.resolve handle asked = .ok { index, occupant } := by
  unfold resolve
  -- the two halves of the handle are made variables, or their bound would be counted down in unary
  generalize handle.place = place at *
  generalize handle.generation = generation at *
  subst hplace
  simp only [hslot, hoccupant]
  simp [hgeneration, hkind]

theorem resolve_seated {arena : Arena α} {seat : Seat} {kind asked : Kind} {object : α}
    (h : arena.Seated seat kind object) (ha : kind.isA asked = true) :
    arena.resolve seat.handle asked =
      .ok { index := seat.index, occupant := { object, kind, serial := seat.serial } } :=
  resolve_of_place seat.place_handle h rfl rfl ha

/-- The end of a loan puts the object's last form into its slot, whatever form it had when the loan
began, and changes nothing else. -/
theorem update_seated {arena : Arena α} {seat : Seat} {kind : Kind} {held : α}
    (h : arena.Seated seat kind held) (tidy : arena.Tidy) (first last : α) :
    let loan := Loan.mk seat.index { object := first, kind, serial := seat.serial }
    arena.holds loan = true ∧ (arena.update loan last).Seated seat kind last ∧
      (arena.update loan last).Tidy ∧
      ∀ j, j ≠ seat.index → (arena.update loan last).slots[j]? = arena.slots[j]? := by
  intro loan
  have hholds : arena.holds loan = true := by
    rw [Seated] at h
    simp [holds, occupant?, loan, h]
  have hothers : ∀ j, j ≠ seat.index →
      (arena.update loan last).slots[j]? = arena.slots[j]? := fun j hj => by
    simp [update, hholds, loan, Ne.symm hj]
  refine ⟨hholds, ?_, tidy.of_free (by simp [update, hholds]) (h.not_mem_free tidy) hothers, hothers⟩
  rw [Seated] at h ⊢
  simp [update, hholds, loan, h]

theorem reclaim_seated {arena : Arena α} {seat : Seat} {kind : Kind} {object : α}
    (h : arena.Seated seat kind object) (tidy : arena.Tidy) (hk : kind.isA kind = true) :
    ∃ arena', arena.reclaim seat.handle kind = .ok (object, arena') ∧ arena'.Tidy ∧
      ∀ j, j ≠ seat.index → arena'.slots[j]? = arena.slots[j]? := by
  have hothers : ∀ (slot : Slot α) (j : Nat), j ≠ seat.index →
      (arena.slots.set seat.index slot)[j]? = arena.slots[j]? := fun slot j hj =>
    List.getElem?_set_ne (Ne.symm hj)
  have hr := resolve_seated h hk
  refine ⟨_, by simp only [reclaim, hr]; rfl, ⟨?_, fun i hi => ?_⟩, fun j hj => hothers _ j hj⟩
  · exact List.nodup_cons.2 ⟨h.not_mem_free tidy, tidy.nodup_free⟩
  · by_cases hi' : i = seat.index
    · subst hi'
      exact ⟨_, List.getElem?_set_self h.lt, rfl⟩
    · obtain ⟨slot, hslot, hempty⟩ :=
        tidy.empty_of_mem_free i ((List.mem_cons.1 hi).resolve_left hi')
      exact ⟨slot, (hothers _ i hi').trans hslot, hempty⟩

theorem reclaim_ok {arena arena' : Arena α} {handle : Handle} {kind : Kind} {object : α}
    (h : arena.reclaim handle kind = .ok (object, arena')) :
    arena'.slots.length = arena.slots.length ∧ arena'.base = arena.base := by
  unfold reclaim at h
  cases hr : arena.resolve handle kind with
  | error e =>
    rw [hr] at h
    cases h
  | ok loan =>
    rw [hr] at h
    cases h
    exact ⟨List.length_set, rfl⟩

end Arena

end ContractHost
