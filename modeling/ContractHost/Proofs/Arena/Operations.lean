import ContractHost.Proofs.Arena.Seat

/-!
# What the operations of an arena change

Taking an object in and giving one back each change one slot. Here is everything else that they change,
or leave as it is, for a tidy arena; later modules open neither operation again.

* `resolve_ok_iff`: when a handle resolves.
* `insert_takes`: an object is taken in.
* `reclaim_gives`: an object is given back.
* `Holds`: what is true of all objects inside, also after each operation, be the arena tidy or not.
-/

namespace ContractHost.Arena

variable {α : Type}

/-- A slot, made so far or not. -/
def slot (arena : Arena α) (i : Nat) : Slot α := arena.slots[i]?.getD {}

theorem slot_of_getElem? {arena : Arena α} {i : Nat} {s : Slot α} (h : arena.slots[i]? = some s) :
    arena.slot i = s := by
  rw [slot, h, Option.getD_some]

theorem slot_of_lt {arena : Arena α} {i : Nat} (h : i < arena.slots.length) :
    arena.slots[i]? = some (arena.slot i) := by
  rw [slot, List.getElem?_eq_getElem h, Option.getD_some]

/-- A slot with an object has been made. -/
theorem lt_of_occupant {arena : Arena α} {i : Nat} {occupant : Occupant α}
    (h : (arena.slot i).occupant = some occupant) : i < arena.slots.length := by
  refine Nat.lt_of_not_le fun hge => ?_
  rw [slot, List.getElem?_eq_none hge] at h
  cases h

theorem resolve_ok_iff {arena : Arena α} {handle : Handle} {asked : Kind} {loan : Loan α} :
    arena.resolve handle asked = .ok loan ↔
      handle.place = loan.index + 1 ∧
        arena.slot loan.index = { generation := handle.generation, occupant := loan.occupant } ∧
        loan.occupant.kind.isA asked = true := by
  constructor
  · intro h
    unfold resolve at h
    split at h
    · cases h
    · rename_i index hplace
      split at h
      · cases h
      · rename_i slot hslot
        split at h
        · cases h
        · rename_i occupant hoccupant
          split at h
          · cases h
          · rename_i hgeneration
            split at h
            · rename_i hkind
              cases h
              refine ⟨hplace, ?_, hkind⟩
              rw [slot_of_getElem? hslot, ← hoccupant, ← Decidable.not_not.1 hgeneration]
            · cases h
  · rintro ⟨hplace, hslot, hkind⟩
    have hlt : loan.index < arena.slots.length := lt_of_occupant (by rw [hslot])
    exact resolve_of_place hplace (slot_of_lt hlt) (by rw [hslot]) (by rw [hslot]) hkind

/-- A handle resolves to nothing, whatever class is asked for. -/
def Dead (arena : Arena α) (handle : Handle) : Prop :=
  ∀ asked, ∃ e, arena.resolve handle asked = .error e

theorem dead_of_forall_ne {arena : Arena α} {handle : Handle}
    (h : ∀ asked loan, arena.resolve handle asked ≠ .ok loan) : arena.Dead handle := by
  intro asked
  cases hr : arena.resolve handle asked with
  | error e => exact ⟨e, rfl⟩
  | ok loan => exact absurd hr (h asked loan)

theorem dead_of_vacant {arena : Arena α} {index : Nat} {handle : Handle}
    (hplace : handle.place = index + 1) (hempty : (arena.slot index).occupant = none) :
    arena.Dead handle := by
  refine dead_of_forall_ne fun asked loan h => ?_
  obtain ⟨hplace', hslot, -⟩ := resolve_ok_iff.1 h
  have hindex : index = loan.index := by omega
  rw [hindex, hslot] at hempty
  cases hempty

/-! ## Taking in -/

/-- The number of slots with an object. -/
def occupied (arena : Arena α) : Nat := arena.slots.countP (·.occupant.isSome)

/-- An object was taken into a slot that was empty, the free one in front or else a new one. -/
structure Takes (arena arena' : Arena α) (index : Nat) (handle : Handle) (occupant : Occupant α) :
    Prop where
  handle_eq : handle = Handle.make (arena.slot index).generation index
  vacant : (arena.slot index).occupant = none
  slot : arena'.slot index = { generation := (arena.slot index).generation, occupant }
  others : ∀ j, j ≠ index → arena'.slot j = arena.slot j
  place :
    arena.free = index :: arena'.free ∧ index < arena.slots.length ∧
        arena'.slots.length = arena.slots.length ∨
      arena.free = [] ∧ arena'.free = [] ∧ index = arena.slots.length ∧
        arena'.slots.length = arena.slots.length + 1
  occupied : arena'.occupied = arena.occupied + 1
  live : arena'.live = arena.live + 1
  book : arena'.book = .taken index handle occupant :: arena.book

theorem insert_takes {arena arena' : Arena α} {kind : Kind} {object : α} {handle : Handle}
    (tidy : arena.Tidy) (h : arena.insert kind object = .ok (handle, arena')) :
    ∃ index, arena.Takes arena' index handle { object, kind, serial := arena.serial } := by
  unfold insert at h
  split at h
  · split at h
    · rename_i index free hfree
      obtain ⟨slot, hslot, hempty⟩ := tidy.empty_of_mem_free index (by simp [hfree])
      have hlt : index < arena.slots.length := (List.getElem?_eq_some_iff.1 hslot).1
      have hheld : arena.slot index = slot := slot_of_getElem? hslot
      cases h
      refine ⟨index, ?_, ?_, ?_, fun j hj => ?_, Or.inl ⟨hfree, hlt, List.length_set⟩, ?_, rfl, rfl⟩
      · rw [hheld, hslot]
        rfl
      · rw [hheld, hempty]
      · rw [hheld, hslot, Arena.slot, List.getElem?_set_self hlt]
        rfl
      · rw [Arena.slot, List.getElem?_set_ne (Ne.symm hj), Arena.slot]
      · have hget : arena.slots[index] = slot := (List.getElem?_eq_some_iff.1 hslot).2
        simp [Arena.occupied, List.countP_set hlt, hget, hempty]
    · rename_i hfree
      have hheld : arena.slot arena.slots.length = {} := by
        rw [Arena.slot, List.getElem?_eq_none (Nat.le_refl _), Option.getD_none]
      cases h
      refine ⟨arena.slots.length, ?_, ?_, ?_, fun j hj => ?_,
        Or.inr ⟨hfree, hfree, rfl, by simp⟩, ?_, rfl, rfl⟩
      · rw [hheld]
      · rw [hheld]
      · rw [hheld, Arena.slot, List.getElem?_concat_length, Option.getD_some]
      · rw [Arena.slot, Arena.slot, List.getElem?_append]
        by_cases hlt : j < arena.slots.length
        · rw [if_pos hlt]
        · have hge : arena.slots.length + 1 ≤ j := by omega
          rw [if_neg hlt, List.getElem?_eq_none (l := arena.slots) (by omega),
            List.getElem?_eq_none (by simp; omega)]
      · simp [Arena.occupied, List.countP_append]
  · cases h

namespace Takes

variable {arena arena' : Arena α} {index : Nat} {handle : Handle} {occupant : Occupant α}

/-- The slot is there afterwards. -/
theorem lt (takes : arena.Takes arena' index handle occupant) : index < arena'.slots.length := by
  rcases takes.place with ⟨-, hlt, hlength⟩ | ⟨-, -, hindex, hlength⟩ <;> omega

theorem grows (takes : arena.Takes arena' index handle occupant) :
    arena.slots.length ≤ arena'.slots.length := by
  rcases takes.place with ⟨-, -, hlength⟩ | ⟨-, -, -, hlength⟩ <;> omega

/-- Either the free list becomes shorter or the slots become more. -/
theorem length_add (takes : arena.Takes arena' index handle occupant) :
    arena'.free.length + 1 + arena.slots.length = arena.free.length + arena'.slots.length := by
  rcases takes.place with ⟨hfree, -, hlength⟩ | ⟨hfree, hfree', -, hlength⟩
  · rw [hfree, hlength, List.length_cons]
  · rw [hfree, hfree', hlength]
    omega

theorem nodup_free (takes : arena.Takes arena' index handle occupant) (h : arena.free.Nodup) :
    index ∉ arena'.free ∧ arena'.free.Nodup := by
  rcases takes.place with ⟨hfree, -⟩ | ⟨-, hfree, -⟩
  · rwa [hfree, List.nodup_cons] at h
  · rw [hfree]
    exact ⟨List.not_mem_nil, List.nodup_nil⟩

end Takes

/-! ## Giving back -/

/-- The object of a loan was given back and its slot is free. -/
structure Gives (arena arena' : Arena α) (handle : Handle) (loan : Loan α) : Prop where
  lt : loan.index < arena.slots.length
  held : arena.slot loan.index = { generation := handle.generation, occupant := loan.occupant }
  slot : arena'.slot loan.index =
    { generation := (handle.generation + 1) % Handle.generations, occupant := none }
  others : ∀ j, j ≠ loan.index → arena'.slot j = arena.slot j
  free : arena'.free = loan.index :: arena.free
  length : arena'.slots.length = arena.slots.length
  occupied : arena'.occupied + 1 = arena.occupied
  live : arena'.live = arena.live - 1
  book : arena'.book = .given loan.index handle :: arena.book

theorem reclaim_gives {arena arena' : Arena α} {handle : Handle} {kind : Kind} {object : α}
    (h : arena.reclaim handle kind = .ok (object, arena')) :
    ∃ loan, arena.resolve handle kind = .ok loan ∧ object = loan.occupant.object ∧
      arena.Gives arena' handle loan := by
  unfold reclaim at h
  cases hr : arena.resolve handle kind with
  | error e =>
    rw [hr] at h
    cases h
  | ok loan =>
    obtain ⟨-, hslot, -⟩ := resolve_ok_iff.1 hr
    have hlt : loan.index < arena.slots.length := lt_of_occupant (by rw [hslot])
    rw [hr] at h
    cases h
    refine ⟨loan, rfl, rfl, hlt, hslot, ?_, fun j hj => ?_, rfl, List.length_set, ?_, rfl, rfl⟩
    · rw [Arena.slot, List.getElem?_set_self hlt, Option.getD_some]
    · rw [Arena.slot, List.getElem?_set_ne (Ne.symm hj), Arena.slot]
    · have hget : arena.slots[loan.index].occupant = some loan.occupant := by
        have := slot_of_lt hlt
        rw [List.getElem?_eq_getElem hlt, Option.some.injEq] at this
        rw [this, hslot]
      have hpos : 0 < arena.occupied :=
        List.countP_pos_iff.2 ⟨_, List.getElem_mem hlt, by rw [hget]; rfl⟩
      simp only [Arena.occupied, List.countP_set hlt, hget] at hpos ⊢
      simp
      omega

theorem Gives.tidy {arena arena' : Arena α} {handle : Handle} {loan : Loan α} (tidy : arena.Tidy)
    (gives : arena.Gives arena' handle loan) : arena'.Tidy where
  nodup_free := by
    rw [gives.free]
    refine List.nodup_cons.2 ⟨fun hmem => ?_, tidy.nodup_free⟩
    obtain ⟨slot, hslot, hempty⟩ := tidy.empty_of_mem_free _ hmem
    have hheld := gives.held
    rw [slot_of_getElem? hslot] at hheld
    rw [hheld] at hempty
    cases hempty
  empty_of_mem_free i hi := by
    rw [gives.free, List.mem_cons] at hi
    by_cases hindex : i = loan.index
    · subst hindex
      exact ⟨_, slot_of_lt (gives.length ▸ gives.lt), by rw [gives.slot]⟩
    · obtain ⟨slot, hslot, hempty⟩ := tidy.empty_of_mem_free i (hi.resolve_left hindex)
      have hlt : i < arena'.slots.length := gives.length ▸ (List.getElem?_eq_some_iff.1 hslot).1
      exact ⟨_, slot_of_lt hlt, by rw [gives.others i hindex, slot_of_getElem? hslot, hempty]⟩

/-! ## All objects inside -/

/-- All objects inside have a property. -/
def Holds (P : α → Prop) (arena : Arena α) : Prop :=
  ∀ slot ∈ arena.slots, ∀ occupant, slot.occupant = some occupant → P occupant.object

namespace Holds

variable {P : α → Prop} {arena arena' : Arena α} {kind : Kind} {handle : Handle} {object : α}
  {loan : Loan α}

theorem insert (h : arena.Holds P) (hobject : P object)
    (hinsert : arena.insert kind object = .ok (handle, arena')) : arena'.Holds P := by
  have hnew (generation serial : Nat) : ∀ occupant : Occupant α,
      (Slot.mk generation (some { object, kind, serial })).occupant = some occupant →
        P occupant.object := by
    rintro _ ⟨rfl⟩
    exact hobject
  unfold Arena.insert at hinsert
  split at hinsert
  · split at hinsert
    · cases hinsert
      intro slot hslot
      rcases List.mem_or_eq_of_mem_set hslot with hold | rfl
      · exact h slot hold
      · exact hnew _ _
    · cases hinsert
      intro slot hslot
      rcases List.mem_append.1 hslot with hold | hmade
      · exact h slot hold
      · rw [List.mem_singleton.1 hmade]
        exact hnew _ _
  · cases hinsert

theorem resolve (h : arena.Holds P) (hresolve : arena.resolve handle kind = .ok loan) :
    P loan.occupant.object := by
  obtain ⟨-, hslot, -⟩ := resolve_ok_iff.1 hresolve
  have hlt : loan.index < arena.slots.length := lt_of_occupant (by rw [hslot])
  exact h _ (List.mem_of_getElem? (slot_of_lt hlt)) _ (by rw [hslot])

theorem reclaim (h : arena.Holds P) (hreclaim : arena.reclaim handle kind = .ok (object, arena')) :
    P object ∧ arena'.Holds P := by
  unfold Arena.reclaim at hreclaim
  cases hresolve : arena.resolve handle kind with
  | error e =>
    rw [hresolve] at hreclaim
    cases hreclaim
  | ok loan =>
    rw [hresolve] at hreclaim
    cases hreclaim
    refine ⟨h.resolve hresolve, fun slot hslot occupant hoccupant => ?_⟩
    rcases List.mem_or_eq_of_mem_set hslot with hold | rfl
    · exact h slot hold occupant hoccupant
    · cases hoccupant

theorem update (h : arena.Holds P) (loan : Loan α) (hobject : P object) :
    (arena.update loan object).Holds P := by
  unfold Arena.update
  split
  · intro slot hslot occupant hoccupant
    obtain ⟨i, hi⟩ := List.mem_iff_getElem?.1 hslot
    rw [List.getElem?_modify] at hi
    obtain ⟨old, hold, rfl⟩ := Option.map_eq_some_iff.1 hi
    split at hoccupant
    · obtain ⟨before, -, rfl⟩ := Option.map_eq_some_iff.1 hoccupant
      exact hobject
    · exact h old (List.mem_of_getElem? hold) occupant hoccupant
  · exact h

end Holds

end ContractHost.Arena
