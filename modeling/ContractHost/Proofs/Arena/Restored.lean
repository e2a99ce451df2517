import ContractHost.Proofs.Arena.Operations

/-!
# Arenas put back

An arena is put back when it holds the objects that it held before, in the same slots, and no others:
what was taken in meanwhile was given back. The objects may have another form by then. Taking an object
in, letting anything happen that puts the arena back, and giving the object back puts the arena back as
well.

* `Restores`: an arena that is put back.
* `Restores.enclosed`: an object that is taken in for a while.
-/

namespace ContractHost.Arena

variable {α : Type}

/-- What tells the object in a slot from all others, whatever form it has. -/
def mark? (arena : Arena α) (i : Nat) : Option (Nat × Kind × Nat) :=
  (arena.slot i).occupant.map fun occupant =>
    ((arena.slot i).generation, occupant.kind, occupant.serial)

/-- A later arena with the objects of an earlier one. -/
structure Restores (a b : Arena α) : Prop where
  tidy : b.Tidy
  mark : ∀ i, b.mark? i = a.mark? i
  live : b.live = a.live
  /-- What was taken in meanwhile came into slots that are empty again. -/
  passed : ∃ deeds, b.book = deeds ++ a.book ∧
    ∀ index handle occupant, .taken index handle occupant ∈ deeds →
      handle.place = index + 1 ∧ a.mark? index = none

theorem mark?_of_slot {arena : Arena α} {i generation : Nat} {occupant : Occupant α}
    (h : arena.slot i = { generation, occupant }) :
    arena.mark? i = some (generation, occupant.kind, occupant.serial) := by
  rw [mark?, h]
  rfl

theorem mark?_eq_none {arena : Arena α} {i : Nat} :
    arena.mark? i = none ↔ (arena.slot i).occupant = none :=
  Option.map_eq_none_iff

theorem mark?_congr {a b : Arena α} {i : Nat} (h : b.slot i = a.slot i) :
    b.mark? i = a.mark? i := by
  rw [mark?, mark?, h]

/-- A handle resolves as long as the mark of its slot stays. -/
theorem resolve_of_mark {a b : Arena α} {handle : Handle} {asked : Kind} {loan : Loan α}
    (h : a.resolve handle asked = .ok loan) (hmark : b.mark? loan.index = a.mark? loan.index) :
    ∃ loan', b.resolve handle asked = .ok loan' ∧ loan'.index = loan.index ∧
      loan'.occupant.kind = loan.occupant.kind ∧ loan'.occupant.serial = loan.occupant.serial := by
  obtain ⟨hplace, hslot, hkind⟩ := resolve_ok_iff.1 h
  rw [mark?_of_slot hslot, mark?] at hmark
  obtain ⟨occupant, hoccupant, heq⟩ := Option.map_eq_some_iff.1 hmark
  obtain ⟨hgeneration, hkind', hserial⟩ : (b.slot loan.index).generation = handle.generation ∧
      occupant.kind = loan.occupant.kind ∧ occupant.serial = loan.occupant.serial := by
    simpa using heq
  refine ⟨⟨loan.index, occupant⟩, resolve_ok_iff.2 ⟨hplace, ?_, hkind' ▸ hkind⟩, rfl, hkind',
    hserial⟩
  rw [← hgeneration, ← hoccupant]

/-- The end of a loan changes the form of an object only. -/
theorem mark?_update (arena : Arena α) (loan : Loan α) (object : α) (i : Nat) :
    (arena.update loan object).mark? i = arena.mark? i := by
  unfold update
  split
  · simp only [mark?, slot, List.getElem?_modify]
    cases arena.slots[i]? with
    | none => rfl
    | some slot =>
      by_cases hi : loan.index = i
      · simp [hi, Function.comp_def]
      · simp [hi]
  · rfl

theorem Tidy.of_mark {a b : Arena α} (tidy : a.Tidy) (hfree : b.free = a.free)
    (hlength : b.slots.length = a.slots.length) (hmark : ∀ i, b.mark? i = a.mark? i) : b.Tidy where
  nodup_free := hfree ▸ tidy.nodup_free
  empty_of_mem_free i hi := by
    obtain ⟨slot, hslot, hempty⟩ := tidy.empty_of_mem_free i (hfree ▸ hi)
    have hlt : i < b.slots.length := hlength ▸ (List.getElem?_eq_some_iff.1 hslot).1
    refine ⟨b.slot i, slot_of_lt hlt, mark?_eq_none.1 ?_⟩
    rw [hmark, mark?_eq_none, slot_of_getElem? hslot, hempty]

namespace Restores

theorem refl {a : Arena α} (tidy : a.Tidy) : a.Restores a where
  tidy := tidy
  mark _ := rfl
  live := rfl
  passed := ⟨[], rfl, nofun⟩

theorem trans {a b c : Arena α} (hab : a.Restores b) (hbc : b.Restores c) : a.Restores c := by
  refine ⟨hbc.tidy, fun i => (hbc.mark i).trans (hab.mark i), hbc.live.trans hab.live, ?_⟩
  obtain ⟨first, hfirst, hpassed⟩ := hab.passed
  obtain ⟨second, hsecond, hpassed'⟩ := hbc.passed
  refine ⟨second ++ first, by rw [hsecond, hfirst, List.append_assoc], ?_⟩
  intro index handle occupant hmem
  rcases List.mem_append.1 hmem with hmem | hmem
  · rw [← hab.mark index]
    exact hpassed' index handle occupant hmem
  · exact hpassed index handle occupant hmem

theorem update {a : Arena α} (tidy : a.Tidy) (loan : Loan α) (object : α) :
    a.Restores (a.update loan object) := by
  have hfree : (a.update loan object).free = a.free ∧ (a.update loan object).live = a.live ∧
      (a.update loan object).book = a.book := by
    unfold Arena.update
    split <;> exact ⟨rfl, rfl, rfl⟩
  refine ⟨tidy.of_mark hfree.1 (length_update ..) (mark?_update a loan object),
    mark?_update a loan object, hfree.2.1, [], hfree.2.2, nofun⟩

/-- No handle that was given out meanwhile resolves any more. -/
theorem dead_of_mem {a b : Arena α} (h : a.Restores b) :
    ∃ deeds, b.book = deeds ++ a.book ∧
      ∀ index handle occupant, .taken index handle occupant ∈ deeds → b.Dead handle := by
  obtain ⟨deeds, hbook, hpassed⟩ := h.passed
  refine ⟨deeds, hbook, fun index handle occupant hmem => ?_⟩
  obtain ⟨hplace, hempty⟩ := hpassed index handle occupant hmem
  exact dead_of_vacant hplace (mark?_eq_none.1 ((h.mark index).trans hempty))

/-- An object that is taken in, and given back once the arena is put back to what it was with the
object, leaves the arena as it was without it. -/
theorem enclosed {a b c : Arena α} {kind : Kind} {object : α} {handle : Handle} (tidy : a.Tidy)
    (hinsert : a.insert kind object = .ok (handle, b)) (room : b.slots.length < Handle.places)
    (h : b.Restores c) :
    ∃ last d, c.reclaim handle kind = .ok (last, d) ∧ a.Restores d := by
  obtain ⟨index, takes⟩ := insert_takes tidy hinsert
  have hindex : index + 1 < Handle.places := Nat.lt_of_le_of_lt takes.lt room
  have hslot : b.slot index =
      { generation := handle.generation, occupant := some { object, kind, serial := a.serial } } := by
    rw [takes.slot, takes.handle_eq, Handle.generation_make hindex]
  have hplace : handle.place = index + 1 := takes.handle_eq ▸ Handle.place_make hindex
  have hresolve : b.resolve handle kind =
      .ok { index, occupant := { object, kind, serial := a.serial } } :=
    resolve_ok_iff.2 ⟨hplace, hslot, by simp [Kind.isA]⟩
  obtain ⟨loan, hresolve', hindex', -⟩ := resolve_of_mark hresolve (h.mark index)
  obtain rfl : loan.index = index := hindex'
  obtain ⟨last, d, hreclaim⟩ : ∃ last d, c.reclaim handle kind = .ok (last, d) :=
    ⟨_, _, by simp only [Arena.reclaim, hresolve']; rfl⟩
  obtain ⟨loan', hloan, -, gives⟩ := reclaim_gives hreclaim
  obtain rfl : loan = loan' := Except.ok.inj (hresolve'.symm.trans hloan)
  refine ⟨last, d, hreclaim, gives.tidy h.tidy, fun i => ?_, ?_, ?_⟩
  · by_cases hi : i = loan.index
    · rw [hi, mark?_eq_none.2 takes.vacant, mark?_eq_none, gives.slot]
    · rw [mark?_congr (gives.others i hi), h.mark, mark?_congr (takes.others i hi)]
  · rw [gives.live, h.live, takes.live, Nat.add_sub_cancel]
  · obtain ⟨deeds, hbook, hpassed⟩ := h.passed
    refine ⟨.given loan.index handle :: (deeds ++ [.taken loan.index handle
        { object, kind, serial := a.serial }]), by simp [gives.book, hbook, takes.book], ?_⟩
    intro i handle' occupant hmem
    rw [List.mem_cons, List.mem_append, List.mem_singleton] at hmem
    rcases hmem with hmem | hmem | hmem
    · cases hmem
    · obtain ⟨hplace', hempty⟩ := hpassed i handle' occupant hmem
      have hi : i ≠ loan.index := by
        rintro rfl
        rw [mark?_of_slot hslot] at hempty
        cases hempty
      exact ⟨hplace', mark?_congr (takes.others i hi) ▸ hempty⟩
    · cases hmem
      exact ⟨hplace, mark?_eq_none.2 takes.vacant⟩

end Restores

/-- An arena that keeps the objects of another one resolves its handles to them. -/
theorem Keeps.resolve {a b : Arena α} {handle : Handle} {asked : Kind} {loan : Loan α}
    (h : a.Keeps b) (hresolve : a.resolve handle asked = .ok loan) :
    b.resolve handle asked = .ok loan := by
  obtain ⟨hplace, hslot, hkind⟩ := resolve_ok_iff.1 hresolve
  have hlt : loan.index < a.slots.length := lt_of_occupant (by rw [hslot])
  have hkept := h loan.index _ (slot_of_lt hlt) (by rw [hslot]; rfl)
  exact resolve_ok_iff.2 ⟨hplace, by rw [slot_of_getElem? hkept, hslot], hkind⟩

end ContractHost.Arena
