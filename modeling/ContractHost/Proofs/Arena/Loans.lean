import ContractHost.Proofs.Arena.Handles
import ContractHost.Proofs.Yields

/-!
# Loans and what runs inside them

The end of a loan asks only whether the object in the slot is the one that was lent, and not for the
slot's generation. That is enough: serial numbers do not come round, so an object that has left its slot
is told apart from all that come into the slot later, also when the generation has come round. A lent
object leaves its slot by its own handle only, because no other handle tells its slot and generation.

* `Owns`, `Lost`: a lent object that is in its slot, and one that has left it.
* `Lost.of_evolves`: an object that has left does not come back.
* `runAll_keeps_loan`: steps either take the object out or leave it where it is.
* `borrow_ends`: how a loan ends.
-/

namespace ContractHost

/-- A handle is told by its place and its generation. -/
theorem Handle.eq_of_place {a b : Handle} (hplace : a.place = b.place)
    (hgeneration : Handle.generation a = Handle.generation b) : a = b := by
  calc a = places * Handle.generation a + place a := (Nat.div_add_mod a places).symm
    _ = places * Handle.generation b + place b := by rw [hgeneration, hplace]
    _ = b := Nat.div_add_mod b places

namespace Arena

variable {α : Type}

/-! ## Serial numbers -/

theorem insert_serial {arena arena' : Arena α} {kind : Kind} {object : α} {handle : Handle}
    (h : arena.insert kind object = .ok (handle, arena')) : arena'.serial = arena.serial + 1 := by
  unfold insert at h
  split at h
  · split at h <;> cases h <;> rfl
  · cases h

theorem reclaim_serial {arena arena' : Arena α} {handle : Handle} {kind : Kind} {object : α}
    (h : arena.reclaim handle kind = .ok (object, arena')) : arena'.serial = arena.serial := by
  obtain ⟨loan, -, hloan⟩ := bind_eq_ok_iff.1 h
  cases hloan
  rfl

/-- The objects in an arena came into it before the next one. -/
def Numbered (arena : Arena α) : Prop :=
  ∀ i occupant, (arena.slot i).occupant = some occupant → occupant.serial < arena.serial

theorem Numbered.of_evolves {base : Kind} {arena : Arena α} (h : Evolves { base } arena) :
    arena.Numbered := by
  induction h with
  | refl =>
    intro i occupant h
    cases h
  | @insert b c kind object handle hb hinsert ih =>
    obtain ⟨index, takes⟩ := insert_takes (Accounted.of_evolves hb).tidy hinsert
    intro i occupant h
    rw [insert_serial hinsert]
    by_cases hi : i = index
    · rw [hi, takes.slot] at h
      cases h
      exact Nat.lt_succ_self _
    · rw [takes.others i hi] at h
      exact Nat.lt_succ_of_lt (ih i occupant h)
  | @reclaim b c kind object handle hb hreclaim ih =>
    obtain ⟨loan, -, -, gives⟩ := reclaim_gives hreclaim
    intro i occupant h
    rw [reclaim_serial hreclaim]
    by_cases hi : i = loan.index
    · rw [hi, gives.slot] at h
      cases h
    · rw [gives.others i hi] at h
      exact ih i occupant h

/-! ## Lent objects -/

/-- The object of a loan is in its slot, under a handle. -/
structure Owns (arena : Arena α) (handle : Handle) (loan : Loan α) : Prop where
  place : handle.place = loan.index + 1
  slot : arena.slot loan.index = { generation := handle.generation, occupant := loan.occupant }

/-- The object of a loan has left its slot, for good. -/
structure Lost (arena : Arena α) (loan : Loan α) : Prop where
  gone : ∀ occupant, (arena.slot loan.index).occupant = some occupant →
    occupant.serial ≠ loan.occupant.serial
  past : loan.occupant.serial < arena.serial

variable {a b : Arena α} {handle other : Handle} {kind : Kind} {object : α} {loan : Loan α}

theorem owns_of_resolve (h : a.resolve handle kind = .ok loan) : a.Owns handle loan := by
  obtain ⟨hplace, hslot, -⟩ := resolve_ok_iff.1 h
  exact ⟨hplace, hslot⟩

/-- What a handle resolves to can be taken out. -/
theorem exists_reclaim (h : a.resolve handle kind = .ok loan) :
    ∃ given, a.reclaim handle kind = .ok given :=
  ⟨_, by rw [reclaim, h]; rfl⟩

theorem Owns.endLoan (h : a.Owns handle loan) : a.endLoan loan = .ok () := by
  have hholds : a.holds loan = true := by
    simp [holds, occupant?_eq, h.slot]
  rw [Arena.endLoan, if_pos hholds]

theorem Lost.endLoan (h : a.Lost loan) : a.endLoan loan = .error .reclaimedWhileBorrowed := by
  have hholds : a.holds loan = false := by
    unfold holds
    rw [occupant?_eq]
    split
    · rename_i occupant hoccupant
      exact decide_eq_false (h.gone occupant hoccupant)
    · rfl
  rw [Arena.endLoan, hholds]
  rfl

/-- An object that has left does not come back: whatever comes into its slot has a later number. -/
theorem Lost.of_evolves {base : Kind} (ha : Evolves { base } a) (h : a.Lost loan)
    (hab : Evolves a b) : b.Lost loan := by
  induction hab with
  | refl => exact h
  | @insert b c kind object handle hb hinsert ih =>
    obtain ⟨index, takes⟩ := insert_takes (Accounted.of_evolves (ha.trans hb)).tidy hinsert
    refine ⟨fun occupant hoccupant => ?_, ?_⟩
    · by_cases hi : loan.index = index
      · rw [hi, takes.slot] at hoccupant
        cases hoccupant
        exact Nat.ne_of_gt ih.past
      · rw [takes.others _ hi] at hoccupant
        exact ih.gone occupant hoccupant
    · rw [insert_serial hinsert]
      exact Nat.lt_succ_of_lt ih.past
  | @reclaim b c kind object handle hb hreclaim ih =>
    obtain ⟨given, -, -, gives⟩ := reclaim_gives hreclaim
    refine ⟨fun occupant hoccupant => ?_, reclaim_serial hreclaim ▸ ih.past⟩
    by_cases hi : loan.index = given.index
    · rw [hi, gives.slot] at hoccupant
      cases hoccupant
    · rw [gives.others _ hi] at hoccupant
      exact ih.gone occupant hoccupant

/-! ## One operation -/

/-- A new object does not come into the slot of a lent one. -/
theorem Owns.of_insert (tidy : a.Tidy) (h : a.Owns handle loan)
    (hinsert : a.insert kind object = .ok (other, b)) : b.Owns handle loan := by
  obtain ⟨index, takes⟩ := insert_takes tidy hinsert
  have hi : loan.index ≠ index := by
    rintro hi
    have hempty := takes.vacant
    rw [← hi, h.slot] at hempty
    cases hempty
  exact ⟨h.place, (takes.others _ hi).trans h.slot⟩

/-- An object that is taken out by another handle is in another slot. -/
theorem Owns.of_reclaim (h : a.Owns handle loan) (hne : other ≠ handle)
    (hreclaim : a.reclaim other kind = .ok (object, b)) : b.Owns handle loan := by
  obtain ⟨given, hresolve, -, gives⟩ := reclaim_gives hreclaim
  have hgiven := owns_of_resolve hresolve
  have hi : loan.index ≠ given.index := by
    intro hi
    have hplace : other.place = handle.place := by rw [hgiven.place, h.place, hi]
    have hslot := hgiven.slot.symm.trans (hi ▸ h.slot)
    exact hne (Handle.eq_of_place hplace (congrArg Slot.generation hslot))
  exact ⟨h.place, (gives.others _ hi).trans h.slot⟩

/-- An object that is taken out by its handle is lost. -/
theorem Owns.lost (numbered : a.Numbered) (h : a.Owns handle loan)
    (hreclaim : a.reclaim handle kind = .ok (object, b)) : b.Lost loan := by
  obtain ⟨given, hresolve, -, gives⟩ := reclaim_gives hreclaim
  have hi : loan.index = given.index := by
    have hplace := (owns_of_resolve hresolve).place
    rw [h.place] at hplace
    exact Nat.succ.inj hplace
  have hpast : loan.occupant.serial < a.serial := numbered loan.index _ (by rw [h.slot])
  refine ⟨fun occupant hoccupant => ?_, reclaim_serial hreclaim ▸ hpast⟩
  rw [hi, gives.slot] at hoccupant
  cases hoccupant

/-! ## Runs -/

mutual

/-- A step takes out the object of a handle, itself or inside a loan. -/
def Step.Reclaims (handle : Handle) : Step → Desk → Prop
  | .insert .., _ => False
  | .borrow target kind inside, desk =>
    (∃ loan, desk.arena.resolve (desk.handle target) (kind.getD desk.arena.base) = .ok loan) ∧
      RunReclaims handle inside desk
  | .reclaim target kind, desk =>
    desk.handle target = handle ∧
      ∃ given, desk.arena.reclaim handle (kind.getD desk.arena.base) = .ok given

/-- A step of a run takes out the object of a handle. -/
def RunReclaims (handle : Handle) : List Step → Desk → Prop
  | [], _ => False
  | step :: rest, desk => step.Reclaims handle desk ∨ RunReclaims handle rest (step.run desk).2

end

/-- Either the lent object was taken out by its handle and is lost, or it was not and is in its slot. -/
def TakenOrKept (handle : Handle) (loan : Loan String) (reclaimed : Prop) (arena : Arena String) : Prop :=
  reclaimed ∧ arena.Lost loan ∨ ¬reclaimed ∧ arena.Owns handle loan

section

variable {base : Kind} {handle : Handle} {loan : Loan String}

mutual

theorem Step.run_keeps_loan (step : Step) (desk : Desk) (evolved : Evolves { base } desk.arena)
    (h : desk.arena.Owns handle loan) :
    TakenOrKept handle loan (step.Reclaims handle desk) (step.run desk).2.arena := by
  cases step with
  | insert label kind =>
    refine .inr ⟨id, ?_⟩
    simp only [Step.run]
    cases hinsert : desk.arena.insert kind label with
    | error e => exact h
    | ok taken => exact h.of_insert (Accounted.of_evolves evolved).tidy hinsert
  | borrow target kind inside =>
    simp only [Step.run, Step.Reclaims]
    cases hresolve : desk.arena.resolve (desk.handle target) (kind.getD desk.arena.base) with
    | error e => exact .inr ⟨fun ⟨⟨_, hlent⟩, _⟩ => (nomatch hlent), h⟩
    | ok lent =>
      have hinside := runAll_keeps_loan inside desk evolved h
      have hiff : ((∃ loan, Except.ok lent = (Except.ok loan : Except ArenaError _)) ∧
          RunReclaims handle inside desk) ↔ RunReclaims handle inside desk :=
        and_iff_right ⟨lent, rfl⟩
      rw [hiff]
      simp only
      cases (runAll inside desk).2.arena.endLoan lent <;> exact hinside
  | reclaim target kind =>
    simp only [Step.run, Step.Reclaims]
    by_cases hhandle : desk.handle target = handle
    · rw [hhandle]
      cases hreclaim : desk.arena.reclaim handle (kind.getD desk.arena.base) with
      | error e => exact .inr ⟨fun ⟨_, _, hgiven⟩ => (nomatch hgiven), h⟩
      | ok given => exact .inl ⟨⟨rfl, given, rfl⟩, h.lost (.of_evolves evolved) hreclaim⟩
    · refine .inr ⟨fun hreclaims => hhandle hreclaims.1, ?_⟩
      cases hreclaim : desk.arena.reclaim (desk.handle target) (kind.getD desk.arena.base) with
      | error e => exact h
      | ok given => exact h.of_reclaim hhandle hreclaim

/-- Steps either take a lent object out by its handle, and then it is lost, or leave it in its slot. -/
theorem runAll_keeps_loan (steps : List Step) (desk : Desk)
    (evolved : Evolves { base } desk.arena) (h : desk.arena.Owns handle loan) :
    TakenOrKept handle loan (RunReclaims handle steps desk) (runAll steps desk).2.arena := by
  cases steps with
  | nil => exact .inr ⟨id, h⟩
  | cons step rest =>
    simp only [runAll, RunReclaims]
    have hnext : Evolves { base } (step.run desk).2.arena := evolved.trans (step.run_evolves desk)
    rcases step.run_keeps_loan desk evolved h with ⟨hreclaims, hlost⟩ | ⟨hreclaims, howns⟩
    · exact .inl ⟨.inl hreclaims, hlost.of_evolves hnext (runAll_evolves rest _)⟩
    · rw [or_iff_right hreclaims]
      exact runAll_keeps_loan rest _ hnext howns

end

/-- A loan ends with the error of an object that was reclaimed while borrowed if and only if its own
handle took the object out meanwhile, whatever came into the slot since then. Else it ends well, and its
handle resolves to the object as before. -/
theorem borrow_ends {steps inside : List Step} {moment : Desk} {target : Target}
    {kind : Option Kind} (h : Passes steps { arena := { base } } moment)
    (hresolve : moment.arena.resolve (moment.handle target) (kind.getD moment.arena.base) =
      .ok loan) :
    let handle := moment.handle target
    let outcome := Step.run (.borrow target kind inside) moment
    outcome.2 = (runAll inside moment).2 ∧
      ((∃ e, outcome.1 = .failed e outcome.2.arena.live ∧
          e.message = "Host context was reclaimed while borrowed") ↔
        RunReclaims handle inside moment) ∧
      (¬RunReclaims handle inside moment →
        outcome.1 =
            .borrowed loan.occupant.object (runAll inside moment).1 outcome.2.arena.live ∧
          outcome.2.arena.resolve handle (kind.getD moment.arena.base) = .ok loan) := by
  intro handle outcome
  have hkind := (resolve_ok_iff.1 hresolve).2.2
  rcases runAll_keeps_loan inside moment h.evolves (owns_of_resolve hresolve) with
    ⟨hreclaims, hlost⟩ | ⟨hreclaims, howns⟩
  · have hrun : outcome = (.failed .reclaimedWhileBorrowed (runAll inside moment).2.arena.live,
        (runAll inside moment).2) := by
      simp only [outcome, Step.run, hresolve, hlost.endLoan]
    rw [hrun]
    exact ⟨rfl, ⟨fun _ => hreclaims, fun _ => ⟨_, rfl, rfl⟩⟩, fun hnot => absurd hreclaims hnot⟩
  · have hrun : outcome = (.borrowed loan.occupant.object (runAll inside moment).1
        (runAll inside moment).2.arena.live, (runAll inside moment).2) := by
      simp only [outcome, Step.run, hresolve, howns.endLoan]
    rw [hrun]
    refine ⟨rfl, ⟨fun ⟨e, hfailed, _⟩ => (nomatch hfailed), fun hdid => absurd hdid hreclaims⟩,
      fun _ => ⟨rfl, resolve_ok_iff.2 ⟨howns.place, howns.slot, hkind⟩⟩⟩

/-- The object is taken out and its slot is filled again: the loan ends with the error. When only the
object beside it is taken out, the loan ends well. -/
theorem borrow_ends_refilled :
    let steps : List Step := [.insert "a" anything, .insert "b" anything]
    let moment : Desk := (runAll steps { arena := { base := anything } }).2
    let refilled : Step := .borrow (.handle 1) none [.reclaim (.handle 1) none, .insert "c" anything]
    let beside : Step := .borrow (.handle 1) none [.reclaim (.handle 2) none, .insert "c" anything]
    let loan : Loan String := { index := 0, occupant := { object := "a", kind := anything, serial := 0 } }
    Passes steps { arena := { base := anything } } moment ∧
      moment.arena.resolve 1 anything = .ok loan ∧
      (∃ e, (refilled.run moment).1 = .failed e (refilled.run moment).2.arena.live ∧
        e.message = "Host context was reclaimed while borrowed") ∧
      (beside.run moment).2.arena.resolve 1 anything = .ok loan := by
  intro steps moment refilled beside loan
  have h : Passes steps { arena := { base := anything } } moment := .end_of_run steps _
  have hresolve : moment.arena.resolve 1 anything = .ok loan := rfl
  obtain ⟨-, hfails, -⟩ := @borrow_ends _ _ _ [.reclaim (.handle 1) none, .insert "c" anything] _
    (.handle 1) none h hresolve
  obtain ⟨-, -, hends⟩ := @borrow_ends _ _ _ [.reclaim (.handle 2) none, .insert "c" anything] _
    (.handle 1) none h hresolve
  refine ⟨h, hresolve, hfails.2 (.inl ⟨rfl, exists_reclaim hresolve⟩), (hends ?_).2⟩
  rintro (⟨hhandle, -⟩ | hinsert | hnone)
  · exact absurd hhandle (by decide)
  · exact hinsert
  · exact hnone

end

end Arena

end ContractHost
