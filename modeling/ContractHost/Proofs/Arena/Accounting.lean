import ContractHost.Arena.Steps
import ContractHost.Proofs.Arena.Book

/-!
# The accounts of a run

A run of arena operations passes through the arenas between its steps, also those inside a loan. Each of
them has evolved from the first one by the steps that succeeded; so the count, the free list and the
slots of an arena that began empty agree with its book at every moment, and a step that fails before it
begins changes nothing.

* `Passes`: the moments of a run.
* `passes_accounts`: the accounts of an arena at every moment.
-/

namespace ContractHost.Arena

/-- A run of steps passes through a moment: it is there before a step, inside a loan, or at its end. -/
inductive Passes : List Step → Desk → Desk → Prop
  | here {steps : List Step} {desk : Desk} : Passes steps desk desk
  | inside {target : Target} {kind : Option Kind} {inside rest : List Step} {desk moment : Desk}
      {loan : Loan String} :
      desk.arena.resolve (desk.handle target) (kind.getD desk.arena.base) = .ok loan →
      Passes inside desk moment → Passes (.borrow target kind inside :: rest) desk moment
  | later {step : Step} {rest : List Step} {desk moment : Desk} :
      Passes rest (step.run desk).2 moment → Passes (step :: rest) desk moment

/-- Whether a step can begin. -/
def Step.entry : Step → Desk → Except ArenaError Unit
  | .insert label kind, desk => (desk.arena.insert kind label).map fun _ => ()
  | .borrow target kind _, desk =>
    (desk.arena.resolve (desk.handle target) (kind.getD desk.arena.base)).map fun _ => ()
  | .reclaim target kind, desk =>
    (desk.arena.reclaim (desk.handle target) (kind.getD desk.arena.base)).map fun _ => ()

theorem Step.run_of_entry_error {step : Step} {desk : Desk} {e : ArenaError}
    (h : step.entry desk = .error e) : step.run desk = (.failed e desk.arena.live, desk) := by
  cases step with
  | insert label kind =>
    cases hinsert : desk.arena.insert kind label with
    | error e' =>
      simp only [Step.entry, hinsert, Except.map] at h
      cases h
      simp only [Step.run, hinsert]
    | ok taken => simp [Step.entry, hinsert, Except.map] at h
  | borrow target kind inside =>
    cases hresolve : desk.arena.resolve (desk.handle target) (kind.getD desk.arena.base) with
    | error e' =>
      simp only [Step.entry, hresolve, Except.map] at h
      cases h
      simp only [Step.run, hresolve]
    | ok loan => simp [Step.entry, hresolve, Except.map] at h
  | reclaim target kind =>
    cases hreclaim : desk.arena.reclaim (desk.handle target) (kind.getD desk.arena.base) with
    | error e' =>
      simp only [Step.entry, hreclaim, Except.map] at h
      cases h
      simp only [Step.run, hreclaim]
    | ok given => simp [Step.entry, hreclaim, Except.map] at h

mutual

theorem Step.run_evolves (step : Step) (desk : Desk) :
    Evolves desk.arena (step.run desk).2.arena := by
  cases step with
  | insert label kind =>
    simp only [Step.run]
    cases h : desk.arena.insert kind label with
    | error e => exact .refl
    | ok taken => exact Evolves.refl.insert h
  | borrow target kind inside =>
    simp only [Step.run]
    cases desk.arena.resolve (desk.handle target) (kind.getD desk.arena.base) with
    | error e => exact .refl
    | ok loan =>
      have h := runAll_evolves inside desk
      simp only
      cases (runAll inside desk).2.arena.endLoan loan <;> exact h
  | reclaim target kind =>
    simp only [Step.run]
    cases h : desk.arena.reclaim (desk.handle target) (kind.getD desk.arena.base) with
    | error e => exact .refl
    | ok given => exact Evolves.refl.reclaim h

theorem runAll_evolves (steps : List Step) (desk : Desk) :
    Evolves desk.arena (runAll steps desk).2.arena := by
  cases steps with
  | nil => exact .refl
  | cons step rest =>
    simp only [runAll]
    exact (step.run_evolves desk).trans (runAll_evolves rest (step.run desk).2)

end

theorem Passes.evolves {steps : List Step} {desk moment : Desk} (h : Passes steps desk moment) :
    Evolves desk.arena moment.arena := by
  induction h with
  | here => exact .refl
  | inside _ _ ih => exact ih
  | later _ ih => exact (Step.run_evolves _ _).trans ih

/-- The end of a run is one of its moments. -/
theorem Passes.end_of_run (steps : List Step) (desk : Desk) :
    Passes steps desk (runAll steps desk).2 := by
  induction steps generalizing desk with
  | nil => exact .here
  | cons step rest ih =>
    simp only [runAll]
    exact .later (ih _)

/-- At every moment the count of an arena that began empty is the number of objects taken in and not
given back, and the number of slots with an object; the free list names each slot without an object
once; and there are as many slots as there were ever objects inside at a time. A step that fails before
it begins leaves everything as it was. -/
theorem passes_accounts {base : Kind} {steps : List Step} {moment : Desk}
    (h : Passes steps { arena := { base } } moment) :
    let arena := moment.arena
    (arena.live : Int) = Book.takes arena.book - Book.gives arena.book ∧
      arena.live = arena.slots.countP (·.occupant.isSome) ∧
      arena.free.Nodup ∧
      (∀ i, i ∈ arena.free ↔ ∃ slot, arena.slots[i]? = some slot ∧ slot.occupant = none) ∧
      ((∀ early, early <:+ arena.book →
          (Book.takes early : Int) - Book.gives early ≤ arena.slots.length) ∧
        ∃ early, early <:+ arena.book ∧
          (Book.takes early : Int) - Book.gives early = arena.slots.length) ∧
      ∀ step e, Step.entry step moment = .error e →
        step.run moment = (.failed e arena.live, moment) := by
  intro arena
  have accounted : arena.Accounted := .of_evolves h.evolves
  have hfree : ∀ i, i ∈ arena.free ↔
      ∃ slot, arena.slots[i]? = some slot ∧ slot.occupant = none := by
    intro i
    rw [accounted.mem_free]
    constructor
    · rintro ⟨hlt, hempty⟩
      exact ⟨_, slot_of_lt hlt, hempty⟩
    · rintro ⟨slot, hslot, hempty⟩
      rw [slot_of_getElem? hslot]
      exact ⟨(List.getElem?_eq_some_iff.1 hslot).1, hempty⟩
  exact ⟨accounted.live_eq_balance, accounted.live_eq_occupied, accounted.nodup_free, hfree,
    ⟨accounted.bounded, accounted.reached⟩, fun _ _ => Step.run_of_entry_error⟩

/-- The class of everything. -/
def anything : Kind := ⟨"object", []⟩

/-- Inside a loan whose object was taken out, its slot is the free one. -/
theorem passes_accounts_lending :
    let inside : List Step := [.insert "b" anything, .reclaim (.label "a") none]
    let moment : Desk := (runAll (.insert "a" anything :: inside) { arena := { base := anything } }).2
    Passes [.insert "a" anything, .borrow (.label "a") none inside]
        { arena := { base := anything } } moment ∧
      moment.arena.live = 1 ∧ moment.arena.slots.length = 2 ∧
      (0 ∈ moment.arena.free ↔ ∃ slot, moment.arena.slots[0]? = some slot ∧ slot.occupant = none) := by
  intro inside moment
  have h : Passes [.insert "a" anything, .borrow (.label "a") none inside]
      { arena := { base := anything } } moment := .later (.inside rfl (.end_of_run inside _))
  exact ⟨h, rfl, rfl, (passes_accounts h).2.2.2.1 0⟩

end ContractHost.Arena
