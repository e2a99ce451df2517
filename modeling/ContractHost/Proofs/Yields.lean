import Mathlib.Data.List.Forall2

/-!
# What a step yields

A step that may fail yields values with a property if whatever it gives has it. Steps one after the
other yield what the last one does. Where the error counts as well, a step ends with a value of one
property or with an error of another.

* `Yields`: what a step gives.
* `Ends`: how a step ends.
-/

namespace ContractHost

/-- Every value that a step gives has a property. -/
def Yields {ε α : Type} (step : Except ε α) (P : α → Prop) : Prop := ∀ a, step = .ok a → P a

variable {ε α β : Type} {P : α → Prop} {Q : β → Prop}

theorem yields_error (e : ε) : Yields (.error e) P := by
  intro a h
  cases h

theorem yields_ok {a : α} (h : P a) : Yields (.ok a : Except ε α) P := by
  intro b hb
  cases hb
  exact h

theorem yields_bind {step : Except ε α} {next : α → Except ε β} (h : Yields step P)
    (hnext : ∀ a, P a → Yields (next a) Q) : Yields (step >>= next) Q := by
  intro b hb
  cases hs : step with
  | error e =>
    rw [hs] at hb
    cases hb
  | ok a =>
    rw [hs] at hb
    exact hnext a (h a hs) b hb

theorem yields_then {step : Except ε α} {next : α → Except ε β} (hnext : ∀ a, Yields (next a) Q) :
    Yields (step >>= next) Q :=
  yields_bind (P := fun _ => True) (fun _ _ => trivial) fun a _ => hnext a

theorem Yields.mapError {step : Except ε α} {ε' : Type} {f : ε → ε'} (h : Yields step P) :
    Yields (step.mapError f) P := by
  intro a ha
  cases step with
  | error e => cases ha
  | ok b =>
    cases ha
    exact h _ rfl

/-! ## How steps end -/

section Steps

variable {ε' : Type} {P' : α → Prop} {E E' : ε → Prop} {step : Except ε α} {next : α → Except ε β}

/-- What a step gives has one property, and the error with which it fails has another. -/
structure Ends (step : Except ε α) (P : α → Prop) (E : ε → Prop) : Prop where
  gives : ∀ a, step = .ok a → P a
  fails : ∀ e, step = .error e → E e

namespace Ends

theorem ok {a : α} (h : P a) : Ends (.ok a : Except ε α) P E := by
  refine ⟨?_, nofun⟩
  rintro _ ⟨rfl⟩
  exact h

theorem error {e : ε} (h : E e) : Ends (.error e : Except ε α) P E := by
  refine ⟨nofun, ?_⟩
  rintro _ ⟨rfl⟩
  exact h

theorem bind (h : Ends step P E) (hnext : ∀ a, P a → Ends (next a) Q E) :
    Ends (step >>= next) Q E := by
  cases step with
  | ok a => exact hnext a (h.gives a rfl)
  | error e => exact error (h.fails e rfl)

theorem imp (h : Ends step P E) (hok : ∀ a, P a → P' a) (herror : ∀ e, E e → E' e) :
    Ends step P' E' :=
  ⟨fun a ha => hok a (h.gives a ha), fun e he => herror e (h.fails e he)⟩

/-- What is known of both ends is known of the step. -/
theorem result {Q : Except ε α → Prop} (h : Ends step (fun a => Q (.ok a)) fun e => Q (.error e)) :
    Q step := by
  cases step with
  | ok a => exact h.gives a rfl
  | error e => exact h.fails e rfl

theorem mapError {f : ε → ε'} {E : ε' → Prop} (h : Ends step P fun e => E (f e)) :
    Ends (step.mapError f) P E := by
  cases step with
  | ok a => exact ok (h.gives a rfl)
  | error e => exact error (h.fails e rfl)

end Ends

end Steps

/-! ## Steps that give something -/

theorem bind_eq_ok_iff {step : Except ε α} {next : α → Except ε β} {b : β} :
    step >>= next = .ok b ↔ ∃ a, step = .ok a ∧ next a = .ok b := by
  cases step with
  | error e => exact ⟨nofun, fun ⟨_, h, _⟩ => nomatch h⟩
  | ok a => exact ⟨fun h => ⟨a, rfl, h⟩, fun ⟨_, h, h'⟩ => by cases h; exact h'⟩

theorem mapError_eq_ok_iff {step : Except ε α} {ε' : Type} {f : ε → ε'} {a : α} :
    step.mapError f = .ok a ↔ step = .ok a := by
  cases step with
  | error e => exact ⟨nofun, nofun⟩
  | ok b => exact ⟨fun h => by cases h; rfl, fun h => by cases h; rfl⟩

theorem mapM_eq_ok_iff {f : α → Except ε β} {items : List α} {results : List β} :
    items.mapM f = .ok results ↔ List.Forall₂ (fun a b => f a = .ok b) items results := by
  induction items generalizing results with
  | nil =>
    rw [List.mapM_nil, List.forall₂_nil_left_iff]
    exact ⟨fun h => by cases h; rfl, fun h => by rw [h]; rfl⟩
  | cons a rest ih =>
    rw [List.mapM_cons, List.forall₂_cons_left_iff, bind_eq_ok_iff]
    constructor
    · rintro ⟨b, hb, hrest⟩
      obtain ⟨more, hmore, hresults⟩ := bind_eq_ok_iff.1 hrest
      cases hresults
      exact ⟨b, more, hb, ih.1 hmore, rfl⟩
    · rintro ⟨b, more, hb, hmore, rfl⟩
      exact ⟨b, hb, bind_eq_ok_iff.2 ⟨more, ih.2 hmore, rfl⟩⟩

end ContractHost
