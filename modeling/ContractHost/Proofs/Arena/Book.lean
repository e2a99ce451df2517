import ContractHost.Proofs.Arena.Operations

/-!
# The book of an arena

The book of an arena says what is in each slot, how often a slot was emptied, and how many objects are
inside. The arena keeps its slots, its free list and its count apart from one another; all three agree
with the book, whatever is taken in and given back.

* `Book`: what a list of deeds says.
* `Written`, `Counted`: the slots, and the free list and the count, agree with the book.
* `Accounted.of_evolves`: so they do in every arena that began empty.
-/

namespace ContractHost

variable {α : Type}

/-! ## What a book says -/

namespace Deed

/-- Whether an object came in. -/
def isTaken : Deed α → Bool
  | .taken .. => true
  | .given .. => false

/-- Whether a slot was emptied. -/
def empties (i : Nat) : Deed α → Bool
  | .taken .. => false
  | .given index _ => index = i

end Deed

namespace Book

/-- How many objects came in. -/
def takes (book : List (Deed α)) : Nat := book.countP (·.isTaken)

/-- How many objects were given back. -/
def gives (book : List (Deed α)) : Nat := book.countP (!·.isTaken)

/-- How many objects are inside. -/
def balance (book : List (Deed α)) : Int := takes book - gives book

/-- How often a slot was emptied. -/
def returns (book : List (Deed α)) (i : Nat) : Nat := book.countP (·.empties i)

/-- The object that is in a slot. -/
def contents : List (Deed α) → Nat → Option (Occupant α)
  | [], _ => none
  | .taken index _ occupant :: earlier, i => if index = i then some occupant else contents earlier i
  | .given index _ :: earlier, i => if index = i then none else contents earlier i

/-- A slot. -/
def slot (book : List (Deed α)) (i : Nat) : Slot α where
  generation := returns book i % Handle.generations
  occupant := contents book i

/-- Objects came only into empty slots, and their handles tell how often the slot had been emptied. -/
inductive Sound : List (Deed α) → Prop
  | nil : Sound []
  | taken {book : List (Deed α)} {index : Nat} (occupant : Occupant α) :
      Sound book → contents book index = none →
      Sound (.taken index (Handle.make (returns book index % Handle.generations) index) occupant ::
        book)
  | given {book : List (Deed α)} (index : Nat) (handle : Handle) :
      Sound book → Sound (.given index handle :: book)

variable (book : List (Deed α)) (index i : Nat) (handle : Handle) (occupant : Occupant α)

@[simp] theorem balance_taken :
    balance (.taken index handle occupant :: book) = balance book + 1 := by
  simp [balance, takes, gives, Deed.isTaken]
  omega

@[simp] theorem balance_given : balance (.given index handle :: book) = balance book - 1 := by
  simp [balance, takes, gives, Deed.isTaken]
  omega

@[simp] theorem returns_taken :
    returns (.taken index handle occupant :: book) i = returns book i := by
  simp [returns, Deed.empties]

@[simp] theorem returns_given :
    returns (.given index handle :: book) i = returns book i + if index = i then 1 else 0 := by
  simp [returns, Deed.empties, List.countP_cons]

theorem returns_append (later earlier : List (Deed α)) :
    returns (later ++ earlier) i = returns later i + returns earlier i :=
  List.countP_append

variable {book index i handle occupant}

theorem Sound.of_append {later earlier : List (Deed α)} (h : Sound (later ++ earlier)) :
    Sound earlier := by
  induction later with
  | nil => exact h
  | cons deed later ih =>
    cases h with
    | taken _ hsound => exact ih hsound
    | given _ _ hsound => exact ih hsound

theorem Sound.handle_eq (h : Sound (.taken index handle occupant :: book)) :
    handle = Handle.make (returns book index % Handle.generations) index := by
  cases h
  rfl

end Book

/-! ## Arenas that agree with their books -/

namespace Arena

/-- The slots of an arena agree with its book. -/
structure Written (arena : Arena α) : Prop where
  slot : ∀ i, arena.slot i = Book.slot arena.book i
  sound : Book.Sound arena.book
  made : ∀ index handle occupant, .taken index handle occupant ∈ arena.book →
    index < arena.slots.length

/-- The free list and the count of an arena agree with its slots and its book. -/
structure Counted (arena : Arena α) : Prop where
  nodup_free : arena.free.Nodup
  mem_free : ∀ i, i ∈ arena.free ↔ i < arena.slots.length ∧ (arena.slot i).occupant = none
  live_add_free : arena.live + arena.free.length = arena.slots.length
  live_eq_occupied : arena.live = arena.occupied
  live_eq_balance : (arena.live : Int) = Book.balance arena.book
  /-- No more objects were ever inside at a time than there are slots, -/
  bounded : ∀ early, early <:+ arena.book → Book.balance early ≤ arena.slots.length
  /-- and as many as that were inside once. -/
  reached : ∃ early, early <:+ arena.book ∧ Book.balance early = arena.slots.length

/-- An arena agrees with its book. -/
structure Accounted (arena : Arena α) : Prop extends arena.Written, arena.Counted

section Step

variable {arena arena' : Arena α} {index : Nat} {handle : Handle} {occupant : Occupant α}
  {loan : Loan α}

theorem Counted.tidy (h : arena.Counted) : arena.Tidy where
  nodup_free := h.nodup_free
  empty_of_mem_free i hi := by
    obtain ⟨hlt, hempty⟩ := (h.mem_free i).1 hi
    exact ⟨_, slot_of_lt hlt, hempty⟩

theorem Written.of_takes (h : arena.Written) (takes : arena.Takes arena' index handle occupant) :
    arena'.Written := by
  refine ⟨fun i => ?_, ?_, fun i handle' occupant' hdeed => ?_⟩
  · rw [takes.book, Book.slot, Book.returns_taken, Book.contents]
    by_cases hi : index = i
    · subst hi
      rw [takes.slot, if_pos rfl, h.slot]
      rfl
    · rw [if_neg hi, takes.others i (Ne.symm hi), h.slot]
      rfl
  · have hempty : Book.contents arena.book index = none := by
      have := takes.vacant
      rwa [h.slot] at this
    rw [takes.book, takes.handle_eq, h.slot]
    exact h.sound.taken _ hempty
  · rw [takes.book, List.mem_cons] at hdeed
    rcases hdeed with hdeed | hdeed
    · cases hdeed
      exact takes.lt
    · exact Nat.lt_of_lt_of_le (h.made _ _ _ hdeed) takes.grows

theorem Written.of_gives (h : arena.Written) (gives : arena.Gives arena' handle loan) :
    arena'.Written := by
  refine ⟨fun i => ?_, ?_, fun i handle' occupant hdeed => ?_⟩
  · rw [gives.book, Book.slot, Book.returns_given, Book.contents]
    by_cases hi : loan.index = i
    · subst hi
      have hgeneration : Book.returns arena.book loan.index % Handle.generations =
          handle.generation := congrArg Slot.generation ((h.slot _).symm.trans gives.held)
      rw [gives.slot, if_pos rfl, if_pos rfl, ← hgeneration, Nat.mod_add_mod]
    · rw [if_neg hi, if_neg hi, gives.others i (Ne.symm hi), h.slot]
      rfl
  · rw [gives.book]
    exact h.sound.given _ _
  · rw [gives.book, List.mem_cons] at hdeed
    rcases hdeed with hdeed | hdeed
    · cases hdeed
    · rw [gives.length]
      exact h.made _ _ _ hdeed

theorem Counted.of_takes (h : arena.Counted) (takes : arena.Takes arena' index handle occupant) :
    arena'.Counted := by
  obtain ⟨hnot, hnodup⟩ := takes.nodup_free h.nodup_free
  have hlength := takes.length_add
  have hold := h.live_add_free
  have hlive := takes.live
  have hbalance : (arena'.live : Int) = Book.balance arena'.book := by
    rw [takes.book, Book.balance_taken, ← h.live_eq_balance, hlive, Int.natCast_succ]
  refine ⟨hnodup, fun i => ?_, by omega, ?_, hbalance, fun early hearly => ?_, ?_⟩
  · by_cases hi : i = index
    · subst hi
      simp [hnot, takes.slot]
    · have hmem := h.mem_free i
      rw [takes.others i hi]
      rcases takes.place with ⟨hfree, -, hlength⟩ | ⟨hfree, hfree', hindex, hlength⟩
      · rwa [hfree, List.mem_cons, or_iff_right hi, ← hlength] at hmem
      · have hlt : i < arena.slots.length + 1 ↔ i < arena.slots.length := by omega
        rwa [hfree, ← hfree', ← hlt, ← hlength] at hmem
  · rw [hlive, takes.occupied, h.live_eq_occupied]
  · rw [takes.book, List.suffix_cons_iff, ← takes.book] at hearly
    rcases hearly with rfl | hearly
    · omega
    · have hbounded := h.bounded early hearly
      have hgrows := takes.grows
      omega
  · rcases takes.place with ⟨-, -, hsame⟩ | ⟨-, hfree, -⟩
    · obtain ⟨early, hearly, hreached⟩ := h.reached
      rw [hsame, takes.book]
      exact ⟨early, hearly.trans (List.suffix_cons _ _), hreached⟩
    · -- no slot is free now, so there were never more objects inside
      rw [hfree, List.length_nil] at hlength
      refine ⟨_, List.suffix_refl _, ?_⟩
      omega

theorem Counted.of_gives (h : arena.Counted) (gives : arena.Gives arena' handle loan) :
    arena'.Counted := by
  have hold := h.live_add_free
  have hlive := gives.live
  have hoccupied := gives.occupied
  have hheld := h.live_eq_occupied
  have hbalance : (arena'.live : Int) = Book.balance arena'.book := by
    rw [gives.book, Book.balance_given, ← h.live_eq_balance]
    omega
  refine ⟨(gives.tidy h.tidy).nodup_free, fun i => ?_, ?_, by omega, hbalance,
    fun early hearly => ?_, ?_⟩
  · rw [gives.free, List.mem_cons, gives.length]
    by_cases hi : i = loan.index
    · subst hi
      simp [gives.slot, gives.lt]
    · rw [or_iff_right hi, gives.others i hi, h.mem_free i]
  · rw [gives.free, List.length_cons, gives.length]
    omega
  · rw [gives.book, List.suffix_cons_iff, ← gives.book] at hearly
    rw [gives.length]
    rcases hearly with rfl | hearly
    · omega
    · exact h.bounded early hearly
  · obtain ⟨early, hearly, hreached⟩ := h.reached
    rw [gives.book, gives.length]
    exact ⟨early, hearly.trans (List.suffix_cons _ _), hreached⟩

end Step

theorem Accounted.empty (base : Kind) : Accounted { base := base : Arena α } where
  slot i := by simp [Arena.slot, Book.slot, Book.returns, Book.contents]
  sound := .nil
  made _ _ _ h := by cases h
  nodup_free := List.nodup_nil
  mem_free i := by simp
  live_add_free := rfl
  live_eq_occupied := rfl
  live_eq_balance := rfl
  bounded early h := by
    rw [List.suffix_nil.1 h]
    exact Int.le_refl _
  reached := ⟨[], List.suffix_refl _, rfl⟩

/-- The arenas that operations lead to. -/
inductive Evolves (a : Arena α) : Arena α → Prop
  | refl : Evolves a a
  | insert {b c : Arena α} {kind : Kind} {object : α} {handle : Handle} :
      Evolves a b → b.insert kind object = .ok (handle, c) → Evolves a c
  | reclaim {b c : Arena α} {kind : Kind} {object : α} {handle : Handle} :
      Evolves a b → b.reclaim handle kind = .ok (object, c) → Evolves a c

theorem Evolves.trans {a b c : Arena α} (hab : Evolves a b) (hbc : Evolves b c) : Evolves a c := by
  induction hbc with
  | refl => exact hab
  | insert _ h ih => exact ih.insert h
  | reclaim _ h ih => exact ih.reclaim h

/-- Every arena that began empty agrees with its book. -/
theorem Accounted.of_evolves {base : Kind} {arena : Arena α} (h : Evolves { base } arena) :
    arena.Accounted := by
  induction h with
  | refl => exact .empty base
  | insert _ hinsert ih =>
    obtain ⟨index, takes⟩ := insert_takes ih.tidy hinsert
    exact ⟨ih.toWritten.of_takes takes, ih.toCounted.of_takes takes⟩
  | reclaim _ hreclaim ih =>
    obtain ⟨loan, -, -, gives⟩ := reclaim_gives hreclaim
    exact ⟨ih.toWritten.of_gives gives, ih.toCounted.of_gives gives⟩

end Arena

end ContractHost
