/-!
# Slices at signed positions

Positions in a list are integers. A negative position counts from the end, and every position is
moved into the list: below the start it means the start, past the end the end.

* `slice_natCast`: with natural positions a slice is a `drop` of a `take`.
-/

namespace ContractHost

variable {α : Type}

/-- The place in a list of `length` items that a signed position names. -/
def signedPosition (length : Nat) (position : Int) : Nat :=
  if position < 0 then (length + position).toNat else min position.toNat length

/-- The items from a signed position up to, and without, another. -/
def slice (items : List α) (start stop : Int) : List α :=
  (items.take (signedPosition items.length stop)).drop (signedPosition items.length start)

/-- The list with the items between two signed positions replaced; if the second lies before the
first, the new items are put in at the first. -/
def splice (items : List α) (start stop : Int) (new : List α) : List α :=
  let first := signedPosition items.length start
  let last := max first (signedPosition items.length stop)
  items.take first ++ new ++ items.drop last

theorem signedPosition_natCast (length n : Nat) : signedPosition length n = min n length := by
  simp only [signedPosition]
  split
  · omega
  · simp

theorem slice_natCast (items : List α) (start stop : Nat) :
    slice items start stop = (items.take stop).drop start := by
  simp only [slice, signedPosition_natCast]
  rcases Nat.le_total start items.length with h | h
  · rw [Nat.min_eq_left h]
    rcases Nat.le_total stop items.length with h' | h'
    · rw [Nat.min_eq_left h']
    · rw [Nat.min_eq_right h', List.take_of_length_le h', List.take_of_length_le (Nat.le_refl _)]
  · rw [Nat.min_eq_right h, List.drop_eq_nil_of_le, List.drop_eq_nil_of_le]
    · exact Nat.le_trans (List.length_take_le' ..) h
    · exact List.length_take_le' ..

end ContractHost
