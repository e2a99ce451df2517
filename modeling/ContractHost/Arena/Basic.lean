import ContractHost.Text.Hex

/-!
# The arena of hosts

Objects are kept in numbered slots and are named, outside, by handles. A handle holds the number of a
slot and the slot's generation, which advances each time the slot is emptied; so a handle that
outlives its object is recognised. Exactly one side holds an object at any time: the arena from
`insert` to `reclaim`, the caller otherwise. A loan lets the caller use an object that stays in the
arena, and its end checks that the same object is still there. The arena keeps a book of what came in
and what was given back, from which its slots can be told.

* `insert`, `resolve`, `reclaim`: the operations.
* `Loan`: an object in use, told apart from later ones in its slot by a serial number.
-/

namespace ContractHost

/-- A class of objects: its name, and the names of the classes it extends. -/
structure Kind where
  name : String
  bases : List String
  deriving DecidableEq, Repr

/-- Whether every object of a class is one of another. -/
def Kind.isA (kind base : Kind) : Bool :=
  kind.name = base.name || kind.bases.contains base.name

/-- A handle: the generation of a slot times `2 ^ 32`, plus the slot's number counted from one. -/
abbrev Handle := Nat

/-- Why the arena refuses an operation. -/
inductive ArenaError
  /-- An object of a class that the arena does not take. -/
  | unregistrable (kind base : String)
  /-- A handle without a slot. -/
  | unknown (handle : Handle)
  /-- A handle whose object is gone. -/
  | stale (handle : Handle)
  /-- A handle to an object of another class. -/
  | mistyped (handle : Handle) (held asked : String)
  /-- An object that was taken away during its loan. -/
  | reclaimedWhileBorrowed
  deriving DecidableEq, Repr

/-- The text of an arena error. -/
def ArenaError.message : ArenaError → String
  | .unregistrable kind base => s!"Cannot register {kind}: not a {base}"
  | .unknown handle => s!"Unknown host context handle {Hex.ofNat handle}"
  | .stale handle => s!"Stale host context handle {Hex.ofNat handle}"
  | .mistyped handle held asked =>
    s!"Host context {Hex.ofNat handle} holds {held}, borrowed as {asked}"
  | .reclaimedWhileBorrowed => "Host context was reclaimed while borrowed"

/-- An object in a slot. -/
structure Occupant (α : Type) where
  /-- The object. -/
  object : α
  /-- Its class. -/
  kind : Kind
  /-- How many objects came into the arena before it. -/
  serial : Nat

/-- A slot of the arena. -/
structure Slot (α : Type) where
  /-- How often the slot was emptied, counted round. -/
  generation : Nat := 0
  /-- The object in it, if there is one. -/
  occupant : Option (Occupant α) := none

/-- A line in the book of an arena. -/
inductive Deed (α : Type)
  /-- An object came into a slot and got a handle. -/
  | taken (index : Nat) (handle : Handle) (occupant : Occupant α)
  /-- The object in a slot was given back for its handle. -/
  | given (index : Nat) (handle : Handle)

/-- The arena. -/
structure Arena (α : Type) where
  /-- The class that every object must be of. -/
  base : Kind
  /-- The slots made so far. -/
  slots : List (Slot α) := []
  /-- The empty slots, the one emptied last in front. -/
  free : List Nat := []
  /-- The number of objects inside. -/
  live : Nat := 0
  /-- The number of objects ever taken in. -/
  serial : Nat := 0
  /-- What was taken in and given back, newest first. -/
  book : List (Deed α) := []

/-- An object in use while it stays in the arena. -/
structure Loan (α : Type) where
  /-- The number of its slot. -/
  index : Nat
  /-- The slot's occupant when the loan began. -/
  occupant : Occupant α

namespace Handle

/-- The number of slots that a handle can tell apart, and one more. -/
def places : Nat := twoTo 32

/-- The number of generations that a handle can tell apart. -/
def generations : Nat := twoTo 31

/-- The handle of a slot in a generation. -/
def make (generation index : Nat) : Handle := generation * places + (index + 1)

/-- The handle in the lowest 64 bits of a number. -/
def ofInt (n : Int) : Handle := (n % twoTo 64).toNat

/-- The slot's number counted from one. -/
def place (handle : Handle) : Nat := handle % places

/-- The generation. -/
def generation (handle : Handle) : Nat := handle / places

end Handle

namespace Arena

variable {α : Type}

/-- Takes an object in and gives its handle. -/
def insert (arena : Arena α) (kind : Kind) (object : α) :
    Except ArenaError (Handle × Arena α) :=
  if kind.isA arena.base then
    let occupant : Occupant α := { object, kind, serial := arena.serial }
    match arena.free with
    | index :: free =>
      let generation := (arena.slots[index]?.map (·.generation)).getD 0
      let handle := Handle.make generation index
      .ok (handle,
        { arena with
          slots := arena.slots.set index { generation, occupant := some occupant }
          free, live := arena.live + 1, serial := arena.serial + 1
          book := .taken index handle occupant :: arena.book })
    | [] =>
      let index := arena.slots.length
      let handle := Handle.make 0 index
      .ok (handle,
        { arena with
          slots := arena.slots ++ [{ generation := 0, occupant := some occupant }]
          live := arena.live + 1, serial := arena.serial + 1
          book := .taken index handle occupant :: arena.book })
  else .error (.unregistrable kind.name arena.base.name)

/-- The slot that a handle names and its occupant, which must be of a class. -/
def resolve (arena : Arena α) (handle : Handle) (kind : Kind) : Except ArenaError (Loan α) :=
  match handle.place with
  | 0 => .error (.unknown handle)
  | index + 1 =>
    match arena.slots[index]? with
    | none => .error (.unknown handle)
    | some slot =>
      match slot.occupant with
      | none => .error (.stale handle)
      | some occupant =>
        if slot.generation ≠ handle.generation then .error (.stale handle)
        else if occupant.kind.isA kind then .ok { index, occupant }
        else .error (.mistyped handle occupant.kind.name kind.name)

/-- Gives an object back to the caller and empties its slot. -/
def reclaim (arena : Arena α) (handle : Handle) (kind : Kind) :
    Except ArenaError (α × Arena α) := do
  let loan ← arena.resolve handle kind
  return (loan.occupant.object,
    { arena with
      slots := arena.slots.set loan.index
        { generation := (handle.generation + 1) % Handle.generations, occupant := none }
      free := loan.index :: arena.free
      live := arena.live - 1
      book := .given loan.index handle :: arena.book })

/-- The occupant of a slot. -/
def occupant? (arena : Arena α) (index : Nat) : Option (Occupant α) :=
  arena.slots[index]?.bind (·.occupant)

/-- Whether the object of a loan is still in its slot. -/
def holds (arena : Arena α) (loan : Loan α) : Bool :=
  match arena.occupant? loan.index with
  | some occupant => occupant.serial = loan.occupant.serial
  | none => false

/-- Ends a loan. -/
def endLoan (arena : Arena α) (loan : Loan α) : Except ArenaError Unit :=
  if arena.holds loan then .ok () else .error .reclaimedWhileBorrowed

/-- The object of a loan in its present form. The arena stays as it is if the object has left. -/
def update (arena : Arena α) (loan : Loan α) (object : α) : Arena α :=
  if arena.holds loan then
    { arena with
      slots := arena.slots.modify loan.index fun slot =>
        { slot with occupant := slot.occupant.map fun occupant => { occupant with object } } }
  else arena

end Arena

end ContractHost
