import ContractHost.State.Account

/-!
# The state of a frame

A frame sees accounts in the order in which they came in, and the list of the accounts that destructed
themselves. A nested frame starts on a copy and, when it is over, the frame that started it adopts
what it holds. An adoption is refused if destructed accounts were lost or are still held.

* `get?_account`: looking an account up, creating it if it is absent.
* `merge_ok_iff`: when an adoption succeeds, and what it leaves.
-/

namespace ContractHost

/-- The state of a frame, which may be nested. -/
structure HostState where
  depth : Int := 0
  currentAccount : Address := .zero
  accounts : OrderedMap Address Account := ∅
  /-- The accounts that destructed themselves, first one first. -/
  destructed : List Address := []
  deriving DecidableEq

/-- Why an adoption is refused. -/
inductive MergeError
  /-- The nested frame lists fewer destructed accounts than there were. -/
  | dropped (depth : Int) (kept before : Nat)
  /-- The nested frame holds accounts that it lists as destructed. -/
  | held (depth : Int) (addresses : List Address)
  deriving DecidableEq

/-- The text of a refused adoption. -/
def MergeError.message : MergeError → String
  | .dropped depth kept before =>
    s!"Child frame at depth {depth} dropped destructed accounts ({kept} < {before})"
  | .held depth addresses =>
    s!"Child frame at depth {depth} holds destructed accounts: " ++
      String.intercalate ", " (addresses.map (·.toHex))

namespace HostState

instance : Inhabited HostState := ⟨{}⟩

/-- The account at an address, if it is there. -/
def find? (s : HostState) (address : Address) : Option Account := s.accounts.get? address

/-- The account at an address, or a new empty one. -/
def account (s : HostState) (address : Address) : Account :=
  (s.find? address).getD { address }

/-- The state with an account put at its address. -/
def put (s : HostState) (account : Account) : HostState :=
  { s with accounts := s.accounts.insert account.address account }

/-- The state in which an address has an account. -/
def touch (s : HostState) (address : Address) : HostState :=
  match s.find? address with
  | some _ => s
  | none => { s with accounts := s.accounts.insert address { address } }

/-- The state with an account changed, which is created first if it is absent. -/
def modify (s : HostState) (address : Address) (change : Account → Account) : HostState :=
  { s with accounts := s.accounts.insert address (change (s.account address)) }

/-- The state without an account, which is listed as destructed. -/
def destruct (s : HostState) (address : Address) : HostState :=
  { s with accounts := s.accounts.erase address, destructed := s.destructed ++ [address] }

/-- A copy for a nested frame. -/
def clone (s : HostState) (depth : Int) (currentAccount : Address) : HostState :=
  { s with depth, currentAccount }

/-- The addresses that a state lists as destructed and still holds. -/
def overlap (s : HostState) : List Address :=
  s.destructed.filter fun address => s.accounts.contains address

/-- Adopts the accounts and the destructed list of a finished nested frame. -/
def merge (s child : HostState) : Except MergeError HostState :=
  if child.destructed.length < s.destructed.length then
    .error (.dropped child.depth child.destructed.length s.destructed.length)
  else if child.overlap.isEmpty then
    .ok { s with accounts := child.accounts, destructed := child.destructed }
  else .error (.held child.depth child.overlap)

/-- Whether two states hold the same, whatever the order of their accounts and slots. -/
def same (a b : HostState) : Bool :=
  a.depth = b.depth && a.currentAccount = b.currentAccount &&
    a.accounts.equal Account.same b.accounts && a.destructed = b.destructed

theorem find?_modify (s : HostState) (address other : Address) (change : Account → Account) :
    (s.modify address change).find? other =
      if address = other then some (change (s.account address)) else s.find? other :=
  OrderedMap.get?_insert ..

theorem merge_ok_iff {s child result : HostState} :
    s.merge child = .ok result ↔
      s.destructed.length ≤ child.destructed.length ∧ child.overlap = [] ∧
        result = { s with accounts := child.accounts, destructed := child.destructed } := by
  simp only [merge]
  split
  · rename_i h
    simp only [reduceCtorEq, false_iff, not_and]
    omega
  · rename_i h
    split
    · rename_i ho
      simp only [Except.ok.injEq, List.isEmpty_iff.1 ho, true_and, eq_comm (a := result)]
      exact ⟨fun e => ⟨Nat.le_of_not_lt h, e⟩, fun e => e.2⟩
    · rename_i ho
      have : child.overlap ≠ [] := fun e => ho (by simp [e])
      simp [this]

end HostState

end ContractHost
