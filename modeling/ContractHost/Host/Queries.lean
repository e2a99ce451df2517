import ContractHost.Bytes.Slice
import ContractHost.Derivation
import ContractHost.Host.Failure

/-!
# What a state answers

The questions that need no nested execution are answered by the state alone. Reading never creates an
account. Writing a slot or a log creates the account first, and so does being the sender of a message.

* `HostState.setStorage`: a write and its status.
* `HostState.resolveCallee`: where a message is executed, and the creator's count moved on.
-/

namespace ContractHost

/-- The status of a write that leaves a slot with a count of changes. -/
def storageStatus (modifyTime : Int) (changed : Bool) : Except FatalError StorageStatus :=
  if modifyTime = 0 then
    if changed then .error .unadvanced else .ok .added
  else if !changed then .ok .unchanged
  else if modifyTime = 1 then .ok .modified
  else .ok .modifiedAgain

namespace HostState

/-! ## Reading -/

/-- Whether an account is there. -/
def accountExists (s : HostState) (address : Address) : Bool := s.accounts.contains address

/-- The word in a slot, zero if there is none. -/
def getStorage (s : HostState) (address : Address) (key : Bytes32) : Bytes32 :=
  match (s.find? address).bind (·.storage.get? key) with
  | some slot => slot.data
  | none => .zero

/-- The balance of an account. Balances are not kept. -/
def getBalance (_ : HostState) (_ : Address) : Uint256 := .zero

/-- The code at an address, empty if there is none. -/
def code (s : HostState) (address : Address) : Bytes :=
  ((s.find? address).bind (·.code)).getD []

/-- The number of bytes of the code at an address. -/
def getCodeSize (s : HostState) (address : Address) : Nat := (s.code address).length

/-- The hash of the code at an address, zero if there is none. -/
def getCodeHash (s : HostState) (address : Address) : Bytes32 :=
  let code := s.code address
  if code.isEmpty then .zero else Keccak.hash code

/-- The code at an address from an offset on, `size` bytes at most. -/
def copyCode (s : HostState) (address : Address) (offset size : Int) : Bytes :=
  slice (s.code address) offset (offset + size)

/-- The hash of a block. Blocks are not kept. -/
def getBlockHash (_ : HostState) (_ : Int) : Bytes32 := .zero

/-! ## Writing -/

/-- An account with a word written to a slot, and the status of the write. -/
def writeSlot (account : Account) (key value : Bytes32) :
    Except FatalError StorageStatus × Account :=
  match account.storage.get? key with
  | none =>
    (storageStatus 0 false, { account with storage := account.storage.insert key { data := value } })
  | some slot =>
    if slot.data = value then (.ok .unchanged, account)
    else
      let slot : StorageValue := { data := value, modifyTime := slot.modifyTime + 1 }
      (storageStatus slot.modifyTime true,
        { account with storage := account.storage.insert key slot })

/-- Writes a word to a slot. A new slot counts no change, and a write of the same word none either. -/
def setStorage (s : HostState) (address : Address) (key value : Bytes32) :
    Except FatalError StorageStatus × HostState :=
  let (status, account) := writeSlot (s.account address) key value
  (status, { s with accounts := s.accounts.insert address account })

/-- Appends a log. -/
def emitLog (s : HostState) (address : Address) (data : Bytes) (topics : List Bytes32) :
    HostState :=
  s.modify address fun account => { account with logs := account.logs ++ [{ data, topics }] }

/-- Removes an account for good. What it holds goes nowhere, since balances are not kept. -/
def selfdestruct (s : HostState) (address _beneficiary : Address) : HostState :=
  s.destruct address

/-- Puts code at an address. -/
def deploy (s : HostState) (address : Address) (code : Bytes) : HostState :=
  s.modify address fun account => { account with code := some code }

/-- Moves the count of an account's creations on. -/
def advanceNonce (s : HostState) (address : Address) : HostState :=
  s.modify address fun account => { account with nonce := account.nonce + 1 }

/-- The address that a message is executed at, and the state with the sender's account and, for a
creation, its count moved on. -/
def resolveCallee (s : HostState) (message : Message) : Except Fault Address × HostState :=
  let s := s.touch message.sender
  match message.kind with
  | .create =>
    match Derivation.create message.sender (s.account message.sender).nonce with
    | .ok callee => (.ok callee, s.advanceNonce message.sender)
    | .error fault => (.error fault, s)
  | .create2 =>
    (.ok (Derivation.createSalted message.sender message.salt message.input),
      s.advanceNonce message.sender)
  | _ => (.ok message.destination, s)

end HostState

end ContractHost
