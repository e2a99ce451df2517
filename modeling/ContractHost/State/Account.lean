import ContractHost.Bytes.Fixed
import ContractHost.OrderedMap

/-!
# Accounts

An account has a count of the contracts it created, perhaps code, storage slots with a count of their
changes, and the logs it emitted. Slots and logs keep their order.
-/

namespace ContractHost

/-- A storage slot. -/
structure StorageValue where
  /-- The word in the slot. -/
  data : Bytes32 := .zero
  /-- How many writes changed the word since the slot came into being. -/
  modifyTime : Int := 0
  deriving DecidableEq

/-- An emitted log. -/
structure LogEntry where
  data : Bytes := []
  topics : List Bytes32 := []
  deriving DecidableEq

/-- An account as the host sees it. -/
structure Account where
  address : Address
  /-- The number of contracts that the account created. -/
  nonce : Int := 0
  /-- The deployed code, if there is any. -/
  code : Option Bytes := none
  storage : OrderedMap Bytes32 StorageValue := ∅
  /-- The emitted logs, first one first. -/
  logs : List LogEntry := []
  deriving DecidableEq

namespace Account

/-- Whether two accounts hold the same, whatever the order of their slots. -/
def same (a b : Account) : Bool :=
  a.address = b.address && a.nonce = b.nonce && a.code = b.code &&
    a.storage.equal (fun v w => decide (v = w)) b.storage && a.logs = b.logs

/-- The number of bytes of the code. -/
def codeSize (account : Account) : Nat := (account.code.getD []).length

end Account

end ContractHost
