import ContractHost.Arena.Steps
import ContractHost.Exports
import ContractHost.Files.Table
import ContractHost.Log.Highlight
import ContractHost.Main
import ContractHost.Records
import ContractHost.Proofs.FailedCall
import ContractHost.Proofs.Survivors
import ContractHost.Proofs.Boundary.RawMessage
import ContractHost.Proofs.Interpreter.Questions
import ContractHost.Proofs.Execution.Course
import ContractHost.Proofs.AccountHistory
import ContractHost.Proofs.Creations
import ContractHost.Proofs.Provenance
import ContractHost.Proofs.Footprint
import ContractHost.Proofs.Execution.Regular
import ContractHost.Proofs.GuestFailures
import ContractHost.Proofs.Arena.Accounting
import ContractHost.Proofs.Arena.Handles
import ContractHost.Proofs.Leaks
import ContractHost.Proofs.Boundary.Transparent
import ContractHost.Proofs.SlotHistory
import ContractHost.Proofs.Json.Document
import ContractHost.Proofs.State.Documents
import ContractHost.Proofs.Json.Numbers
import ContractHost.Proofs.State.Numbers
import ContractHost.Proofs.Files.Directory
import ContractHost.Proofs.State.Reachable
import ContractHost.Proofs.State.RoundTrip
import ContractHost.Proofs.CommandLine.Steps
import ContractHost.Proofs.State.Home
import ContractHost.Proofs.CommandLine.Transactions
import ContractHost.Proofs.CommandLine.SetUp
import ContractHost.Proofs.StaticCalls
import ContractHost.Proofs.State.Service
import ContractHost.Proofs.Abi.Logs
import ContractHost.Proofs.CallDepth
import ContractHost.Proofs.Nesting
import ContractHost.Proofs.MoreGas
import ContractHost.Proofs.State.Malformed
import ContractHost.Proofs.Arena.Loans
import ContractHost.Proofs.Preimages
import ContractHost.Proofs.Abi.Renderings
import ContractHost.Proofs.Abi.Integers
import ContractHost.Proofs.Log.Sanitised
import ContractHost.Proofs.CodeCopies
import ContractHost.Proofs.Config.Usable
import ContractHost.Proofs.CommandLine.Decoded
import ContractHost.Proofs.GuestMachine
