import ExecutionTrace.Address.Checksum
import ExecutionTrace.Address.Derived
import ExecutionTrace.Block
import ExecutionTrace.Bytes
import ExecutionTrace.CallTree
import ExecutionTrace.Error
import ExecutionTrace.Event
import ExecutionTrace.Evm.Action
import ExecutionTrace.Evm.Activation
import ExecutionTrace.Evm.Code
import ExecutionTrace.Evm.Deferred
import ExecutionTrace.Evm.Fee
import ExecutionTrace.Evm.Fee.PointSum
import ExecutionTrace.Evm.Instruction
import ExecutionTrace.Evm.Machine
import ExecutionTrace.Evm.Memory
import ExecutionTrace.Evm.Precompile
import ExecutionTrace.Evm.State
import ExecutionTrace.Evm.Step
import ExecutionTrace.Evm.Transaction
import ExecutionTrace.Failure
import ExecutionTrace.Frame
import ExecutionTrace.Frame.Json
import ExecutionTrace.Hardfork
import ExecutionTrace.Hex
import ExecutionTrace.Json
import ExecutionTrace.Json.Double
import ExecutionTrace.Json.Numeral
import ExecutionTrace.Json.Octets
import ExecutionTrace.Json.Source
import ExecutionTrace.Keccak
import ExecutionTrace.Ledger
import ExecutionTrace.Nesting
import ExecutionTrace.Opcode
import ExecutionTrace.Operand
import ExecutionTrace.Options
import ExecutionTrace.OrdMap
import ExecutionTrace.PendingOp
import ExecutionTrace.Prestate
import ExecutionTrace.Prestate.Json
import ExecutionTrace.Recorder
import ExecutionTrace.RevertReason
import ExecutionTrace.Selectors
import ExecutionTrace.Text.Escaped
import ExecutionTrace.Text.Unseen
import ExecutionTrace.Tracer
import ExecutionTrace.TxFacts
import ExecutionTrace.Word
import ExecutionTrace.World
import ExecutionTrace.World.Settled
import ExecutionTrace.Proofs.Nesting
import ExecutionTrace.Proofs.Prestate.Capture
import ExecutionTrace.Proofs.Protocol
import ExecutionTrace.Proofs.Action
import ExecutionTrace.Proofs.CallTree.Report
import ExecutionTrace.Proofs.World.Settled
import ExecutionTrace.Proofs.Prestate.Reconcile
import ExecutionTrace.Proofs.Recorder.Hooks
import ExecutionTrace.Proofs.Recorder.Actions
import ExecutionTrace.Proofs.Recorder.Storage
import ExecutionTrace.Proofs.Block.Selection
import ExecutionTrace.Proofs.CallTree.Logs
import ExecutionTrace.Proofs.Protocol.Answers
import ExecutionTrace.Proofs.Selectors.Histogram
import ExecutionTrace.Proofs.Selectors.Calls
import ExecutionTrace.Proofs.CallTree.TopOnly
import ExecutionTrace.Proofs.Recorder.Failures
import ExecutionTrace.Proofs.Prestate.Contexts
import ExecutionTrace.Proofs.Prestate.Touched
import ExecutionTrace.Proofs.Recorder.Contexts
import ExecutionTrace.Proofs.Prestate.Nonces
import ExecutionTrace.Proofs.Selectors.Operations
import ExecutionTrace.Proofs.Nesting.History
import ExecutionTrace.Proofs.Evm.Reads
import ExecutionTrace.Proofs.Evm.Waiting
import ExecutionTrace.Proofs.Block.Rejection
import ExecutionTrace.Proofs.RevertReason
import ExecutionTrace.Proofs.World.Conservation
import ExecutionTrace.Proofs.Prestate.WriteOnce
import ExecutionTrace.Proofs.CallTree.WellFormed
import ExecutionTrace.Proofs.Stepping
import ExecutionTrace.Proofs.CallTree.Pruning
import ExecutionTrace.Proofs.Protocol.Refusals
import ExecutionTrace.Proofs.Json.RoundTrip
import ExecutionTrace.Proofs.Hex
import ExecutionTrace.Proofs.Json.Results
import ExecutionTrace.Proofs.Json.Values
import ExecutionTrace.Proofs.Options
import ExecutionTrace.Proofs.Operand
import ExecutionTrace.Proofs.Snapshots
import ExecutionTrace.Proofs.Nesting.Moves
