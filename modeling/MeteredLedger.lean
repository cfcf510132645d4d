import MeteredLedger.Bytes.BigEndian
import MeteredLedger.Config.Basic
import MeteredLedger.Config.Settings
import MeteredLedger.Digest.Blake3
import MeteredLedger.Engine.Basic
import MeteredLedger.Engine.Response
import MeteredLedger.Engine.Settlement
import MeteredLedger.Engine.Transaction
import MeteredLedger.Host.Conversion
import MeteredLedger.Ledger.Account
import MeteredLedger.Ledger.Basic
import MeteredLedger.Ledger.Transfer
import MeteredLedger.Machine.Context
import MeteredLedger.Machine.Environment
import MeteredLedger.Machine.ErrorCode
import MeteredLedger.Machine.Juice
import MeteredLedger.Machine.Outcome
import MeteredLedger.Machine.Special
import MeteredLedger.Op.Basic
import MeteredLedger.Op.Builtins
import MeteredLedger.Op.Cost
import MeteredLedger.Op.Eval
import MeteredLedger.Proofs.Bytes.BigEndian
import MeteredLedger.Proofs.Control.Except
import MeteredLedger.Proofs.Engine.Blocks
import MeteredLedger.Proofs.Engine.Commuting
import MeteredLedger.Proofs.Engine.Conservation
import MeteredLedger.Proofs.Engine.Definitions
import MeteredLedger.Proofs.Engine.Determinacy
import MeteredLedger.Proofs.Engine.DryRun
import MeteredLedger.Proofs.Engine.Holdings
import MeteredLedger.Proofs.Engine.Isolation
import MeteredLedger.Proofs.Engine.Replay
import MeteredLedger.Proofs.Engine.Requests
import MeteredLedger.Proofs.Engine.Settlement
import MeteredLedger.Proofs.Engine.Transfers
import MeteredLedger.Proofs.Engine.Wire
import MeteredLedger.Proofs.Host.Conversion
import MeteredLedger.Proofs.Ledger.Accounts
import MeteredLedger.Proofs.Ledger.Adjust
import MeteredLedger.Proofs.Ledger.Balances
import MeteredLedger.Proofs.Ledger.Holdings
import MeteredLedger.Proofs.Ledger.Objections
import MeteredLedger.Proofs.Ledger.Payments
import MeteredLedger.Proofs.Ledger.Scans
import MeteredLedger.Proofs.Ledger.Spending
import MeteredLedger.Proofs.Machine.Accounting
import MeteredLedger.Proofs.Machine.Effect
import MeteredLedger.Proofs.Op.Assoc
import MeteredLedger.Proofs.Op.Bindings
import MeteredLedger.Proofs.Op.Calls
import MeteredLedger.Proofs.Op.Depth
import MeteredLedger.Proofs.Op.Effects
import MeteredLedger.Proofs.Op.Frame
import MeteredLedger.Proofs.Op.Guarded
import MeteredLedger.Proofs.Op.Instrument
import MeteredLedger.Proofs.Op.Log
import MeteredLedger.Proofs.Op.Metering
import MeteredLedger.Proofs.Op.Nodes
import MeteredLedger.Proofs.Op.Outcomes
import MeteredLedger.Proofs.Op.Seclusion
import MeteredLedger.Proofs.Op.Simulation
import MeteredLedger.Proofs.Op.Terms
import MeteredLedger.Proofs.Op.Threshold
import MeteredLedger.Proofs.Order.Lexicographic
import MeteredLedger.Proofs.Sorted.Map
import MeteredLedger.Proofs.Sorted.Set
import MeteredLedger.Proofs.Text.Hex
import MeteredLedger.Proofs.Text.Reading
import MeteredLedger.Proofs.Value.Collections
import MeteredLedger.Proofs.Value.Encoding
import MeteredLedger.Proofs.Value.Order
import MeteredLedger.Proofs.Value.Precedence
import MeteredLedger.Proofs.Value.Printing
import MeteredLedger.Sharing.Lineage
import MeteredLedger.Sharing.Revision
import MeteredLedger.Sorted.Map
import MeteredLedger.Sorted.Set
import MeteredLedger.Text.Decimal
import MeteredLedger.Text.Hex
import MeteredLedger.Text.JsonString
import MeteredLedger.Text.Order
import MeteredLedger.Text.Printable
import MeteredLedger.Text.Quoted
import MeteredLedger.Text.Record
import MeteredLedger.Value.Basic
import MeteredLedger.Value.BlobMap
import MeteredLedger.Value.ContentHash
import MeteredLedger.Value.Edn
import MeteredLedger.Value.Encoding
import MeteredLedger.Value.Error
import MeteredLedger.Value.Order
import MeteredLedger.Value.Sequence
