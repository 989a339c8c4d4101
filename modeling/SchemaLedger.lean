import SchemaLedger.Config.File
import SchemaLedger.Engine.Basic
import SchemaLedger.Ledger.Memory
import SchemaLedger.LogSettings
import SchemaLedger.Proofs.Version.Order
import SchemaLedger.Proofs.Identity
import SchemaLedger.Proofs.Info.LatestRows
import SchemaLedger.Proofs.Info.Reconciliation
import SchemaLedger.Proofs.Engine.Plan
import SchemaLedger.Proofs.Ledger.Memory
import SchemaLedger.Proofs.Validation.Blocking
import SchemaLedger.Proofs.Catalog
import SchemaLedger.Proofs.Engine.Baseline
import SchemaLedger.Proofs.Engine.Import
import SchemaLedger.Proofs.Engine.Repair
import SchemaLedger.Proofs.Engine.Clearance
import SchemaLedger.Proofs.Engine.Rollout
import SchemaLedger.Proofs.Engine.Progress
import SchemaLedger.Proofs.Engine.Stability
import SchemaLedger.Proofs.Engine.Convergence
import SchemaLedger.Proofs.Engine.Resumption
import SchemaLedger.Proofs.Engine.Seeding
import SchemaLedger.Proofs.Engine.Operation
import SchemaLedger.Proofs.Engine.Outcome
import SchemaLedger.Proofs.Engine.History
import SchemaLedger.Proofs.Engine.Answers
import SchemaLedger.Proofs.Engine.Prediction
import SchemaLedger.Proofs.Engine.Atomicity
import SchemaLedger.Proofs.Engine.Floor
import SchemaLedger.Proofs.Engine.Ascent
import SchemaLedger.Proofs.Info.View
import SchemaLedger.Proofs.Engine.Regularity
import SchemaLedger.Proofs.Engine.Staging
import SchemaLedger.Proofs.Engine.Blame
import SchemaLedger.Proofs.Engine.Transfer
import SchemaLedger.Proofs.Engine.CurrentVersion
import SchemaLedger.Proofs.Engine.Rebaseline
import SchemaLedger.Proofs.Info.Account
import SchemaLedger.Proofs.Engine.Rejection
import SchemaLedger.Proofs.Engine.Receipt
import SchemaLedger.Proofs.Engine.RowStacks
import SchemaLedger.Proofs.Engine.Voiding
import SchemaLedger.Proofs.Engine.ImportReceipt
import SchemaLedger.Proofs.Engine.Mending
import SchemaLedger.Proofs.Ties
import SchemaLedger.Proofs.Engine.Discovery
import SchemaLedger.Proofs.Ledger.Calls
import SchemaLedger.Proofs.Version.Laws
import SchemaLedger.Proofs.Version.Text
import SchemaLedger.Proofs.Namesakes
import SchemaLedger.Proofs.Naming
import SchemaLedger.Proofs.Checksum
import SchemaLedger.Proofs.Document.Toml
import SchemaLedger.Proofs.Config.Document
import SchemaLedger.Proofs.FileTree
import SchemaLedger.Proofs.Config.File
