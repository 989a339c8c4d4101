import SchemaLedger.Engine.Import
import SchemaLedger.Engine.Repair
import SchemaLedger.Engine.Rollout

/-!
# The engine

The engine ties a configuration, a provider of units and an executor to a deployment. Every
operation prepares the ledger first, then loads the catalog if it needs one. Operations that write
hold the ledger lock meanwhile; whatever becomes of them, the lock is given back.
-/

namespace SchemaLedger

/-- What becomes of work that has to wait for the lock. -/
inductive Completion (α : Type) where
  /-- The work was done. -/
  | finished (value : α)
  /-- The work waits for a lock that is never given back. -/
  | waiting

/-- A configuration, the units that discovery offers or its failure, an executor, and clocks. -/
structure Engine where
  config : Config := {}
  provider : Except Error (List Migration) := .ok []
  executor : Executor
  clock : Clock

namespace Engine

variable {σ α : Type} [LedgerStore σ]

/-- Creates the ledger's table unless it exists. -/
def prepare : Work (Deployment σ) Unit := Deployment.onStore LedgerStore.prepare

def loadCatalog (engine : Engine) : Except Error Catalog := do
  Catalog.ofList? (← engine.provider)

/-- Does some work and gives the lock back, whatever becomes of the work. -/
def releasing (work : Work (Deployment σ) α) : Work (Deployment σ) (Completion α) :=
  fun deployment =>
    let (result, after) := work deployment
    (result.map .finished, { after with store := LedgerStore.releaseLock after.store })

/-- Does some work under the lock; waiting for it ends with the timeout, if there is one. -/
def locked (engine : Engine) (work : Work (Deployment σ) α) :
    Work (Deployment σ) (Completion α) := do
  if ← Deployment.onStore LedgerStore.acquireLock then releasing work
  else
    match engine.config.lockTimeout with
    | none => return .waiting
    | some seconds =>
        let table ← Deployment.onStore LedgerStore.currentTable
        throw (.lockFailed (.timedOut seconds table))

/-- Reconciles the catalog with the ledger. -/
def info (engine : Engine) : Work (Deployment σ) Overview := do
  prepare
  let catalog ← engine.loadCatalog
  let rows ← Deployment.onStore LedgerStore.readConsistent
  return .of catalog rows

/-- Validates the ledger against the catalog; issues are an error. -/
def validate (engine : Engine) : Work (Deployment σ) Validation := do
  prepare
  let catalog ← engine.loadCatalog
  let rows ← Deployment.onStore LedgerStore.readConsistent
  (Validation.of catalog rows engine.config).accepted

def migrate (engine : Engine) : Work (Deployment σ) (Completion Rollout) := do
  prepare
  let catalog ← engine.loadCatalog
  engine.locked (Rollout.run catalog engine.executor engine.config engine.clock)

/-- Seeds an empty ledger with a baseline, after executing an initializer if one is given. -/
def baselineWith (engine : Engine) (version : Version) (description : String)
    (initializer : Option Migration) : Work (Deployment σ) (Completion BaselineReport) := do
  prepare
  let request : BaselineRequest :=
    { version, description, initializer, installedBy := engine.config.installedBy }
  engine.locked (request.run engine.executor engine.clock)

/-- Seeds an empty ledger with the configured baseline. -/
def baseline (engine : Engine) : Work (Deployment σ) (Completion BaselineReport) :=
  engine.baselineWith engine.config.baselineVersion engine.config.baselineDescription none

/-- Brings the ledger back in line with the catalog. -/
def repair (engine : Engine) : Work (Deployment σ) (Completion RepairReport) := do
  prepare
  let catalog ← engine.loadCatalog
  engine.locked (Deployment.onStore (RepairReport.run catalog))

/-- Copies another tool's ledger into the empty ledger. -/
def liberate (engine : Engine) (foreign : ForeignLedger) :
    Work (Deployment σ) (Completion ImportReport) := do
  prepare
  let catalog ← engine.loadCatalog
  engine.locked (Deployment.onStore (ImportReport.run foreign catalog))

end Engine

end SchemaLedger
