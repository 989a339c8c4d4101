import SchemaLedger.Engine.Baseline
import SchemaLedger.Validation

/-!
# Rollouts

A rollout brings a schema up to date: it executes the pending units in the order of their
reconciliation, up to the target version, records each attempt as a row and stops at the first
failure. Issues that block are found before anything is executed. A failure is part of the report,
while rows of earlier units stay.
-/

namespace SchemaLedger

/-- A unit that a rollout executed. -/
structure Attempt where
  migration : Migration
  /-- How long the execution took, in milliseconds. -/
  elapsed : Int
  success : Bool

/-- The attempt at a unit, for as long as the clock tells. -/
def Attempt.timed (clock : Clock) (success : Bool) (migration : Migration) : Attempt :=
  ⟨migration, clock.timing migration, success⟩

structure Rollout where
  /-- The highest applied version before the rollout. -/
  initial : Option Version
  /-- The version of the last versioned unit that succeeded, or else the initial one. -/
  target : Option Version
  /-- The number of units that succeeded. -/
  executed : Nat := 0
  /-- The units executed, in order. -/
  attempts : List Attempt := []
  /-- The rollout began by baselining an empty ledger. -/
  baselined : Bool := false
  /-- How long the rollout took, in milliseconds. -/
  elapsed : Int := 0
  warnings : List Warning := []
  /-- The failure that stopped the rollout. -/
  failure : Option Error := none

namespace Rollout

/-- Every unit that was executed succeeded. -/
def success (rollout : Rollout) : Bool := rollout.failure.isNone

/-- Nothing was executed. -/
def isNoop (rollout : Rollout) : Bool := rollout.attempts.isEmpty

/-- The rollout, unless a failure stopped it. -/
def accepted (rollout : Rollout) : Except Error Rollout :=
  match rollout.failure with
  | some failure => .error failure
  | none => .ok rollout

def summary (rollout : Rollout) : String :=
  let version := (rollout.target.map Version.text).getD "<< Empty Schema >>"
  match rollout.failure, rollout.executed with
  | some failure, executed =>
      toString executed ++ " applied before failure: " ++ failure.message
  | none, 0 => "Schema is up to date at version " ++ version
  | none, executed =>
      toString executed ++ " applied in " ++ toString rollout.elapsed ++ "ms, now at version "
        ++ version

def start (overview : Overview) (rows : List Row) (baselined : Bool) : Rollout where
  initial := highestApplied? rows
  target := highestApplied? rows
  baselined := baselined
  warnings := (overview.infos.filter (·.future)).map (.newerThanCatalog ·.identity)

/-- A unit is not above the target of the configuration. -/
def isWithinTarget (config : Config) (migration : Migration) : Bool :=
  !isAboveTarget migration.version config.target
where
  /-- Both versions are there, and the first is above the second. -/
  isAboveTarget : Option Version → Option Version → Bool
    | some version, some target => target < version
    | _, _ => false

/-- The units to execute, in order. -/
def plan (config : Config) (overview : Overview) : List Migration :=
  (overview.pending.filterMap (·.migration?)).filter (isWithinTarget config)

/-- The report after one more unit was executed. -/
def record (rollout : Rollout) (clock : Clock) (migration : Migration) :
    Except Error Unit → Rollout
  | .ok () =>
      { rollout with
        attempts := rollout.attempts ++ [.timed clock true migration]
        executed := rollout.executed + 1
        target := migration.version.or rollout.target }
  | .error cause =>
      { rollout with
        attempts := rollout.attempts ++ [.timed clock false migration]
        failure := some (.unitFailed migration.version migration.description cause) }

/-- The report once the rollout has come to its end. -/
def finish (rollout : Rollout) (clock : Clock) : Rollout := { rollout with elapsed := clock.total }

@[simp]
theorem initial_finish (rollout : Rollout) (clock : Clock) :
    (rollout.finish clock).initial = rollout.initial := rfl

@[simp]
theorem target_finish (rollout : Rollout) (clock : Clock) :
    (rollout.finish clock).target = rollout.target := rfl

@[simp]
theorem baselined_finish (rollout : Rollout) (clock : Clock) :
    (rollout.finish clock).baselined = rollout.baselined := rfl

@[simp]
theorem attempts_finish (rollout : Rollout) (clock : Clock) :
    (rollout.finish clock).attempts = rollout.attempts := rfl

@[simp]
theorem executed_finish (rollout : Rollout) (clock : Clock) :
    (rollout.finish clock).executed = rollout.executed := rfl

@[simp]
theorem failure_finish (rollout : Rollout) (clock : Clock) :
    (rollout.finish clock).failure = rollout.failure := rfl

variable {σ : Type} [LedgerStore σ]

/-- Executes units in order and records them, up to the first failure. -/
def attemptAll (executor : Executor) (config : Config) (clock : Clock) :
    Rollout → List Migration → Work (Deployment σ) Rollout
  | rollout, [] => return rollout
  | rollout, migration :: rest => do
      let outcome ← Deployment.execute executor migration
      let _ ← Deployment.onStore (LedgerStore.append
        (.ofExecution migration config.installedBy clock outcome.isOk))
      match outcome with
      | .ok () => attemptAll executor config clock (rollout.record clock migration outcome) rest
      | .error _ => return rollout.record clock migration outcome

/-- The rows to start from, after baselining an empty ledger if that is configured. -/
def readBaselined (executor : Executor) (config : Config) (clock : Clock) :
    Work (Deployment σ) (List Row × Bool) := do
  let rows ← Deployment.onStore LedgerStore.readConsistent
  if rows.isEmpty && config.baselineOnMigrate then
    let request : BaselineRequest :=
      { version := config.baselineVersion
        description := config.baselineDescription
        installedBy := config.installedBy }
    let _ ← request.run executor clock
    return (← Deployment.onStore LedgerStore.readConsistent, true)
  else return (rows, false)

/-- Executes the pending units of a catalog, unless an issue blocks. -/
def run (catalog : Catalog) (executor : Executor) (config : Config) (clock : Clock) :
    Work (Deployment σ) Rollout := do
  let (rows, baselined) ← readBaselined executor config clock
  match (Validation.of catalog rows config).blocking config with
  | [] =>
      let overview := Overview.of catalog rows
      let rollout ← attemptAll executor config clock (start overview rows baselined)
        (plan config overview)
      return rollout.finish clock
  | blocking => throw (.validation (.issues blocking))

end Rollout

end SchemaLedger
