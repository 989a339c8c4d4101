import SchemaLedger.Execution
import SchemaLedger.Warning

/-!
# Baselines

A baseline seeds an empty ledger with one row, at or below whose version units count as applied. A
pure baseline only records its version. A baseline with an initializer executes that unit first and
records its script, its checksum and the baseline flavour of its kind; if it fails, the failed row
stays. On a ledger that has a baseline already nothing is written.
-/

namespace SchemaLedger

structure BaselineRequest where
  version : Version
  /-- The description of a pure baseline's row. -/
  description : String
  /-- The unit to execute first, if there is one. -/
  initializer : Option Migration := none
  installedBy : String

structure BaselineReport where
  /-- The version of the baseline in the ledger. -/
  version : Option Version
  /-- The rank of the row that was written, if one was. -/
  rank : Option Int
  warnings : List Warning := []

namespace BaselineReport

/-- A baseline that does not fail leaves the ledger with a baseline. -/
def baselined (_ : BaselineReport) : Bool := true

def summary (report : BaselineReport) : String :=
  match report.version, report.rank with
  | some version, some _ => "Baselined schema at version " ++ version.text
  | some version, none => "Schema already baselined at version " ++ version.text
  | none, _ => "Schema not baselined"

end BaselineReport

/-- The baseline row with the highest rank. -/
def latestBaseline? (rows : List Row) : Option Row :=
  lastGreatest? (·.rank ≤ ·.rank) (rows.filter (·.isEffectiveBaseline))

namespace BaselineRequest

/-- The report on a ledger that has a baseline already. -/
def refuse (request : BaselineRequest) (table : String) (existing : Row) : BaselineReport where
  version := existing.version
  rank := none
  warnings :=
    if existing.version == some request.version then []
    else [.alreadyBaselined table existing.version request.version]

/-- The record of a pure baseline. -/
def marker (request : BaselineRequest) (clock : Clock) : Entry where
  version := some request.version
  description := request.description
  kind := .baseline
  script := request.description
  checksum := none
  elapsed := 0
  success := true
  installedBy := request.installedBy
  installedOn := clock.now

/-- The record of an initializer at the version of the baseline. -/
def initialized (request : BaselineRequest) (clock : Clock) (initializer : Migration)
    (success : Bool) : Entry :=
  { Entry.ofExecution initializer request.installedBy clock success with
    version := some request.version
    kind := initializer.kind.asBaseline }

variable {σ : Type} [LedgerStore σ]

/-- Appends the row of a baseline that succeeded. -/
def record (request : BaselineRequest) (entry : Entry) :
    Work (Deployment σ) BaselineReport := do
  let rank ← Deployment.onStore (LedgerStore.append entry)
  return { version := some request.version, rank := some rank }

/-- Executes an initializer and records it; a failure is recorded, then raised. -/
def recordInitializer (request : BaselineRequest) (executor : Executor) (clock : Clock)
    (initializer : Migration) : Work (Deployment σ) BaselineReport := do
  match ← Deployment.execute executor initializer with
  | .ok () => record request (request.initialized clock initializer true)
  | .error cause =>
      let _ ← Deployment.onStore
        (LedgerStore.append (request.initialized clock initializer false))
      throw (.unitFailed (some request.version) initializer.description cause)

/-- Seeds an empty ledger; a ledger with a history but no baseline is refused. -/
def run (request : BaselineRequest) (executor : Executor) (clock : Clock) :
    Work (Deployment σ) BaselineReport := do
  let rows ← Deployment.onStore LedgerStore.readConsistent
  let table ← Deployment.onStore LedgerStore.currentTable
  match latestBaseline? rows with
  | some existing => return request.refuse table existing
  | none =>
      if !rows.isEmpty then throw (.validation (.baselineOverHistory table rows.length))
      else
        match request.initializer with
        | none => record request (request.marker clock)
        | some initializer => recordInitializer request executor clock initializer

end BaselineRequest

end SchemaLedger
