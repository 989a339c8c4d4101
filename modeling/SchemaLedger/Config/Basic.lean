import SchemaLedger.Version.Text

/-!
# Configuration

What the engine is told: which units may run, what validation overlooks, what a baseline records,
and how long to wait for the ledger lock.
-/

namespace SchemaLedger

structure Config where
  /-- Units below the highest applied version may run. -/
  outOfOrder : Bool := false
  /-- The version up to which versioned units run, if there is a limit. -/
  target : Option Version := none
  /-- A migrate validates the ledger against the catalog first. -/
  validateOnMigrate : Bool := true
  /-- Validation overlooks applied units that are gone. -/
  ignoreMissing : Bool := false
  /-- Validation overlooks applied versions above the catalog. -/
  ignoreFuture : Bool := true
  /-- A migrate baselines an empty ledger first. -/
  baselineOnMigrate : Bool := false
  /-- The version of a baseline. -/
  baselineVersion : Version := .ofMajor 1
  /-- The description of a baseline's row. -/
  baselineDescription : String := "<< Baseline >>"
  /-- Who is recorded as having applied a unit. -/
  installedBy : String := "tidemark"
  /-- The seconds after which waiting for the lock is given up, if ever. -/
  lockTimeout : Option UInt64 := none
  deriving BEq

end SchemaLedger
