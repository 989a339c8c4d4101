import SchemaLedger.Config.Basic
import SchemaLedger.Info.Overview

/-!
# Validation

Validation looks at every reconciled info and finds at most one issue in it. What it finds blocks a
migrate: everything if the migrate validates, else only what always blocks.
-/

namespace SchemaLedger

structure Validation where
  /-- The number of infos looked at. -/
  validated : Nat
  /-- The issues found, in the order of the infos. -/
  issues : List Issue

/-- The issue between a unit and its latest, successful row. -/
def Issue.betweenRowAndUnit? (info : Info) (migration : Migration) (row : Row) : Option Issue :=
  if row.kind != .baseline && !row.kind.isCompatibleWith migration.kind then
    some (.typeMismatch info.identity row.kind migration.kind)
  else if info.checksumMismatch then
    some (.checksumMismatch info.identity row.checksum migration.checksum)
  else none

/-- The issue of a pending unit below the highest applied version. -/
def Issue.ofPending? (config : Config) (highest : Option Version) (info : Info) : Option Issue :=
  match info.version?, highest with
  | some version, some highest =>
      if version < highest && !config.outOfOrder then some (.outOfOrder info.identity highest)
      else none
  | _, _ => none

/-- The issue of an unmatched row. -/
def Issue.ofMissing? (config : Config) (info : Info) : Option Issue :=
  if info.future then if config.ignoreFuture then none else some (.future info.identity)
  else if config.ignoreMissing then none
  else some (.missing info.identity)

def Issue.ofInfo? (config : Config) (highest : Option Version) (info : Info) : Option Issue :=
  if info.hasFailed then some (.failed info.identity)
  else
    match info.status with
    | .missing => ofMissing? config info
    | .pending => ofPending? config highest info
    | .success | .outdated =>
        match info.subject with
        | .applied migration row => betweenRowAndUnit? info migration row
        | _ => none
    | .failed | .ignored => none

namespace Validation

def of (catalog : Catalog) (rows : List Row) (config : Config) : Validation :=
  let infos := reconcile catalog rows
  ⟨infos.length, infos.filterMap (Issue.ofInfo? config (highestApplied? rows))⟩

/-- No issue was found. -/
def isValid (validation : Validation) : Bool := validation.issues.isEmpty

/-- The validation, unless it found issues. -/
def accepted (validation : Validation) : Except Error Validation :=
  if validation.isValid then .ok validation else .error (.validation (.issues validation.issues))

theorem accepted_eq_ok_iff {validation result : Validation} :
    validation.accepted = .ok result ↔ validation.issues = [] ∧ result = validation := by
  unfold accepted isValid
  cases validation.issues <;> simp [eq_comm]

/-- The issues that block a migrate. -/
def blocking (validation : Validation) (config : Config) : List Issue :=
  validation.issues.filter fun issue => config.validateOnMigrate || issue.alwaysBlocks

end Validation

end SchemaLedger
