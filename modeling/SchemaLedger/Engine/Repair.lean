import SchemaLedger.Catalog
import SchemaLedger.Execution

/-!
# Repairs

A repair brings a ledger back in line with a catalog. What is to be done with a row depends on that
row and the catalog alone, and is its disposition: failed rows go, rows whose unit is gone become
deletion markers unless they are newer than the catalog, and versioned rows take the checksum of
their unit. Markers, pure baselines and initializers whose unit is gone stay as they are.
-/

namespace SchemaLedger

/-- What a repair does with a row. -/
inductive Disposition where
  | keep
  | remove
  | markDeleted
  /-- Takes over the checksum of the unit. -/
  | align (checksum : Option Checksum)
  deriving DecidableEq

namespace Disposition

/-- A row without a unit belongs to the catalog's range: it is repeatable, or not above it. -/
def isWithinCatalog (catalog : Catalog) (row : Row) : Bool :=
  match row.version, catalog.highestVersion? with
  | none, _ => true
  | some version, some ceiling => version ≤ ceiling
  | some _, none => false

/-- What a repair with a catalog does with a row. -/
def of (catalog : Catalog) (row : Row) : Disposition :=
  if row.kind.isMarker then keep
  else if !row.success then remove
  else if row.kind == .baseline then keep
  else
    match catalog.find? row.identity with
    | none =>
        if !row.kind.isBaseline && isWithinCatalog catalog row then markDeleted else keep
    | some migration =>
        if row.isVersioned && row.checksum != migration.checksum then align migration.checksum
        else keep

/-- The row that is left, if one is. -/
def apply (disposition : Disposition) (row : Row) : Option Row :=
  match disposition with
  | keep => some row
  | remove => none
  | markDeleted => some (Update.markDeleted.apply row)
  | align checksum => some ((Update.ofChecksum checksum).apply row)

/-- A disposition that leaves a row leaves it at its rank. -/
theorem rank_eq_of_apply_eq_some {disposition : Disposition} {row left : Row}
    (stays : disposition.apply row = some left) : left.rank = row.rank := by
  cases disposition <;> simp only [apply, Option.some.injEq, reduceCtorEq] at stays <;>
    subst stays <;> rfl

/-- The work that a disposition of the row with a rank asks for. -/
def perform {σ : Type} [LedgerStore σ] (disposition : Disposition) (rank : Int) : Work σ Unit :=
  match disposition with
  | keep => return ()
  | remove => LedgerStore.remove rank
  | markDeleted => LedgerStore.markDeleted rank
  | align checksum => LedgerStore.update rank (.ofChecksum checksum)

end Disposition

/-- The rows that a repair touched, as they were before. -/
structure RepairReport where
  /-- Failed rows that were removed. -/
  removed : List Row := []
  /-- Rows that were marked deleted. -/
  deleted : List Row := []
  /-- Rows that took the checksum of their unit. -/
  aligned : List Row := []

namespace RepairReport

def isEmpty (report : RepairReport) : Bool :=
  report.removed.isEmpty && report.deleted.isEmpty && report.aligned.isEmpty

def summary (report : RepairReport) : String :=
  if report.isEmpty then "Ledger is consistent, nothing to repair"
  else
    toString report.removed.length ++ " removed, " ++ toString report.deleted.length
      ++ " deleted, " ++ toString report.aligned.length ++ " aligned"

/-- The report after a disposition of one more row was performed. -/
def record (report : RepairReport) (row : Row) : Disposition → RepairReport
  | .keep => report
  | .remove => { report with removed := report.removed ++ [row] }
  | .markDeleted => { report with deleted := report.deleted ++ [row] }
  | .align _ => { report with aligned := report.aligned ++ [row] }

/-- Performs the dispositions of rows in order and reports each one that was performed. -/
def performAll {σ : Type} [LedgerStore σ] (catalog : Catalog) :
    RepairReport → List Row → Work σ RepairReport
  | report, [] => return report
  | report, row :: rest => do
      let disposition := Disposition.of catalog row
      disposition.perform row.rank
      performAll catalog (report.record row disposition) rest

def run {σ : Type} [LedgerStore σ] (catalog : Catalog) : Work σ RepairReport := do
  performAll catalog {} (← LedgerStore.readConsistent)

end RepairReport

end SchemaLedger
