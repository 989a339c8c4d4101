import SchemaLedger.Catalog
import SchemaLedger.Execution
import SchemaLedger.Warning

/-!
# Imports of foreign ledgers

Another tool's ledger can hold undo and deletion markers. An import drops them, and each successful
marker also voids the latest earlier row of its identity that is neither a marker nor void already,
so that what is copied is what is actually applied. `fates` decides this for every row, in the
order of ranks; `ImportReport.run` copies accordingly into an empty ledger.
-/

namespace SchemaLedger

/-- What becomes of a foreign row. -/
inductive Fate where
  /-- An undo marker, dropped. -/
  | skippedUndo
  /-- A row that a later undo voids. -/
  | skippedUndone
  /-- A deletion marker, dropped. -/
  | skippedDeleted
  /-- A row that a later deletion voids. -/
  | skippedDeletedTarget
  | copiedScript
  | copiedCode
  | copiedBaseline
  deriving DecidableEq

namespace Fate

def all : List Fate :=
  [skippedUndo, skippedUndone, skippedDeleted, skippedDeletedTarget, copiedScript, copiedCode,
    copiedBaseline]

def text : Fate → String
  | skippedUndo => "skipped undo migration"
  | skippedUndone => "skipped undone migration"
  | skippedDeleted => "skipped deleted migration"
  | skippedDeletedTarget => "skipped deleted target migration"
  | copiedScript => "copied script migration"
  | copiedCode => "copied code migration"
  | copiedBaseline => "copied baseline migration"

/-- The row is written to the new ledger. -/
def isCopy : Fate → Bool
  | copiedScript | copiedCode | copiedBaseline => true
  | _ => false

/-- The fate of a row that is neither a marker nor void. -/
def ofCopied (kind : Kind) : Fate :=
  if kind == .code then copiedCode
  else if kind.isBaseline then copiedBaseline
  else copiedScript

/-- The fate of the row that a marker voids, if the marker takes effect. -/
def ofVoided? (marker : Row) : Option Fate :=
  if !marker.success || marker.isVisible then none
  else if marker.kind.isUndo then some skippedUndone
  else some skippedDeletedTarget

end Fate

/-- A foreign row, with the fate that a later marker gave it, if one did. -/
structure ForeignRow where
  row : Row
  voided : Option Fate := none

namespace ForeignRow

/-- The row can be voided by a marker of an identity. -/
def isOpenTo (identity : Identity) (foreign : ForeignRow) : Bool :=
  foreign.row.isVisible && foreign.voided.isNone && foreign.row.identity == identity

/-- Voids the first row that a marker of an identity can void. -/
def voidFirst (identity : Identity) (fate : Fate) : List ForeignRow → List ForeignRow
  | [] => []
  | foreign :: rest =>
      if foreign.isOpenTo identity then { foreign with voided := some fate } :: rest
      else foreign :: voidFirst identity fate rest

/-- Takes in one more row, the earlier ones being listed with the latest first. -/
def pass (latestFirst : List ForeignRow) (row : Row) : List ForeignRow :=
  match Fate.ofVoided? row with
  | some fate => { row } :: voidFirst row.identity fate latestFirst
  | none => { row } :: latestFirst

/-- What becomes of the row. -/
def fate (foreign : ForeignRow) : Fate :=
  if foreign.row.kind.isUndo then .skippedUndo
  else if foreign.row.kind == .deleted then .skippedDeleted
  else foreign.voided.getD (.ofCopied foreign.row.kind)

end ForeignRow

/-- What becomes of each foreign row, given in the order of ranks. -/
def fates (rows : List Row) : List Fate :=
  ((rows.foldl ForeignRow.pass []).reverse).map ForeignRow.fate

@[simp]
theorem length_voidFirst (identity : Identity) (fate : Fate) (rows : List ForeignRow) :
    (ForeignRow.voidFirst identity fate rows).length = rows.length := by
  induction rows with
  | nil => rfl
  | cons row rest ih =>
    unfold ForeignRow.voidFirst
    split <;> simp [ih]

@[simp]
theorem length_pass (latestFirst : List ForeignRow) (row : Row) :
    (ForeignRow.pass latestFirst row).length = latestFirst.length + 1 := by
  unfold ForeignRow.pass
  split <;> simp

@[simp]
theorem length_fates (rows : List Row) : (fates rows).length = rows.length := by
  have counted (passed : List ForeignRow) :
      (rows.foldl ForeignRow.pass passed).length = passed.length + rows.length := by
    induction rows generalizing passed with
    | nil => rfl
    | cons row rest ih =>
      rw [List.foldl_cons, ih, length_pass, List.length_cons]
      omega
  simp [fates, counted]

/-- A ledger written by another tool, which can fail to be read. -/
structure ForeignLedger where
  table : String
  rows : Except Error (List Row)

structure ImportReport where
  /-- The table that was read. -/
  foreignTable : String
  /-- The table that was written. -/
  table : String
  /-- Every foreign row with its fate, in the order of ranks. -/
  actions : List (Row × Fate) := []
  warnings : List Warning := []

namespace ImportReport

def count (report : ImportReport) (fate : Fate) : Nat :=
  report.actions.countP (·.2 == fate)

def copied (report : ImportReport) : Nat := report.actions.countP (·.2.isCopy)

/-- Foreign rows in the order of ranks, equal ones as given, with their fates. -/
def actionsOf (rows : List Row) : List (Row × Fate) :=
  let sorted := rows.mergeSort (·.rank ≤ ·.rank)
  sorted.zip (fates sorted)

/-- The report with one more row and its fate. -/
def record (report : ImportReport) (row : Row) (fate : Fate) : ImportReport :=
  { report with actions := report.actions ++ [(row, fate)] }

/-- The report with a warning if the row is none of a baseline and the catalog has no unit for
it. -/
def warn (report : ImportReport) (catalog : Catalog) (row : Row) : ImportReport :=
  if !row.kind.isBaseline && (catalog.find? row.identity).isNone then
    { report with warnings := report.warnings ++ [.copiedUnresolved row.identity] }
  else report

variable {σ : Type} [LedgerStore σ]

/-- Writes a foreign row to the ledger. -/
def copy (catalog : Catalog) (report : ImportReport) (row : Row) : Work σ ImportReport := do
  let _ ← LedgerStore.append row.toEntry
  return report.warn catalog row

/-- Deals with foreign rows in order, each by its fate. -/
def copyAll (catalog : Catalog) : ImportReport → List (Row × Fate) → Work σ ImportReport
  | report, [] => return report
  | report, (row, fate) :: rest => do
      let report ← if fate.isCopy then copy catalog report row else pure report
      copyAll catalog (report.record row fate) rest

/-- Copies a foreign ledger into an empty one. -/
def run (foreign : ForeignLedger) (catalog : Catalog) : Work σ ImportReport := do
  let actions := actionsOf (← foreign.rows)
  let existing ← LedgerStore.readConsistent
  let table ← LedgerStore.currentTable
  if existing.isEmpty then copyAll catalog { foreignTable := foreign.table, table } actions
  else throw (.validation (.importOverHistory table existing.length))

end ImportReport

end SchemaLedger
