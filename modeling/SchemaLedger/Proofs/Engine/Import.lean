import SchemaLedger.Engine.Import
import SchemaLedger.Proofs.Ledger.Memory

/-!
# What an import does to a ledger

An import writes to an empty ledger only, and what it writes are the entries of foreign rows that
are no markers, so the ledger that it leaves is consistent whatever the foreign ledger holds.
-/

namespace SchemaLedger

namespace ForeignRow

theorem map_row_voidFirst (identity : Identity) (fate : Fate) (rows : List ForeignRow) :
    (voidFirst identity fate rows).map (·.row) = rows.map (·.row) := by
  induction rows with
  | nil => rfl
  | cons foreign rest ih =>
    rw [voidFirst]
    split
    · rfl
    · rw [List.map_cons, List.map_cons, ih]

theorem map_row_pass (latestFirst : List ForeignRow) (row : Row) :
    (pass latestFirst row).map (·.row) = row :: latestFirst.map (·.row) := by
  rw [pass]
  split
  · rw [List.map_cons, map_row_voidFirst]
  · rfl

/-- All rows are taken in, the latest first. -/
theorem map_row_foldl_pass (rows : List Row) (latestFirst : List ForeignRow) :
    (rows.foldl pass latestFirst).map (·.row) = rows.reverse ++ latestFirst.map (·.row) := by
  induction rows generalizing latestFirst with
  | nil => rfl
  | cons row rest ih =>
    rw [List.foldl_cons, ih, map_row_pass, List.reverse_cons, List.append_assoc]
    rfl

/-- In the order in which they came, the rows taken in are those that there were. -/
theorem map_row_reverse_foldl_pass (rows : List Row) :
    (rows.foldl pass []).reverse.map (·.row) = rows := by
  rw [List.map_reverse, map_row_foldl_pass, List.map_nil, List.append_nil, List.reverse_reverse]

/-- What is copied is no marker. -/
theorem isMarker_of_isCopy {foreign : ForeignRow} (copied : foreign.fate.isCopy = true) :
    foreign.row.kind.isMarker = false := by
  unfold fate at copied
  split at copied
  · cases copied
  · rename_i native
    split at copied
    · cases copied
    · rename_i present
      simp [Kind.isMarker, native, present]

end ForeignRow

/-- Rows beside their fates, as they are after all rows were taken in. -/
theorem zip_fates (rows : List Row) : rows.zip (fates rows) =
    (rows.foldl ForeignRow.pass []).reverse.map fun foreign => (foreign.row, foreign.fate) := by
  rw [← List.zip_map', ForeignRow.map_row_reverse_foldl_pass, fates]

namespace ImportReport

def copiedRows (actions : List (Row × Fate)) : List Row :=
  (actions.filter (·.2.isCopy)).map (·.1)

/-- A warning for each copied row, baselines apart, whose unit the catalog does not have. -/
def warningsOn (catalog : Catalog) (copied : List Row) : List Warning :=
  (copied.filter fun row =>
    !row.kind.isBaseline && (catalog.find? row.identity).isNone).map (.copiedUnresolved ·.identity)

/-- Every row is listed with the fate that it has after all rows were taken in. -/
theorem exists_foreign_of_mem_actionsOf {rows : List Row} {row : Row} {fate : Fate}
    (listed : (row, fate) ∈ actionsOf rows) :
    ∃ foreign : ForeignRow, foreign.row = row ∧ foreign.fate = fate := by
  rw [actionsOf, zip_fates] at listed
  obtain ⟨foreign, _, same⟩ := List.mem_map.mp listed
  exact ⟨foreign, Prod.mk.inj same⟩

theorem isMarker_of_mem_copiedRows {rows : List Row} {row : Row}
    (copied : row ∈ copiedRows (actionsOf rows)) : row.kind.isMarker = false := by
  obtain ⟨⟨same, fate⟩, kept, rfl⟩ := List.mem_map.mp copied
  obtain ⟨listed, copies⟩ := List.mem_filter.mp kept
  obtain ⟨foreign, rfl, rfl⟩ := exists_foreign_of_mem_actionsOf listed
  exact ForeignRow.isMarker_of_isCopy copies

/-- A copied row is appended, and may be warned of. -/
theorem copy_apply (catalog : Catalog) (report : ImportReport) (row : Row) (ledger : MemoryLedger) :
    (copy catalog report row : Work MemoryLedger ImportReport) ledger =
      (.ok (report.warn catalog row), ledger.append row.toEntry) := rfl

theorem warningsOn_cons (catalog : Catalog) (row : Row) (rows : List Row) :
    warningsOn catalog (row :: rows) = warningsOn catalog [row] ++ warningsOn catalog rows := by
  rw [← List.singleton_append, warningsOn, List.filter_append, List.map_append]
  rfl

theorem warn_eq (catalog : Catalog) (report : ImportReport) (row : Row) :
    report.warn catalog row =
      { report with warnings := report.warnings ++ warningsOn catalog [row] } := by
  unfold warn warningsOn
  split <;> rename_i lone <;> simp [lone]

/-- Dealing with foreign rows appends the copied ones in order, lists every row and warns of the
copied ones. -/
theorem copyAll_apply (catalog : Catalog) (report : ImportReport) (actions : List (Row × Fate))
    (ledger : MemoryLedger) :
    (copyAll catalog report actions : Work MemoryLedger ImportReport) ledger =
      (.ok { report with
          actions := report.actions ++ actions
          warnings := report.warnings ++ warningsOn catalog (copiedRows actions) },
        ledger.appendAll ((copiedRows actions).map Row.toEntry)) := by
  induction actions generalizing report ledger with
  | nil => simp [copyAll, copiedRows, warningsOn]
  | cons action rest ih =>
    obtain ⟨row, fate⟩ := action
    unfold copyAll
    cases copies : fate.isCopy with
    | true =>
      have kept : copiedRows ((row, fate) :: rest) = row :: copiedRows rest := by
        simp [copiedRows, copies]
      simp only [if_true]
      rw [Work.bind_apply_of_ok (copy_apply catalog report row ledger), ih, warn_eq, kept,
        List.map_cons, MemoryLedger.appendAll_cons, warningsOn_cons catalog row (copiedRows rest)]
      simp [record]
    | false =>
      have skipped : copiedRows ((row, fate) :: rest) = copiedRows rest := by
        simp [copiedRows, copies]
      have unchanged : (pure report : Work MemoryLedger ImportReport) ledger =
          (.ok report, ledger) := rfl
      simp only [Bool.false_eq_true, if_false]
      rw [Work.bind_apply_of_ok unchanged, ih, skipped]
      simp [record]

/-- An import fails as the reading of the foreign ledger does, is rejected for an inconsistent
ledger or one with a history, and copies to an empty ledger. -/
theorem run_eq (foreign : ForeignLedger) (catalog : Catalog) (ledger : MemoryLedger) :
    (run foreign catalog : Work MemoryLedger ImportReport) ledger =
      match foreign.rows with
      | .error error => (.error error, ledger)
      | .ok rows =>
          match checkConsistent ledger.rows with
          | .error error => (.error error, ledger)
          | .ok () =>
              if ledger.rows.isEmpty then
                (.ok {
                    foreignTable := foreign.table
                    table := ledger.table
                    actions := actionsOf rows
                    warnings := warningsOn catalog (copiedRows (actionsOf rows)) },
                  ledger.appendAll ((copiedRows (actionsOf rows)).map Row.toEntry))
              else
                (.error (.validation (.importOverHistory ledger.table ledger.rows.length)),
                  ledger) := by
  rw [run, Work.bind_apply, Work.liftExcept_apply]
  cases foreign.rows with
  | error error => rfl
  | ok rows =>
    simp only [Work.bind_apply, MemoryLedger.readConsistent_apply, MemoryLedger.currentTable_apply]
    cases checkConsistent ledger.rows with
    | error error => rfl
    | ok _ =>
      simp only [Except.map]
      cases ledger.rows.isEmpty with
      | false => rfl
      | true =>
        simp only [if_true, copyAll_apply]
        rfl

end ImportReport

end SchemaLedger
