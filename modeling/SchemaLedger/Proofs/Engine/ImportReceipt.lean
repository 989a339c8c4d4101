import Mathlib
import SchemaLedger.Proofs.Engine.Import
import SchemaLedger.Proofs.StableSort

/-!
# The receipt of an import

An import lists every foreign row in the order of ranks, rows of one rank as they were given, and
writes the rows that are copied in that order, at consecutive ranks. `ImportReport.Receipt` says
what the report and the ledger may be trusted for. Every import to an empty ledger has such a
receipt, while a ledger with rows is left as it is.
-/

namespace SchemaLedger

namespace ImportReport

section Sorting

/-- Rows in the order of ranks, rows of one rank as they were given. -/
structure InRankOrder (rows sorted : List Row) : Prop where
  complete : sorted.Perm rows
  ascending : sorted.Pairwise fun first second => first.rank ≤ second.rank
  stable : ∀ rank, sorted.filter (·.rank == rank) = rows.filter (·.rank == rank)

theorem inRankOrder_mergeSort (rows : List Row) :
    InRankOrder rows (rows.mergeSort fun first second => decide (first.rank ≤ second.rank)) := by
  have trans (first second third : Row) (lower : decide (first.rank ≤ second.rank) = true)
      (upper : decide (second.rank ≤ third.rank) = true) :
      decide (first.rank ≤ third.rank) = true := by
    simp only [decide_eq_true_eq] at lower upper ⊢
    omega
  have total (first second : Row) :
      (decide (first.rank ≤ second.rank) || decide (second.rank ≤ first.rank)) = true := by
    simpa using Int.le_total first.rank second.rank
  refine ⟨List.mergeSort_perm _ _, ?_, fun rank => ?_⟩
  · exact (List.pairwise_mergeSort trans total rows).imp of_decide_eq_true
  · rw [filter_mergeSort trans total]
    refine List.mergeSort_of_pairwise (List.pairwise_of_forall_mem_list ?_)
    intro first member second other
    have here : first.rank = rank := by simpa using (List.mem_filter.mp member).2
    have there : second.rank = rank := by simpa using (List.mem_filter.mp other).2
    simp [here, there]

theorem map_fst_actionsOf (rows : List Row) :
    (actionsOf rows).map (·.1) =
      rows.mergeSort fun first second => decide (first.rank ≤ second.rank) :=
  List.map_fst_zip (by simp)

/-- The actions tell the fates of the rows in the order of ranks. -/
theorem map_snd_actionsOf (rows : List Row) :
    (actionsOf rows).map (·.2) = fates ((actionsOf rows).map (·.1)) := by
  rw [map_fst_actionsOf]
  exact List.map_snd_zip (by simp)

theorem length_copiedRows_le (rows : List Row) :
    (copiedRows (actionsOf rows)).length ≤ rows.length := by
  have all := congrArg List.length (map_fst_actionsOf rows)
  rw [List.length_map, List.length_mergeSort] at all
  rw [copiedRows, List.length_map, ← all]
  exact List.length_filter_le ..

end Sorting

/-- Warnings depend on the entries of the copied rows alone. -/
theorem warningsOn_congr {copies rows : List Row} (catalog : Catalog)
    (same : copies.map Row.toEntry = rows.map Row.toEntry) :
    warningsOn catalog copies = warningsOn catalog rows := by
  have entries (rows : List Row) : warningsOn catalog rows =
      ((rows.map Row.toEntry).filter fun entry =>
        !entry.kind.isBaseline && (catalog.find? entry.identity).isNone).map
          (.copiedUnresolved ·.identity) := by
    rw [List.filter_map, List.map_map]
    rfl
  rw [entries, entries, same]

/-- What the report on an import to a ledger without rows, and the ledger after it, may be trusted
for. -/
structure Receipt (foreignTable : String) (rows : List Row) (catalog : Catalog)
    (target : MemoryLedger) (report : ImportReport) (after : MemoryLedger) : Prop where
  /-- Every foreign row has one action, in the order of ranks. -/
  sorted : InRankOrder rows (report.actions.map (·.1))
  /-- The fates are those of the rows in that order. -/
  decided : report.actions.map (·.2) = fates (report.actions.map (·.1))
  /-- The copied rows and no others are written, in that order and with all but their ranks. -/
  written : after.rows.map Row.toEntry =
    (report.actions.filter (·.2.isCopy)).map (·.1.toEntry)
  /-- Their ranks are consecutive from the one that the ledger was to give next. -/
  ranks : ∀ (index : Nat) (row : Row), after.rows[index]? = some row →
    row.rank = target.nextRank + index
  next : after.nextRank = target.nextRank + after.rows.length
  /-- Counting ranks has not left their 32 bits. -/
  room : after.HasRoom 0
  /-- No marker is written. -/
  visible : ∀ row ∈ after.rows, row.isVisible = true
  checked : checkConsistent after.rows = .ok ()
  count : report.copied = after.rows.length
  /-- There is a warning for every written row, baselines apart, that has no unit. -/
  warned : report.warnings = (after.rows.filter fun row =>
    !row.kind.isBaseline && (catalog.find? row.identity).isNone).map (.copiedUnresolved ·.identity)
  /-- Nothing else changes. -/
  kept : after.table = target.table ∧ after.locked = target.locked
  tables : report.foreignTable = foreignTable ∧ report.table = target.table

/-- The report that an import makes and what it writes make a receipt. -/
theorem receipt_appendAll (foreignTable : String) (rows : List Row) (catalog : Catalog)
    {target : MemoryLedger} (vacant : target.rows = []) (room : target.HasRoom rows.length) :
    Receipt foreignTable rows catalog target
      { foreignTable
        table := target.table
        actions := actionsOf rows
        warnings := warningsOn catalog (copiedRows (actionsOf rows)) }
      (target.appendAll ((copiedRows (actionsOf rows)).map Row.toEntry)) := by
  have after : (target.appendAll ((copiedRows (actionsOf rows)).map Row.toEntry)).rows =
      Entry.ranked target.nextRank ((copiedRows (actionsOf rows)).map Row.toEntry) := by
    rw [MemoryLedger.rows_appendAll, vacant, List.nil_append]
  have entries := Entry.map_toEntry_ranked target.nextRank
    ((copiedRows (actionsOf rows)).map Row.toEntry)
  rw [← after] at entries
  have length := congrArg List.length entries
  rw [List.length_map, List.length_map] at length
  have visible : ∀ entry ∈ (copiedRows (actionsOf rows)).map Row.toEntry,
      entry.kind.isMarker = false := by
    intro entry member
    obtain ⟨row, copied, rfl⟩ := List.mem_map.mp member
    exact isMarker_of_mem_copiedRows copied
  refine
    { sorted := ?sorted
      decided := map_snd_actionsOf rows
      written := ?written
      ranks := ?ranks
      next := ?next
      room := ?room
      visible := ?visible
      checked := ?checked
      count := ?count
      warned := (warningsOn_congr catalog entries).symm
      kept := ⟨rfl, rfl⟩
      tables := ⟨rfl, rfl⟩ }
  case sorted =>
    rw [map_fst_actionsOf]
    exact inRankOrder_mergeSort rows
  case written =>
    rw [entries, copiedRows, List.map_map]
    rfl
  case ranks =>
    intro index row present
    rw [after, Entry.getElem?_ranked] at present
    obtain ⟨entry, _, rfl⟩ := Option.map_eq_some_iff.mp present
    rfl
  case next =>
    rw [length, MemoryLedger.appendAll, List.length_map]
  case room =>
    refine MemoryLedger.HasRoom.appendAll (room.mono ?_)
    rw [List.length_map, Nat.add_zero]
    exact length_copiedRows_le rows
  case visible =>
    intro row member
    have unmarked := visible row.toEntry (entries ▸ List.mem_map_of_mem member)
    rw [Entry.isVisible, unmarked]
    rfl
  case checked =>
    refine ((MemoryLedger.consistent_of_vacant vacant).appendAll fun entry member => ?_).checked
    exact (Bool.or_eq_false_iff.mp (visible entry member)).1
  case count =>
    rw [length, copied, copiedRows, List.length_map, List.countP_eq_length_filter]

end ImportReport

/-- An import to a consistent ledger with rows is rejected and changes nothing; to a ledger without
rows it has a receipt, if such a ledger has ranks for what is imported. -/
theorem import_receipt (foreignTable : String) (rows : List Row) (catalog : Catalog)
    {target : MemoryLedger} (checked : checkConsistent target.rows = .ok ())
    (room : target.rows = [] → target.HasRoom rows.length) :
    (target.rows ≠ [] →
      (ImportReport.run ⟨foreignTable, .ok rows⟩ catalog : Work MemoryLedger ImportReport) target =
        (.error (.validation (.importOverHistory target.table target.rows.length)), target)) ∧
    (target.rows = [] → ∃ report after,
      (ImportReport.run ⟨foreignTable, .ok rows⟩ catalog : Work MemoryLedger ImportReport) target =
          (.ok report, after) ∧
        ImportReport.Receipt foreignTable rows catalog target report after) := by
  rw [ImportReport.run_eq]
  simp only [checked]
  constructor
  · intro occupied
    rw [if_neg (by simpa using occupied)]
  · intro vacant
    rw [if_pos (by simp [vacant])]
    exact ⟨_, _, rfl, ImportReport.receipt_appendAll foreignTable rows catalog vacant (room vacant)⟩

section Handover

private def handed (kind : Kind) (version : Option Version) (description : String)
    (success : Bool) (rank : Int) : Row :=
  Entry.atRank
    { Entry.ofExecution (.ofProcedure (.repeatable description) {} none) "predecessor"
        (.still ⟨0, 0⟩) success with
      version, kind } rank

private def listOrders : Migration := .ofProcedure (.versioned (.ofMajor 3) "list orders") {} none

/-- A catalog that has a part of what is handed over. -/
def handoverCatalog : Catalog := ⟨[listOrders], by decide⟩

/-- Foreign rows out of order, two of them of one rank. The undo takes back the unit of version 1,
which it calls 1.0.0, and the failed deletion does nothing. -/
def handedRows : List Row :=
  [ handed .undoScript (some ⟨[1, 0, 0], List.cons_ne_nil _ _⟩) "list users" true 4,
    handed .script (some (.ofMajor 1)) "list users" true 2,
    handed .code none "user view" false 2,
    handed .deleted none "user view" false 9,
    handed .baseline (some (.ofMajor 0)) "predecessor" true 1,
    handed .script (some (.ofMajor 3)) "list orders" true 7 ]

/-- A ledger that gives the rank 5 next. -/
def clearedLedger : MemoryLedger where
  rows := []
  nextRank := 5

theorem import_receipt_handover :
    checkConsistent clearedLedger.rows = .ok () ∧ clearedLedger.HasRoom handedRows.length ∧
      clearedLedger.rows = [] ∧
      ∃ report after,
        (ImportReport.run ⟨"old_history", .ok handedRows⟩ handoverCatalog :
          Work MemoryLedger ImportReport) clearedLedger = (.ok report, after) ∧
          ImportReport.Receipt "old_history" handedRows handoverCatalog clearedLedger report after ∧
          report.actions.map (fun action => (action.1.rank, action.2)) =
            [(1, .copiedBaseline), (2, .skippedUndone), (2, .copiedCode), (4, .skippedUndo),
              (7, .copiedScript), (9, .skippedDeleted)] ∧
          report.warnings = [.copiedUnresolved (.repeatable "user view")] ∧
          after.rows.map (·.rank) = [5, 6, 7] := by
  have checked : checkConsistent clearedLedger.rows = .ok () := rfl
  have room : clearedLedger.HasRoom handedRows.length := by decide
  obtain ⟨report, after, ran, receipt⟩ :=
    (import_receipt "old_history" handedRows handoverCatalog checked fun _ => room).2 rfl
  have reported :
      ((ImportReport.run ⟨"old_history", .ok handedRows⟩ handoverCatalog :
        Work MemoryLedger ImportReport) clearedLedger).1.map (fun report =>
          (report.actions.map (fun action => (action.1.rank, action.2)), report.warnings)) =
        .ok ([(1, .copiedBaseline), (2, .skippedUndone), (2, .copiedCode), (4, .skippedUndo),
          (7, .copiedScript), (9, .skippedDeleted)],
          [.copiedUnresolved (.repeatable "user view")]) := by cbv
  have written :
      ((ImportReport.run ⟨"old_history", .ok handedRows⟩ handoverCatalog :
        Work MemoryLedger ImportReport) clearedLedger).2.rows.map (·.rank) = [5, 6, 7] := by cbv
  rw [ran] at reported written
  simp only [Except.map, Except.ok.injEq, Prod.mk.injEq] at reported
  obtain ⟨actions, warnings⟩ := reported
  exact ⟨checked, room, rfl, report, after, ran, receipt, actions, warnings, written⟩

end Handover

end SchemaLedger
