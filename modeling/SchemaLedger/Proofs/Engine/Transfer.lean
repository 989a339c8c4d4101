import SchemaLedger.Proofs.Engine.Answers
import SchemaLedger.Proofs.Engine.Regularity
import SchemaLedger.Proofs.Info.View

/-!
# Transfers

An import reads a deletion marker as the cancellation of the latest earlier row of its identity,
while a repair marks the very row that it deletes. Both readings agree on a regular ledger, where no
visible row comes before a marker of its identity: the markers void nothing, so all visible rows are
copied, and what is copied reconciles with every catalog as the original does.
-/

namespace SchemaLedger

namespace ForeignRow

/-- Nothing is voided where nothing is open. -/
theorem voidFirst_of_forall {identity : Identity} {latestFirst : List ForeignRow} (fate : Fate)
    (closed : ∀ foreign ∈ latestFirst, foreign.isOpenTo identity = false) :
    voidFirst identity fate latestFirst = latestFirst := by
  induction latestFirst with
  | nil => rfl
  | cons foreign rest ih =>
    obtain ⟨here, others⟩ := List.forall_mem_cons.mp closed
    rw [voidFirst, here, ih others]
    rfl

theorem isVisible_of_ofVoided? {marker : Row} {fate : Fate}
    (voids : Fate.ofVoided? marker = some fate) : marker.isVisible = false := by
  cases visible : marker.isVisible with
  | false => rfl
  | true => simp [Fate.ofVoided?, visible] at voids

/-- If no visible row comes before a marker of its identity, no row is voided. -/
theorem foldl_pass_of_pairwise {rows : List Row}
    (markers : rows.Pairwise fun earlier later => later.isVisible = false →
      earlier.isVisible = true → earlier.identity.key ≠ later.identity.key) :
    rows.foldl pass [] = (rows.map fun row => { row }).reverse := by
  induction rows using List.reverseRecOn with
  | nil => rfl
  | append_singleton rows final ih =>
    obtain ⟨before, _, across⟩ := List.pairwise_append.mp markers
    rw [List.foldl_append, ih before, List.map_append, List.reverse_append, List.foldl_cons,
      List.foldl_nil, pass]
    split
    · rename_i fate voids
      have hidden := isVisible_of_ofVoided? voids
      rw [voidFirst_of_forall]
      · rfl
      · intro foreign member
        obtain ⟨row, present, rfl⟩ := List.mem_map.mp (List.mem_reverse.mp member)
        rw [← Bool.not_eq_true, isOpenTo, Bool.and_eq_true, Bool.and_eq_true,
          Identity.beq_iff_key_eq]
        rintro ⟨⟨visible, _⟩, same⟩
        exact across row present final List.mem_cons_self hidden visible same
    · rfl

/-- A row that is not voided is copied exactly if it is visible. -/
theorem isCopy_fate (row : Row) : (fate { row }).isCopy = row.isVisible := by
  simp only [fate, Option.getD_none, Fate.ofCopied, Entry.isVisible]
  cases row.kind <;> rfl

theorem fate_not_voided (row : Row) :
    fate { row } ≠ .skippedUndone ∧ fate { row } ≠ .skippedDeletedTarget := by
  simp only [fate, Option.getD_none, Fate.ofCopied]
  cases row.kind <;> decide

end ForeignRow

namespace ImportReport

variable {rows : List Row}

/-- Every row of a ranked regular ledger keeps the fate that it has by itself. -/
theorem actionsOf_of_regular
    (increasing : rows.Pairwise fun first second => first.rank < second.rank)
    (regular : Regular rows) :
    actionsOf rows = rows.map fun row => (row, ForeignRow.fate { row }) := by
  have sorted : rows.mergeSort (fun first second => decide (first.rank ≤ second.rank)) = rows :=
    List.mergeSort_of_pairwise (increasing.imp fun below => decide_eq_true (Int.le_of_lt below))
  rw [actionsOf, sorted, fates, ForeignRow.foldl_pass_of_pairwise regular.markers,
    List.reverse_reverse, List.map_map]
  have paired : (rows.map fun row => row).zip (rows.map fun row => ForeignRow.fate { row }) =
      rows.map fun row => (row, ForeignRow.fate { row }) := List.zip_map'
  rwa [List.map_id'] at paired

/-- What is copied of such rows are the visible ones. -/
theorem copiedRows_map (rows : List Row) :
    copiedRows (rows.map fun row => (row, ForeignRow.fate { row })) =
      rows.filter (·.isVisible) := by
  simp [copiedRows, List.filter_map, Function.comp_def, ForeignRow.isCopy_fate]

/-- An import of such rows to an empty ledger writes the entries of the visible ones. -/
theorem run_of_regular (foreignTable : String) (catalog : Catalog)
    (increasing : rows.Pairwise fun first second => first.rank < second.rank)
    (regular : Regular rows) {target : MemoryLedger} (empty : target.rows = []) :
    (run ⟨foreignTable, .ok rows⟩ catalog : Work MemoryLedger ImportReport) target =
      (.ok {
          foreignTable
          table := target.table
          actions := rows.map fun row => (row, ForeignRow.fate { row })
          warnings := warningsOn catalog (rows.filter (·.isVisible)) },
        target.appendAll ((rows.filter (·.isVisible)).map Row.toEntry)) := by
  have checked : checkConsistent target.rows = .ok () := by rw [empty]; rfl
  have vacant : target.rows.isEmpty = true := by rw [empty]; rfl
  rw [run_eq]
  simp only [checked, vacant, if_true, actionsOf_of_regular increasing regular, copiedRows_map]

end ImportReport

/-- Rows with the entries of the visible rows reconcile as all rows do, except for ranks. -/
theorem reconcile_unranked_congr {rows copies : List Row} (catalog : Catalog)
    (same : copies.map Row.toEntry = (rows.filter (·.isVisible)).map Row.toEntry) :
    (reconcile catalog copies).map (Info.mapRow Row.unranked) =
      (reconcile catalog rows).map (Info.mapRow Row.unranked) := by
  rw [← reconcile_map Row.faithful_unranked, Row.map_unranked_congr same,
    reconcile_map Row.faithful_unranked, reconcile_filter_isVisible]

theorem Validation.of_unranked_congr {rows copies : List Row} (catalog : Catalog) (config : Config)
    (same : copies.map Row.toEntry = (rows.filter (·.isVisible)).map Row.toEntry) :
    Validation.of catalog copies config = Validation.of catalog rows config := by
  rw [← Validation.of_map Row.faithful_unranked, Row.map_unranked_congr same,
    Validation.of_map Row.faithful_unranked, Validation.of_filter_isVisible]

/-- Engines answer on such rows as they do on all of them. -/
theorem Engine.answers_unranked_congr {ledger copy : MemoryLedger} (engine : Engine)
    (executed : List Migration)
    (checked : checkConsistent ledger.rows = .ok ())
    (verified : checkConsistent copy.rows = .ok ())
    (same : copy.rows.map Row.toEntry = (ledger.rows.filter (·.isVisible)).map Row.toEntry) :
    (engine.validate { store := copy, executed }).1 =
        (engine.validate { store := ledger, executed }).1 ∧
      (engine.info { store := copy, executed }).1.map
          (·.infos.map (Info.mapRow Row.unranked)) =
        (engine.info { store := ledger, executed }).1.map
          (·.infos.map (Info.mapRow Row.unranked)) := by
  have offered : engine.catalogFor copy.rows = engine.catalogFor ledger.rows := by
    rw [catalogFor, catalogFor, checked, verified]
  rw [validate_apply, validate_apply, info_apply, info_apply, offered]
  cases engine.catalogFor ledger.rows with
  | error error => exact ⟨rfl, rfl⟩
  | ok catalog =>
    refine ⟨?_, congrArg Except.ok (reconcile_unranked_congr catalog same)⟩
    exact congrArg Validation.accepted (Validation.of_unranked_congr catalog engine.config same)

/-- A ledger that began empty and to which no foreign ledger was copied can itself be copied to an
empty ledger with ranks for all rows: no row is voided, exactly the rows that are no markers are
written, in their order and with their entries, and the copy reconciles with every catalog as the
original does, except for ranks. Hence engines that get past the check of the original answer alike
on both; it stops them only if an initializer was an undo. -/
theorem transfer_faithful (table : String) (steps : List Step)
    (native : ∀ step ∈ steps, step.IsNative) (foreignTable : String) (importing : Catalog)
    {target : MemoryLedger} (empty : target.rows = [])
    (room : target.HasRoom (performAll steps (.new table)).store.rows.length) :
    let source := (performAll steps (.new table)).store
    ∃ report after, (ImportReport.run ⟨foreignTable, .ok source.rows⟩ importing :
          Work MemoryLedger ImportReport) target = (.ok report, after) ∧
      report.actions.map (·.1) = source.rows ∧
      (∀ action ∈ report.actions,
        action.2 ≠ .skippedUndone ∧ action.2 ≠ .skippedDeletedTarget) ∧
      after.rows.map Row.toEntry = (source.rows.filter (·.isVisible)).map Row.toEntry ∧
      after.Consistent ∧ after.HasRoom 0 ∧
      (∀ catalog,
        (reconcile catalog after.rows).map (Info.mapRow Row.unranked) =
            (reconcile catalog source.rows).map (Info.mapRow Row.unranked) ∧
          ∀ config, Validation.of catalog after.rows config =
            Validation.of catalog source.rows config) ∧
      match checkConsistent source.rows with
      | .ok () => ∀ (engine : Engine) (executed : List Migration),
          (engine.validate { store := after, executed }).1 =
              (engine.validate { store := source, executed }).1 ∧
            (engine.info { store := after, executed }).1.map
                (·.infos.map (Info.mapRow Row.unranked)) =
              (engine.info { store := source, executed }).1.map
                (·.infos.map (Info.mapRow Row.unranked))
      | .error _ => ∃ row, source.rows = [row] ∧ row.kind.isUndo = true := by
  obtain ⟨ranked, regular⟩ := regular_performAll table native
  have sound := consistentOrUndo_performAll table native
  intro source
  have copied : (target.appendAll ((source.rows.filter (·.isVisible)).map Row.toEntry)).rows.map
      Row.toEntry = (source.rows.filter (·.isVisible)).map Row.toEntry := by
    rw [MemoryLedger.rows_appendAll, empty, List.nil_append, Entry.map_toEntry_ranked]
  have settled : (target.appendAll
      ((source.rows.filter (·.isVisible)).map Row.toEntry)).Consistent := by
    refine (MemoryLedger.consistent_of_vacant empty).appendAll fun entry member => ?_
    obtain ⟨row, kept, rfl⟩ := List.mem_map.mp member
    have unmarked : row.kind.isMarker = false := by
      simpa [Entry.isVisible] using (List.mem_filter.mp kept).2
    exact (Bool.or_eq_false_iff.mp unmarked).1
  refine ⟨_, _, ImportReport.run_of_regular foreignTable importing ranked.increasing regular empty,
    ?_, ?_, copied, settled, ?_, ?_, ?_⟩
  · rw [List.map_map]
    exact List.map_id' _
  · intro action listed
    obtain ⟨row, _, rfl⟩ := List.mem_map.mp listed
    exact ForeignRow.fate_not_voided row
  · refine MemoryLedger.HasRoom.appendAll (room.mono ?_)
    rw [List.length_map, Nat.add_zero]
    exact List.length_filter_le ..
  · intro catalog
    exact ⟨reconcile_unranked_congr catalog copied,
      fun config => Validation.of_unranked_congr catalog config copied⟩
  · cases checked : checkConsistent source.rows with
    | ok _ =>
      intro engine executed
      exact engine.answers_unranked_congr executed checked settled.checked copied
    | error error =>
      exact sound.resolve_left fun consistent => by cases consistent.checked.symm.trans checked

section Withdrawal

theorem transfer_faithful_withdrawal :
    (∀ step ∈ withdrawal, step.IsNative) ∧ (MemoryLedger.empty "audited").rows = [] ∧
      (MemoryLedger.empty "audited").HasRoom withdrawnLedger.rows.length ∧
      withdrawnLedger.rows.map (·.kind) = [.baseline, .code, .deleted, .code] ∧
      withdrawnLedger.rows.map (·.elapsed) = [0, 5, 5, 5] ∧
      ∃ report after, (ImportReport.run ⟨defaultTable, .ok withdrawnLedger.rows⟩ .empty :
            Work MemoryLedger ImportReport) (.empty "audited") = (.ok report, after) ∧
        report.actions.map (·.1) = withdrawnLedger.rows ∧
        (∀ action ∈ report.actions,
          action.2 ≠ .skippedUndone ∧ action.2 ≠ .skippedDeletedTarget) ∧
        after.rows.map Row.toEntry =
          (withdrawnLedger.rows.filter (·.isVisible)).map Row.toEntry ∧
        after.Consistent ∧ after.HasRoom 0 ∧
        (∀ catalog,
          (reconcile catalog after.rows).map (Info.mapRow Row.unranked) =
              (reconcile catalog withdrawnLedger.rows).map (Info.mapRow Row.unranked) ∧
            ∀ config, Validation.of catalog after.rows config =
              Validation.of catalog withdrawnLedger.rows config) ∧
        ∀ (engine : Engine) (executed : List Migration),
          (engine.validate { store := after, executed }).1 =
              (engine.validate { store := withdrawnLedger, executed }).1 ∧
            (engine.info { store := after, executed }).1.map
                (·.infos.map (Info.mapRow Row.unranked)) =
              (engine.info { store := withdrawnLedger, executed }).1.map
                (·.infos.map (Info.mapRow Row.unranked)) := by
  have four : withdrawnLedger.rows.length = 4 := by cbv
  have room : (MemoryLedger.empty "audited").HasRoom withdrawnLedger.rows.length := by
    rw [four]
    decide
  have faithful := transfer_faithful defaultTable withdrawal isNative_of_mem_withdrawal defaultTable
    .empty (rfl : (MemoryLedger.empty "audited").rows = []) room
  have checked : checkConsistent withdrawnLedger.rows = .ok () := by cbv
  rw [← withdrawnLedger] at faithful
  simp only [checked] at faithful
  exact ⟨isNative_of_mem_withdrawal, rfl, room, by cbv, by cbv, faithful⟩

end Withdrawal

end SchemaLedger
