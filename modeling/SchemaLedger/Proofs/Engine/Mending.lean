import Mathlib
import SchemaLedger.Proofs.Engine.Repair

/-!
# Repairs row by row

`Mends` says what is left of a row after a repair in terms of the row and of the units alone, and
leaves no choice: `mends_iff` says that a disposition leaves of a row what `Mends` says and nothing
else. A repair walks through the rows as they were while it changes the ledger under them; still it
comes to treating every row by itself, and its report tells from what is left of a row what was done
to it. What it leaves needs no repair, so a second one changes nothing.
-/

namespace SchemaLedger

/-- What a repair leaves of a row, if anything. -/
inductive Mends (catalog : Catalog) (row : Row) : Option Row → Prop where
  /-- A marker stays as it is, whether it succeeded or not. -/
  | marker (marker : row.kind.isMarker = true) : Mends catalog row (some row)
  /-- A failed row goes. -/
  | failed (native : row.kind.isMarker = false) (failure : row.success = false) :
      Mends catalog row none
  /-- A baseline without an initializer stays as it is. -/
  | baseline (success : row.success = true) (kind : row.kind = .baseline) :
      Mends catalog row (some row)
  /-- A versioned row takes over the checksum of its unit. -/
  | versioned {unit : Migration} (native : row.kind.isMarker = false) (success : row.success = true)
      (kind : row.kind ≠ .baseline) (member : unit ∈ catalog.migrations)
      (same : unit.identity.key = row.identity.key) (versioned : row.version.isSome = true) :
      Mends catalog row (some { row with checksum := unit.checksum })
  /-- A repeatable row of a unit stays as it is. -/
  | repeatable {unit : Migration} (native : row.kind.isMarker = false)
      (success : row.success = true) (kind : row.kind ≠ .baseline)
      (member : unit ∈ catalog.migrations) (same : unit.identity.key = row.identity.key)
      (repeatable : row.version = none) : Mends catalog row (some row)
  /-- An initializer whose unit is gone stays as it is. -/
  | initializer (success : row.success = true)
      (kind : row.kind = .scriptBaseline ∨ row.kind = .codeBaseline)
      (gone : ∀ unit ∈ catalog.migrations, unit.identity.key ≠ row.identity.key) :
      Mends catalog row (some row)
  /-- Another row whose unit is gone is marked deleted. -/
  | deleted (native : row.kind.isMarker = false) (success : row.success = true)
      (plain : row.kind.isBaseline = false)
      (gone : ∀ unit ∈ catalog.migrations, unit.identity.key ≠ row.identity.key)
      (within : ¬ AboveCatalog catalog row.version) :
      Mends catalog row (some { row with kind := .deleted })
  /-- It stays as it is if it is newer than the catalog. -/
  | newer (native : row.kind.isMarker = false) (success : row.success = true)
      (plain : row.kind.isBaseline = false)
      (gone : ∀ unit ∈ catalog.migrations, unit.identity.key ≠ row.identity.key)
      (above : AboveCatalog catalog row.version) : Mends catalog row (some row)

section Mending

variable {catalog : Catalog} {row left : Row} {result : Option Row}

namespace Disposition

theorem isWithinCatalog_eq_true_iff :
    isWithinCatalog catalog row = true ↔ ¬ AboveCatalog catalog row.version := by
  rw [isWithinCatalog_eq, Bool.not_eq_true', ← Bool.not_eq_true, isAbove_iff]

theorem mends_apply (catalog : Catalog) (row : Row) :
    Mends catalog row ((Disposition.of catalog row).apply row) := by
  cases native : row.kind.isMarker with
  | true => simpa [Disposition.of, native, apply] using Mends.marker native
  | false =>
    cases success : row.success with
    | false => simpa [Disposition.of, native, success, apply] using Mends.failed native success
    | true =>
      by_cases kind : row.kind = .baseline
      · have keeps : Disposition.of catalog row = .keep := by
          simp [Disposition.of, success, kind, Kind.isMarker, Kind.isUndo]
        rw [keeps]
        exact .baseline success kind
      · have settled := settled_apply catalog row
        generalize (Disposition.of catalog row).apply row = result at settled ⊢
        cases settled with
        | marker invisible => simp [Entry.isVisible, native] at invisible
        | failed visible failure => simp [success] at failure
        | baseline _ pure => exact absurd pure kind
        | versioned visible _ unit found versioned =>
          obtain ⟨member, same⟩ := Catalog.find?_eq_some_iff.mp found
          exact .versioned native success kind member same versioned
        | repeatable visible _ unit found unversioned =>
          obtain ⟨member, same⟩ := Catalog.find?_eq_some_iff.mp found
          exact .repeatable native success kind member same
            (by simpa [Entry.isVersioned] using unversioned)
        | initializer _ gone establishes =>
          refine .initializer success ?_ (Catalog.find?_eq_none_iff.mp gone)
          revert establishes kind
          cases row.kind <;> simp [Kind.isBaseline]
        | deleted visible _ gone plain within =>
          exact .deleted native success plain (Catalog.find?_eq_none_iff.mp gone)
            (isWithinCatalog_eq_true_iff.mp within)
        | newer visible _ gone plain beyond =>
          refine .newer native success plain (Catalog.find?_eq_none_iff.mp gone) ?_
          by_contra within
          rw [isWithinCatalog_eq_true_iff.mpr within] at beyond
          cases beyond

theorem apply_eq_of_mends (mends : Mends catalog row result) :
    (Disposition.of catalog row).apply row = result := by
  cases mends with
  | marker marker => simp [Disposition.of, marker, apply]
  | failed native failure => simp [Disposition.of, native, failure, apply]
  | baseline success kind =>
    simp [Disposition.of, success, kind, Kind.isMarker, Kind.isUndo, apply]
  | @versioned unit native success kind member same versioned =>
    have found := Catalog.find?_eq_some_iff.mpr ⟨member, same⟩
    by_cases agrees : row.checksum = unit.checksum
    · have keeps : Disposition.of catalog row = .keep := by
        simp [Disposition.of, native, success, kind, found, agrees]
      rw [keeps, ← agrees]
      rfl
    · simp [Disposition.of, native, success, kind, found, Entry.isVersioned, versioned, agrees,
        apply, Update.apply, Update.ofChecksum]
  | repeatable native success kind member same repeatable =>
    have found := Catalog.find?_eq_some_iff.mpr ⟨member, same⟩
    simp [Disposition.of, native, success, kind, found, Entry.isVersioned, repeatable, apply]
  | initializer success kind gone =>
    have absent := Catalog.find?_eq_none_iff.mpr gone
    rcases kind with kind | kind <;>
      simp [Disposition.of, success, kind, absent, Kind.isMarker, Kind.isUndo, Kind.isBaseline,
        apply]
  | deleted native success plain gone within =>
    have absent := Catalog.find?_eq_none_iff.mpr gone
    have impure : row.kind ≠ .baseline := fun kind => by simp [kind, Kind.isBaseline] at plain
    simp [Disposition.of, native, success, impure, absent, plain,
      isWithinCatalog_eq_true_iff.mpr within, apply, Update.apply, Update.markDeleted]
  | newer native success plain gone above =>
    have absent := Catalog.find?_eq_none_iff.mpr gone
    have impure : row.kind ≠ .baseline := fun kind => by simp [kind, Kind.isBaseline] at plain
    have beyond : isWithinCatalog catalog row = false := by
      rw [← Bool.not_eq_true, isWithinCatalog_eq_true_iff, not_not]
      exact above
    simp [Disposition.of, native, success, impure, absent, beyond, apply]

/-- Markers are not touched. -/
theorem of_eq_keep_of_isMarker (marker : row.kind.isMarker = true) :
    Disposition.of catalog row = .keep := by
  simp [Disposition.of, marker]

/-- A row takes over a checksum only if it has another one. -/
theorem checksum_ne_of_eq_align {checksum : Option Checksum}
    (aligns : Disposition.of catalog row = .align checksum) : checksum ≠ row.checksum := by
  unfold Disposition.of at aligns
  repeat' split at aligns
  all_goals cases aligns
  rename_i differs
  have changed := (Bool.and_eq_true_iff.mp differs).2
  exact (bne_iff_ne.mp changed).symm

/-- A row that is not kept does not stay as it is. -/
theorem apply_eq_some_self_iff :
    (Disposition.of catalog row).apply row = some row ↔ Disposition.of catalog row = .keep := by
  constructor
  · intro same
    cases disposition : Disposition.of catalog row with
    | keep => rfl
    | remove => simp [disposition, apply] at same
    | markDeleted =>
      rw [disposition] at same
      have kind : row.kind = .deleted := (congrArg (·.kind) (Option.some.inj same)).symm
      cases disposition.symm.trans (of_eq_keep_of_isMarker (by rw [kind]; rfl))
    | align checksum =>
      rw [disposition] at same
      exact absurd (congrArg (·.checksum) (Option.some.inj same))
        (checksum_ne_of_eq_align disposition)
  · intro keeps
    rw [keeps]
    rfl

end Disposition

theorem mends_iff :
    (Disposition.of catalog row).apply row = result ↔ Mends catalog row result :=
  ⟨fun same => same ▸ Disposition.mends_apply catalog row, Disposition.apply_eq_of_mends⟩

/-- What is left of a row needs no repair. -/
theorem Mends.again (mends : Mends catalog row (some left)) : Mends catalog left (some left) := by
  cases mends with
  | marker marker => exact .marker marker
  | baseline success kind => exact .baseline success kind
  | versioned native success kind member same versioned =>
    -- The checksum that the row takes over is the one it has taken over already.
    exact @Mends.versioned catalog { row with checksum := _ } _ native success kind member same
      versioned
  | repeatable native success kind member same repeatable =>
    exact .repeatable native success kind member same repeatable
  | initializer success kind gone => exact .initializer success kind gone
  | deleted native success plain gone within => exact .marker rfl
  | newer native success plain gone above => exact .newer native success plain gone above

namespace RepairReport

/-- The report tells from what is left of a row what was done to it. -/
theorem of_eq (catalog : Catalog) (rows : List Row) :
    RepairReport.of catalog rows =
      { removed := rows.filter fun row => ((Disposition.of catalog row).apply row).isNone
        deleted := rows.filter fun row =>
          ((Disposition.of catalog row).apply row).any (·.kind != row.kind)
        aligned := rows.filter fun row =>
          ((Disposition.of catalog row).apply row).any (·.checksum != row.checksum) } := by
  rw [RepairReport.of, RepairReport.mk.injEq]
  refine ⟨List.filter_congr ?_, List.filter_congr ?_, List.filter_congr ?_⟩
  · intro row _
    cases Disposition.of catalog row <;> rfl
  · intro row _
    cases disposition : Disposition.of catalog row with
    | keep => simp [Disposition.apply]
    | remove => rfl
    | align checksum => simp [Disposition.apply, Update.apply, Update.ofChecksum]
    | markDeleted =>
      have native : row.kind ≠ .deleted := by
        intro kind
        have keeps : Disposition.of catalog row = .keep :=
          Disposition.of_eq_keep_of_isMarker (by rw [kind]; rfl)
        cases disposition.symm.trans keeps
      simp [Disposition.apply, Update.apply, Update.markDeleted, native.symm]
  · intro row _
    cases disposition : Disposition.of catalog row with
    | keep => simp [Disposition.apply]
    | remove => rfl
    | markDeleted => simp [Disposition.apply, Update.apply, Update.markDeleted]
    | align checksum =>
      have differs := Disposition.checksum_ne_of_eq_align disposition
      simp [Disposition.apply, Update.apply, Update.ofChecksum, differs]

/-- Of rows with different ranks those that are kept, and no others, are there after a repair. -/
theorem mem_settledRows_iff_of_mem {rows : List Row}
    (increasing : rows.Pairwise fun first second => first.rank < second.rank)
    (member : row ∈ rows) :
    row ∈ settledRows catalog rows ↔ Disposition.of catalog row = .keep := by
  rw [mem_settledRows, ← Disposition.apply_eq_some_self_iff]
  constructor
  · rintro ⟨other, present, stays⟩
    have ranks : (rows.map (·.rank)).Nodup :=
      List.pairwise_map.mpr (increasing.imp Int.ne_of_lt)
    have same := List.inj_on_of_nodup_map ranks present member
      (Disposition.rank_eq_of_apply_eq_some stays).symm
    rwa [same] at stays
  · exact fun stays => ⟨row, member, stays⟩

/-- What is left after a repair is left as it is by another. -/
theorem apply_of_mem_settledRows {rows : List Row} (member : left ∈ settledRows catalog rows) :
    (Disposition.of catalog left).apply left = some left := by
  obtain ⟨row, _, stays⟩ := mem_settledRows.mp member
  exact mends_iff.mpr (mends_iff.mp stays).again

theorem settledRows_settledRows (catalog : Catalog) (rows : List Row) :
    settledRows catalog (settledRows catalog rows) = settledRows catalog rows := by
  have same : settledRows catalog (settledRows catalog rows) =
      (settledRows catalog rows).filterMap some :=
    List.filterMap_congr fun left member => apply_of_mem_settledRows member
  rw [same, List.filterMap_some]

/-- Another repair has nothing to report. -/
theorem of_settledRows (catalog : Catalog) (rows : List Row) :
    RepairReport.of catalog (settledRows catalog rows) = {} := by
  rw [of_eq, RepairReport.mk.injEq]
  refine ⟨?_, ?_, ?_⟩ <;>
  · rw [List.filter_eq_nil_iff]
    intro left member
    simp [apply_of_mem_settledRows member]

end RepairReport

end Mending

/-- A repair of a consistent ledger leaves of every row what there is to be left of it, in the order
of the rows, and reports the rows that are gone, those of another kind than before and those of
another checksum than before, as they were and in the order of ranks. -/
theorem repair_mends_rows (catalog : Catalog) {ledger : MemoryLedger}
    (checked : checkConsistent ledger.rows = .ok ()) :
    ∃ (mend : Row → Option Row) (report : RepairReport),
      (∀ row result, mend row = result ↔ Mends catalog row result) ∧
        (RepairReport.run catalog : Work MemoryLedger RepairReport) ledger =
          (.ok report, { ledger with rows := ledger.rows.filterMap mend }) ∧
        report.removed = ledger.rows.filter (fun row => (mend row).isNone) ∧
        report.deleted = ledger.rows.filter (fun row => (mend row).any (·.kind != row.kind)) ∧
        report.aligned =
          ledger.rows.filter (fun row => (mend row).any (·.checksum != row.checksum)) ∧
        ∀ touched ∈ [report.removed, report.deleted, report.aligned],
          touched.Pairwise fun first second => first.rank < second.rank := by
  obtain ⟨increasing, _⟩ := checkConsistent_eq_ok_iff.mp checked
  have report := RepairReport.of_eq catalog ledger.rows
  refine ⟨fun row => (Disposition.of catalog row).apply row, _, fun row result => mends_iff,
    RepairReport.run_eq catalog checked, congrArg RepairReport.removed report,
    congrArg RepairReport.deleted report, congrArg RepairReport.aligned report, ?_⟩
  intro touched member
  simp only [List.mem_cons, List.not_mem_nil, or_false] at member
  rcases member with rfl | rfl | rfl <;> exact increasing.filter _

section Archive

private def signUps : Migration :=
  .ofProcedure (.versioned (.ofMajor 4) "sign ups") {} (some (.ofInt 44))

private def reportView : Migration := .ofProcedure (.repeatable "report view") {} (some (.ofInt 90))

private def archived (kind : Kind) (version : Option Version) (description : String)
    (success : Bool) (rank : Int) : Row :=
  Entry.atRank
    { Entry.ofExecution signUps "archivist" (.still ⟨0, 0⟩) success with
      version, description, kind, checksum := some (.ofInt rank) } rank

def archiveCatalog : Catalog := ⟨[reportView, signUps], by decide⟩

/-- A ledger with a row of every sort that a repair tells apart. -/
def archiveLedger : MemoryLedger where
  rows :=
    [ archived .deleted (some (.ofMajor 1)) "old marker" false 1,
      archived .baseline (some (.ofMajor 1)) "floor" true 2,
      archived .codeBaseline (some (.ofMajor 2)) "initializer" true 4,
      archived .code (some (.ofMajor 3)) "gone" true 5,
      archived .code (some (.ofMajor 4)) "sign ups" false 7,
      archived .code (some (.ofMajor 4)) "sign ups" true 8,
      archived .code none "report view" true 9,
      archived .code none "gone view" true 12,
      archived .code (some (.ofMajor 5)) "newer" true 13 ]
  nextRank := 14

theorem repair_mends_rows_archiveLedger :
    checkConsistent archiveLedger.rows = .ok () ∧
      ∃ (mend : Row → Option Row) (report : RepairReport),
        (∀ row result, mend row = result ↔ Mends archiveCatalog row result) ∧
          (RepairReport.run archiveCatalog : Work MemoryLedger RepairReport) archiveLedger =
            (.ok report, { archiveLedger with rows := archiveLedger.rows.filterMap mend }) ∧
          (archiveLedger.rows.filterMap mend).map (fun row => (row.rank, row.kind)) =
            [(1, .deleted), (2, .baseline), (4, .codeBaseline), (5, .deleted), (8, .code),
              (9, .code), (12, .deleted), (13, .code)] ∧
          report.removed.map (·.rank) = [7] ∧ report.deleted.map (·.rank) = [5, 12] ∧
          report.aligned.map (·.rank) = [8] := by
  have checked : checkConsistent archiveLedger.rows = .ok () := rfl
  obtain ⟨mend, report, mends, ran, _⟩ := repair_mends_rows archiveCatalog checked
  have left :
      ((RepairReport.run archiveCatalog : Work MemoryLedger RepairReport) archiveLedger).2.rows.map
          (fun row => (row.rank, row.kind)) =
        [(1, .deleted), (2, .baseline), (4, .codeBaseline), (5, .deleted), (8, .code),
          (9, .code), (12, .deleted), (13, .code)] := by cbv
  have reported :
      ((RepairReport.run archiveCatalog : Work MemoryLedger RepairReport) archiveLedger).1.map
          (fun report => (report.removed.map (·.rank), report.deleted.map (·.rank),
            report.aligned.map (·.rank))) = .ok ([7], [5, 12], [8]) := by cbv
  rw [ran] at left reported
  simp only [Except.map, Except.ok.injEq, Prod.mk.injEq] at reported
  exact ⟨checked, mend, report, mends, ran, left, reported⟩

end Archive

/-- A repair of a consistent ledger leaves a ledger that another repair with the same catalog leaves
as it is, with nothing to report. -/
theorem repair_idempotent (catalog : Catalog) {ledger : MemoryLedger}
    (checked : checkConsistent ledger.rows = .ok ()) :
    ∃ report after,
      (RepairReport.run catalog : Work MemoryLedger RepairReport) ledger = (.ok report, after) ∧
        (RepairReport.run catalog : Work MemoryLedger RepairReport) after = (.ok {}, after) := by
  refine ⟨_, _, RepairReport.run_eq catalog checked, ?_⟩
  have verified := RepairReport.checkConsistent_settledRows catalog checked
  have again :
      (RepairReport.run catalog : Work MemoryLedger RepairReport)
          { ledger with rows := RepairReport.settledRows catalog ledger.rows } = _ :=
    RepairReport.run_eq catalog verified
  rw [RepairReport.of_settledRows, RepairReport.settledRows_settledRows] at again
  exact again

theorem repair_idempotent_archiveLedger :
    checkConsistent archiveLedger.rows = .ok () ∧
      ∃ report after,
        (RepairReport.run archiveCatalog : Work MemoryLedger RepairReport) archiveLedger =
            (.ok report, after) ∧
          report.isEmpty = false ∧
          (RepairReport.run archiveCatalog : Work MemoryLedger RepairReport) after =
            (.ok {}, after) := by
  have checked : checkConsistent archiveLedger.rows = .ok () := rfl
  obtain ⟨report, after, ran, again⟩ := repair_idempotent archiveCatalog checked
  have reported :
      ((RepairReport.run archiveCatalog : Work MemoryLedger RepairReport) archiveLedger).1.map
        RepairReport.isEmpty = .ok false := by cbv
  rw [ran] at reported
  exact ⟨checked, report, after, ran, Except.ok.inj reported, again⟩

end SchemaLedger
