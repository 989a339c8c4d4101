import SchemaLedger.Proofs.Engine.Mending
import SchemaLedger.Proofs.Engine.Regularity

/-!
# What a repair touches and what validation blames

A repair looks at every row, validation at the last visible rows, of which it passes over those that
a baseline covers. On a regular ledger the two still speak of the same identities: each row that a
repair does not keep is the last of its identity, or that last row is not kept either, and nothing
that validation passes over would be touched. What validation finds calls for a repair if it is a
failure, a missing unit or a checksum that differs, also where a difference in kind hides that one.
-/

namespace SchemaLedger

def RepairReport.touched (report : RepairReport) : List Row :=
  report.removed ++ report.deleted ++ report.aligned

/-- A repair has something to do about the issue. Of a mismatch of kinds that is the checksum of a
versioned row. -/
def Issue.callsForRepair (catalog : Catalog) (rows : List Row) : Issue → Bool
  | failed _ | missing _ | checksumMismatch _ _ _ => true
  | typeMismatch identity _ _ =>
      identity.version?.isSome &&
        (lastVisible? rows identity).map (·.checksum) !=
          (catalog.find? identity).map (·.checksum)
  | future _ | outOfOrder _ _ => false

section Touched

variable {catalog : Catalog} {rows : List Row} {row : Row} {unit : Migration}

theorem RepairReport.mem_touched_iff :
    row ∈ (RepairReport.of catalog rows).touched ↔
      row ∈ rows ∧ Disposition.of catalog row ≠ .keep := by
  simp only [touched, RepairReport.of, List.mem_append, List.mem_filter]
  cases Disposition.of catalog row <;> simp

theorem RepairReport.isEmpty_iff {report : RepairReport} :
    report.isEmpty = true ↔ report.touched = [] := by
  simp [isEmpty, touched, and_assoc]

namespace Disposition

/-- Markers are kept. -/
theorem isVisible_of_touched (touched : Disposition.of catalog row ≠ .keep) :
    row.isVisible = true := by
  cases visible : row.isVisible with
  | true => rfl
  | false =>
    have marker : row.kind.isMarker = true := by simpa [Entry.isVisible] using visible
    simp [Disposition.of, marker] at touched

/-- A visible row of a unit is touched if it failed or lacks the checksum of a versioned unit. -/
theorem touched_iff_of_found (visible : row.isVisible = true)
    (found : catalog.find? row.identity = some unit) :
    Disposition.of catalog row ≠ .keep ↔
      row.success = false ∨ row.isVersioned = true ∧ Info.drifted unit row = true := by
  have native : row.kind.isMarker = false := by simpa [Entry.isVisible] using visible
  simp only [Disposition.of, native, found, Info.drifted]
  cases row.success with
  | false => simp
  | true =>
    by_cases pure : row.kind = .baseline
    · simp [pure]
    · cases row.isVersioned <;> simp [pure]

/-- A visible row without a unit is touched if it failed or is neither a baseline nor newer than the
catalog. -/
theorem touched_iff_of_gone (visible : row.isVisible = true)
    (gone : catalog.find? row.identity = none) :
    Disposition.of catalog row ≠ .keep ↔
      row.success = false ∨
        row.kind.isBaseline = false ∧ isAbove catalog.highestVersion? row.version = false := by
  have native : row.kind.isMarker = false := by simpa [Entry.isVisible] using visible
  simp only [Disposition.of, native, gone, isWithinCatalog_eq]
  cases row.success with
  | false => simp
  | true =>
    by_cases pure : row.kind = .baseline
    · simp [pure, Kind.isBaseline]
    · simp [pure]

end Disposition

/-- If a repair touches a row, it touches the last visible row of the identity. -/
theorem Regular.exists_touched_iff (regular : Regular rows) (catalog : Catalog)
    (identity : Identity) :
    (∃ row ∈ rows, Disposition.of catalog row ≠ .keep ∧ row.identity.key = identity.key) ↔
      ∃ row, lastVisible? rows identity = some row ∧ Disposition.of catalog row ≠ .keep := by
  constructor
  · rintro ⟨row, member, touched, same⟩
    have visible := Disposition.isVisible_of_touched touched
    rw [← lastVisible?_congr same]
    cases success : row.success with
    | false => exact ⟨row, regular.failures row member visible success, touched⟩
    | true =>
      cases versioned : row.isVersioned with
      | true => exact ⟨row, regular.once.lastVisible?_eq_some member visible versioned, touched⟩
      | false =>
        obtain ⟨other, last⟩ := exists_lastVisible? member visible
        have key := key_eq_of_lastVisible?_eq_some last
        have unversioned := (Entry.isVersioned_eq_of_key_eq key).trans versioned
        -- A successful repeatable row is touched only if its unit is gone.
        have gone : catalog.find? other.identity = none := by
          rw [Catalog.find?_congr key]
          cases found : catalog.find? row.identity with
          | none => rfl
          | some unit => simp [Disposition.touched_iff_of_found visible found, success,
              versioned] at touched
        have repeatable : other.version = none := by simpa [Entry.isVersioned] using unversioned
        have plain := regular.repeatables other (mem_of_lastVisible?_eq_some last) unversioned
        refine ⟨other, last, (Disposition.touched_iff_of_gone
          (isVisible_of_lastVisible?_eq_some last) gone).mpr (.inr ⟨plain, ?_⟩)⟩
        simp [repeatable, isAbove]
  · rintro ⟨row, last, touched⟩
    exact ⟨row, mem_of_lastVisible?_eq_some last, touched, key_eq_of_lastVisible?_eq_some last⟩

end Touched

section Blamed

variable {catalog : Catalog} {config : Config} {rows : List Row} {row : Row} {unit : Migration}
  {highest floor : Option Version} {info : Info} {issue : Issue}

/-- Some issue of the info calls for a repair. -/
def Info.IsBlamed (catalog : Catalog) (config : Config) (rows : List Row) (info : Info) : Prop :=
  ∃ issue, Issue.ofInfo? config (highestApplied? rows) info = some issue ∧
    issue.callsForRepair catalog rows = true

/-- An issue is about what the info is about. -/
theorem Issue.identity_of_ofInfo? (found : ofInfo? config highest info = some issue) :
    issue.identity = info.identity := by
  unfold ofInfo? ofMissing? ofPending? betweenRowAndUnit? at found
  repeat' split at found
  all_goals first | cases found; rfl | cases found

namespace Info

/-- A unit without a row is at most out of order. -/
theorem not_isBlamed_ofUnapplied :
    ¬ (ofUnapplied floor unit).IsBlamed catalog config rows := by
  rintro ⟨issue, found, calls⟩
  rw [issue_ofUnapplied] at found
  unfold Issue.ofPending? at found
  repeat' split at found
  all_goals cases found
  cases calls

theorem isBlamed_ofApplied_iff (member : unit ∈ catalog.migrations)
    (last : lastVisible? rows unit.identity = some row) :
    (ofApplied unit row).IsBlamed catalog config rows ↔ Disposition.of catalog row ≠ .keep := by
  have key := key_eq_of_lastVisible?_eq_some last
  have found := Catalog.find?_eq_some_iff.mpr ⟨member, rfl⟩
  rw [Disposition.touched_iff_of_found (isVisible_of_lastVisible?_eq_some last)
    ((Catalog.find?_congr key).trans found), ← Migration.isVersioned_eq_of_key_eq key.symm]
  have identity : (ofApplied unit row).identity = unit.identity := by
    simp [Info.identity, Subject.identity]
  simp only [IsBlamed, issue_ofApplied, Issue.betweenRowAndUnit?]
  cases success : row.success with
  | false => simp [Issue.callsForRepair]
  | true =>
    rw [checksumMismatch_ofApplied success, identity]
    by_cases disagrees : (row.kind != .baseline && !row.kind.isCompatibleWith unit.kind) = true
    · have impure : row.kind ≠ .baseline := by simpa using (Bool.and_eq_true_iff.mp disagrees).1
      simp [disagrees, Issue.callsForRepair, last, found, drifted, impure, Migration.isVersioned]
    · cases drift : drifted unit row <;> cases versioned : unit.isVersioned <;>
        simp [disagrees, Issue.callsForRepair]

theorem isBlamed_ofUnresolved_iff (overlooks : config.ignoreMissing = false)
    (uncovered : row.isEffectiveBaseline = false → isCovered floor row.version = false)
    (visible : row.isVisible = true) (gone : catalog.find? row.identity = none) :
    (∃ info, ofUnresolved? floor catalog.highestVersion? row = some info ∧
        info.IsBlamed catalog config rows) ↔ Disposition.of catalog row ≠ .keep := by
  rw [Disposition.touched_iff_of_gone visible gone]
  unfold ofUnresolved?
  cases establishes : row.isEffectiveBaseline with
  | true =>
    obtain ⟨success, kind⟩ := Bool.and_eq_true_iff.mp establishes
    simp [IsBlamed, Issue.ofInfo?, hasFailed, row?, Subject.row?, success, kind]
  | false =>
    cases success : row.success with
    | false =>
      simp [uncovered establishes, IsBlamed, Issue.ofInfo?, hasFailed, row?, Subject.row?, success,
        Issue.callsForRepair]
    | true =>
      have plain : row.kind.isBaseline = false := by
        simpa [Entry.isEffectiveBaseline, success] using establishes
      cases isAbove catalog.highestVersion? row.version <;> cases future : config.ignoreFuture <;>
        simp [uncovered establishes, IsBlamed, Issue.ofInfo?, Issue.ofMissing?, hasFailed, row?,
          Subject.row?, success, plain, overlooks, future, Issue.callsForRepair]

end Info

/-- On a regular ledger validation blames an identity exactly if a repair touches its last visible
row. -/
theorem Regular.exists_blamed_iff (regular : Regular rows) (catalog : Catalog)
    (overlooks : config.ignoreMissing = false) (identity : Identity) :
    (∃ issue ∈ (Validation.of catalog rows config).issues,
        issue.callsForRepair catalog rows = true ∧ issue.identity.key = identity.key) ↔
      ∃ row, lastVisible? rows identity = some row ∧ Disposition.of catalog row ≠ .keep := by
  have uncovered {row : Row} (last : lastVisible? rows row.identity = some row) :=
    regular.uncovered row (mem_of_lastVisible?_eq_some last)
      (isVisible_of_lastVisible?_eq_some last)
  constructor
  · rintro ⟨issue, listed, calls, same⟩
    obtain ⟨info, member, found⟩ := List.mem_filterMap.mp listed
    have blamed : info.IsBlamed catalog config rows := ⟨issue, found, calls⟩
    rw [Issue.identity_of_ofInfo? found] at same
    rw [← lastVisible?_congr same]
    rcases mem_reconcile_iff.mp member with ⟨unit, offered, rfl⟩ | ⟨row, last, gone, about⟩
    · rw [Info.identity_ofMigration]
      rw [Info.ofMigration_latestRows] at blamed
      cases last : lastVisible? rows unit.identity with
      | none => rw [last] at blamed; exact absurd blamed Info.not_isBlamed_ofUnapplied
      | some row =>
        rw [last] at blamed
        exact ⟨row, rfl, (Info.isBlamed_ofApplied_iff offered last).mp blamed⟩
    · rw [Info.identity_of_ofUnresolved? about]
      exact ⟨row, last, (Info.isBlamed_ofUnresolved_iff overlooks (uncovered last)
        (isVisible_of_lastVisible?_eq_some last) gone).mp ⟨info, about, blamed⟩⟩
  · rintro ⟨row, last, touched⟩
    have same := key_eq_of_lastVisible?_eq_some last
    have raised {info : Info} (member : info ∈ reconcile catalog rows)
        (blamed : info.IsBlamed catalog config rows) (about : info.identity.key = identity.key) :
        ∃ issue ∈ (Validation.of catalog rows config).issues,
          issue.callsForRepair catalog rows = true ∧ issue.identity.key = identity.key := by
      obtain ⟨issue, found, calls⟩ := blamed
      exact ⟨issue, List.mem_filterMap.mpr ⟨info, member, found⟩, calls,
        Issue.identity_of_ofInfo? found ▸ about⟩
    cases found : catalog.find? row.identity with
    | some unit =>
      obtain ⟨offered, key⟩ := Catalog.find?_eq_some_iff.mp found
      have here : lastVisible? rows unit.identity = some row := by
        rw [lastVisible?_congr (key.trans same), last]
      refine raised (mem_reconcile_iff.mpr (.inl ⟨unit, offered, rfl⟩)) ?_ ?_
      · rw [Info.ofMigration_latestRows, here]
        exact (Info.isBlamed_ofApplied_iff offered here).mpr touched
      · rw [Info.identity_ofMigration, key, same]
    | none =>
      have here : lastVisible? rows row.identity = some row := by rw [lastVisible?_congr same, last]
      obtain ⟨info, about, blamed⟩ := (Info.isBlamed_ofUnresolved_iff overlooks (uncovered here)
        (isVisible_of_lastVisible?_eq_some here) found).mpr touched
      refine raised (mem_reconcile_iff.mpr (.inr ⟨row, here, found, about⟩)) blamed ?_
      rw [Info.identity_of_ofUnresolved? about, same]

end Blamed

/-- Validation finds something about the identity that calls for a repair. -/
def Blamed (catalog : Catalog) (config : Config) (rows : List Row) (identity : Identity) : Prop :=
  ∃ issue ∈ (Validation.of catalog rows config).issues, issue.callsForRepair catalog rows ∧
    issue.identity == identity

theorem Regular.exists_changed_iff {catalog : Catalog} {config : Config} {rows : List Row}
    (regular : Regular rows)
    (increasing : rows.Pairwise fun first second => first.rank < second.rank)
    (overlooks : config.ignoreMissing = false) (identity : Identity) :
    (∃ row ∈ rows, row ∉ RepairReport.settledRows catalog rows ∧ row.identity == identity) ↔
      Blamed catalog config rows identity := by
  simp only [Blamed, Identity.beq_iff_key_eq]
  rw [regular.exists_blamed_iff catalog overlooks, ← regular.exists_touched_iff]
  refine exists_congr fun row => and_congr_right fun member => and_congr_left fun _ => ?_
  exact not_congr (RepairReport.mem_settledRows_iff_of_mem increasing member)

/-- Nothing is blamed if an undo is the only row. -/
theorem not_blamed_of_undo {catalog : Catalog} {config : Config} {rows : List Row} {row : Row}
    (regular : Regular rows) (lone : rows = [row]) (undo : row.kind.isUndo = true)
    (overlooks : config.ignoreMissing = false) (identity : Identity) :
    ¬ Blamed catalog config rows identity := by
  simp only [Blamed, Identity.beq_iff_key_eq]
  rw [regular.exists_blamed_iff catalog overlooks]
  rintro ⟨last, found, _⟩
  have shown := isVisible_of_lastVisible?_eq_some found
  have member := mem_of_lastVisible?_eq_some found
  rw [lone, List.mem_singleton] at member
  rw [member] at shown
  simp [Entry.isVisible, Kind.isMarker, undo] at shown

/-- Whatever was done to a ledger that began empty, if no foreign ledger was copied to it, the rows
that a repair removes or changes are of exactly those identities of which validation finds something
that calls for a repair, unless validation is told to overlook missing units. The report lists just
these rows, so it is empty exactly if there is no such issue. A repair is stopped by the check of
the ledger only if an initializer was an undo, and then changes nothing. -/
theorem repair_touches_blamed (table : String) (steps : List Step)
    (native : ∀ step ∈ steps, step.IsNative) (catalog : Catalog) (config : Config)
    (overlooks : config.ignoreMissing = false) :
    let ledger := (performAll steps (.new table)).store
    let repaired := (RepairReport.run catalog : Work MemoryLedger RepairReport) ledger
    (∀ identity, (∃ row ∈ ledger.rows, row ∉ repaired.2.rows ∧ row.identity == identity) ↔
        Blamed catalog config ledger.rows identity) ∧
      match checkConsistent ledger.rows with
      | .ok () => ∃ report, repaired.1 = .ok report ∧
          (∀ row, row ∈ report.touched ↔ row ∈ ledger.rows ∧ row ∉ repaired.2.rows) ∧
          (report.isEmpty = true ↔ ∀ identity, ¬ Blamed catalog config ledger.rows identity)
      | .error error => repaired = (.error error, ledger) ∧
          ∃ row, ledger.rows = [row] ∧ row.kind.isUndo = true := by
  obtain ⟨ranked, regular⟩ := regular_performAll table native
  have sound := consistentOrUndo_performAll table native
  intro ledger repaired
  cases checked : checkConsistent ledger.rows with
  | error error =>
    have refused : repaired = (.error error, ledger) := RepairReport.run_of_refused catalog checked
    obtain ⟨row, lone, undo⟩ := sound.resolve_left fun consistent => by
      cases consistent.checked.symm.trans checked
    rw [refused]
    refine ⟨fun identity => ⟨?_, fun blamed => ?_⟩, rfl, row, lone, undo⟩
    · rintro ⟨row, member, gone, _⟩
      exact absurd member gone
    · exact absurd blamed (not_blamed_of_undo regular lone undo overlooks identity)
  | ok _ =>
    have ran : repaired = (.ok (.of catalog ledger.rows), { ledger with
        rows := RepairReport.settledRows catalog ledger.rows }) :=
      RepairReport.run_eq catalog checked
    rw [ran]
    have changed (identity : Identity) :
        (∃ row ∈ ledger.rows, row ∉ RepairReport.settledRows catalog ledger.rows ∧
          row.identity == identity) ↔ Blamed catalog config ledger.rows identity :=
      regular.exists_changed_iff ranked.increasing overlooks identity
    have touched (row : Row) : row ∈ (RepairReport.of catalog ledger.rows).touched ↔
        row ∈ ledger.rows ∧ row ∉ RepairReport.settledRows catalog ledger.rows := by
      rw [RepairReport.mem_touched_iff]
      refine and_congr_right fun member => not_congr ?_
      exact (RepairReport.mem_settledRows_iff_of_mem ranked.increasing member).symm
    refine ⟨changed, _, rfl, touched, ?_⟩
    rw [RepairReport.isEmpty_iff, List.eq_nil_iff_forall_not_mem]
    constructor
    · intro untouched identity blamed
      obtain ⟨row, member, gone, _⟩ := (changed identity).mpr blamed
      exact untouched row ((touched row).mpr ⟨member, gone⟩)
    · intro blameless row listed
      obtain ⟨member, gone⟩ := (touched row).mp listed
      exact blameless row.identity ((changed row.identity).mp ⟨row, member, gone, BEq.rfl⟩)

section Withdrawal

/-- A catalog in which a script has taken the place of the coded unit, and nothing that of the
repeatable one. -/
def rewrittenCatalog : Catalog :=
  ⟨[.ofScript (.versioned (.ofMajor 2) "add prices") "add price"],
    List.pairwise_singleton _ _⟩

theorem repair_touches_blamed_withdrawal :
    (∀ step ∈ withdrawal, step.IsNative) ∧ ({} : Config).ignoreMissing = false ∧
      (Validation.of rewrittenCatalog withdrawnLedger.rows {}).issues.map
        (Issue.callsForRepair rewrittenCatalog withdrawnLedger.rows) = [true, true] ∧
      ∃ report after,
        (RepairReport.run rewrittenCatalog : Work MemoryLedger RepairReport) withdrawnLedger =
            (.ok report, after) ∧
          (∀ identity,
            (∃ row ∈ withdrawnLedger.rows, row ∉ after.rows ∧ row.identity == identity) ↔
              Blamed rewrittenCatalog {} withdrawnLedger.rows identity) ∧
          (∀ row, row ∈ report.touched ↔ row ∈ withdrawnLedger.rows ∧ row ∉ after.rows) ∧
          (report.isEmpty = true ↔
            ∀ identity, ¬ Blamed rewrittenCatalog {} withdrawnLedger.rows identity) := by
  have agrees := repair_touches_blamed defaultTable withdrawal isNative_of_mem_withdrawal
    rewrittenCatalog {} rfl
  have checked : checkConsistent withdrawnLedger.rows = .ok () := by cbv
  rw [← withdrawnLedger] at agrees
  simp only [checked] at agrees
  obtain ⟨changed, report, reported, touched, empty⟩ := agrees
  exact ⟨isNative_of_mem_withdrawal, rfl, by cbv, report, _, Prod.ext reported rfl, changed,
    touched, empty⟩

end Withdrawal

end SchemaLedger
