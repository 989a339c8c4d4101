import SchemaLedger.Proofs.Info.Reconciliation
import SchemaLedger.Validation

/-!
# What blocks a rollout

A rollout is blocked by an issue of some info, so it goes ahead exactly if every info passes.
Whether an info passes is told here from the rows and the units themselves: for a unit without a
row, for a unit with its last visible row, and for a last visible row whose unit is gone.
-/

namespace SchemaLedger

namespace Info

variable {config : Config} {highest floor ceiling : Option Version} {migration : Migration}
  {row : Row}

/-- The info has no issue that blocks a rollout. -/
def Passes (config : Config) (highest : Option Version) (info : Info) : Prop :=
  ∀ issue, Issue.ofInfo? config highest info = some issue →
    (config.validateOnMigrate || issue.alwaysBlocks) = false

/-- A pending unit may run: nothing above it has been applied, or the order does not matter. -/
def InOrder (config : Config) (highest version : Option Version) : Prop :=
  config.outOfOrder = true ∨
    ∀ pending applied, version = some pending → highest = some applied → ¬ pending < applied

/-- A unit and its successful row agree on how the unit executes; a pure baseline never disagrees.
-/
def agrees (migration : Migration) (row : Row) : Bool :=
  row.kind == .baseline || row.kind.isCompatibleWith migration.kind

theorem issue_ofUnapplied :
    Issue.ofInfo? config highest (ofUnapplied floor migration) =
      if isCovered floor migration.version then none
      else Issue.ofPending? config highest (ofUnapplied floor migration) := by
  have failed : (ofUnapplied floor migration).hasFailed = false := rfl
  rw [Issue.ofInfo?, failed]
  simp only [ofUnapplied]
  cases isCovered floor migration.version <;> rfl

theorem issue_ofApplied :
    Issue.ofInfo? config highest (ofApplied migration row) =
      if row.success then Issue.betweenRowAndUnit? (ofApplied migration row) migration row
      else some (.failed migration.identity) := by
  have failed : (ofApplied migration row).hasFailed = !row.success := by
    simp [hasFailed, row?, Subject.row?]
  have identity : (ofApplied migration row).identity = migration.identity := by
    simp [Info.identity, Subject.identity]
  unfold Issue.ofInfo?
  rw [failed, identity]
  cases success : row.success with
  | false => rfl
  | true =>
    have status : (ofApplied migration row).status = .success ∨
        (ofApplied migration row).status = .outdated := by
      simp only [ofApplied, success]
      repeat' split
      all_goals simp_all
    rcases status with status | status <;> simp [status]

theorem checksumMismatch_ofApplied (success : row.success = true) :
    (ofApplied migration row).checksumMismatch =
      (drifted migration row && migration.isVersioned) := by
  have versioned : migration.isVersioned = !migration.isRepeatable := by
    simp [Migration.isRepeatable, Migration.isVersioned]
  simp only [ofApplied, success, versioned]
  cases drifted migration row <;> cases migration.isRepeatable <;> rfl

/-- A unit without a row passes if a baseline covers it or it may run. -/
theorem passes_ofUnapplied_iff :
    (ofUnapplied floor migration).Passes config highest ↔
      isCovered floor migration.version = true ∨ InOrder config highest migration.version := by
  have version : (ofUnapplied floor migration).version? = migration.version :=
    Identity.version?_of _ _
  unfold Passes InOrder
  rw [issue_ofUnapplied]
  simp only [Issue.ofPending?, version]
  cases isCovered floor migration.version with
  | true => simp
  | false =>
    cases migration.version with
    | none => simp
    | some version =>
      cases highest with
      | none => simp
      | some highest =>
        by_cases below : version < highest
        · cases ordered : config.outOfOrder <;> simp [below, Issue.alwaysBlocks]
        · simp [below]

/-- A unit with a row passes if the row succeeded and, where the rollout validates, agrees with the
unit and has not drifted from it, the drift of a repeatable unit being none of validation's
concern. -/
theorem passes_ofApplied_iff :
    (ofApplied migration row).Passes config highest ↔
      row.success = true ∧ (config.validateOnMigrate = true →
        agrees migration row = true ∧
        (drifted migration row = true → migration.isVersioned = false)) := by
  unfold Passes
  rw [issue_ofApplied]
  cases success : row.success with
  | false => simp [Issue.alwaysBlocks]
  | true =>
    simp only [if_true, Issue.betweenRowAndUnit?, checksumMismatch_ofApplied success]
    have disagrees : (row.kind != .baseline && !row.kind.isCompatibleWith migration.kind) =
        !agrees migration row := by
      simp [agrees, bne]
    rw [disagrees]
    cases agrees migration row <;> cases drifted migration row <;> cases migration.isVersioned <;>
      simp [Issue.alwaysBlocks]

/-- The info on a row without a unit, if there is one, passes if the row is a baseline, or if it
succeeded and, where the rollout validates, such rows are overlooked. -/
theorem passes_ofUnresolved_iff :
    (∀ info, ofUnresolved? floor ceiling row = some info → info.Passes config highest) ↔
      row.isEffectiveBaseline = true ∨ isCovered floor row.version = true ∨
        row.success = true ∧ (config.validateOnMigrate = true →
          if isAbove ceiling row.version then config.ignoreFuture = true
          else config.ignoreMissing = true) := by
  unfold ofUnresolved?
  cases baseline : row.isEffectiveBaseline with
  | true =>
    have success : row.success = true := (Bool.and_eq_true_iff.mp baseline).1
    simp [Passes, Issue.ofInfo?, hasFailed, row?, Subject.row?, success]
  | false =>
    cases isCovered floor row.version with
    | true => simp
    | false =>
      cases success : row.success with
      | false =>
        simp [Passes, Issue.ofInfo?, hasFailed, row?, Subject.row?, success, Issue.alwaysBlocks]
      | true =>
        cases isAbove ceiling row.version with
        | true =>
          cases overlooked : config.ignoreFuture <;>
            simp [Passes, Issue.ofInfo?, Issue.ofMissing?, hasFailed, row?, Subject.row?, success,
              overlooked, Issue.alwaysBlocks]
        | false =>
          cases overlooked : config.ignoreMissing <;>
            simp [Passes, Issue.ofInfo?, Issue.ofMissing?, hasFailed, row?, Subject.row?, success,
              overlooked, Issue.alwaysBlocks]

end Info

namespace Validation

/-- No issue blocks a rollout exactly if every info passes. -/
theorem blocking_eq_nil_iff {catalog : Catalog} {rows : List Row} {config : Config} :
    (Validation.of catalog rows config).blocking config = [] ↔
      ∀ info ∈ reconcile catalog rows, info.Passes config (highestApplied? rows) := by
  simp only [blocking, Validation.of, List.filter_eq_nil_iff, List.mem_filterMap, Info.Passes,
    Bool.not_eq_true]
  exact ⟨fun clear info member issue found => clear issue ⟨info, member, found⟩,
    fun clear issue ⟨info, member, found⟩ => clear info member issue found⟩

end Validation

/-- What a rollout asks of a ledger: of every unit of the catalog and of every last visible row
whose unit is gone. -/
structure Clear (catalog : Catalog) (config : Config) (rows : List Row) : Prop where
  unapplied : ∀ unit ∈ catalog.migrations, lastVisible? rows unit.identity = none →
    isCovered (baselineFloor? rows) unit.version = true ∨
      Info.InOrder config (highestApplied? rows) unit.version
  applied : ∀ unit ∈ catalog.migrations, ∀ row, lastVisible? rows unit.identity = some row →
    row.success = true ∧ (config.validateOnMigrate = true →
      Info.agrees unit row = true ∧ (Info.drifted unit row = true → unit.isVersioned = false))
  unresolved : ∀ row, lastVisible? rows row.identity = some row →
    catalog.find? row.identity = none →
    row.isEffectiveBaseline = true ∨ isCovered (baselineFloor? rows) row.version = true ∨
      row.success = true ∧ (config.validateOnMigrate = true →
        if isAbove catalog.highestVersion? row.version then config.ignoreFuture = true
        else config.ignoreMissing = true)

/-- A rollout goes ahead exactly if the ledger is clear. -/
theorem blocking_eq_nil_iff_clear {catalog : Catalog} {rows : List Row} {config : Config} :
    (Validation.of catalog rows config).blocking config = [] ↔ Clear catalog config rows := by
  rw [Validation.blocking_eq_nil_iff]
  constructor
  · intro passes
    have unitPasses (unit : Migration) (member : unit ∈ catalog.migrations) :=
      passes _ (mem_reconcile_iff.mpr (.inl ⟨unit, member, rfl⟩))
    simp only [Info.ofMigration_latestRows] at unitPasses
    refine ⟨?_, ?_, ?_⟩
    · intro unit member absent
      have pass := unitPasses unit member
      rw [absent] at pass
      exact Info.passes_ofUnapplied_iff.mp pass
    · intro unit member row last
      have pass := unitPasses unit member
      rw [last] at pass
      exact Info.passes_ofApplied_iff.mp pass
    · intro row last gone
      exact Info.passes_ofUnresolved_iff.mp fun info listed =>
        passes info (mem_reconcile_iff.mpr (.inr ⟨row, last, gone, listed⟩))
  · intro clear info member
    rcases mem_reconcile_iff.mp member with ⟨unit, present, rfl⟩ | ⟨row, last, gone, listed⟩
    · rw [Info.ofMigration_latestRows]
      cases last : lastVisible? rows unit.identity with
      | none => exact Info.passes_ofUnapplied_iff.mpr (clear.unapplied unit present last)
      | some row => exact Info.passes_ofApplied_iff.mpr (clear.applied unit present row last)
    · exact Info.passes_ofUnresolved_iff.mpr (clear.unresolved row last gone) info listed

end SchemaLedger
