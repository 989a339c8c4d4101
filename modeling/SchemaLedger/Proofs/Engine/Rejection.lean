import SchemaLedger.Proofs.Engine.Answers
import SchemaLedger.Proofs.Info.Account

/-!
# What a migrate rejects

Whether a migrate is rejected is decided by infos, by the issues in them, by the settings that
overlook some of these, and by which of them block. What comes of it can be told from the rows and
the units: `Obstacle` lists what stops every migrate, `Discrepancy` what stops a migrate that
validates, and `migrate_rejected_iff` says that nothing else is ever rejected.
-/

namespace SchemaLedger

/-- What stops a migrate whether or not it validates. -/
inductive Obstacle (catalog : Catalog) (config : Config) (rows : List Row) : Prop where
  /-- The last row of an identity failed, and nothing has settled that: the catalog has the
  identity, or it is repeatable, or no baseline covers it. -/
  | failed {identity : Identity} {row : Row} (last : lastVisible? rows identity = some row)
      (failure : row.success = false)
      (unsettled : (catalog.find? identity).isSome = true ∨ row.version = none ∨
        ¬ Covered rows row.version)
  /-- A versioned unit that never ran, and that no baseline covers, is below a version that has been
  applied, and the order of versions matters. -/
  | outOfOrder {unit : Migration} {version highest : Version} (ordered : config.outOfOrder = false)
      (member : unit ∈ catalog.migrations) (known : unit.version = some version)
      (absent : lastVisible? rows unit.identity = none) (uncovered : ¬ Covered rows (some version))
      (reached : highestApplied? rows = some highest) (below : version < highest)

/-- What stops a migrate that validates. -/
inductive Discrepancy (catalog : Catalog) (config : Config) (rows : List Row) : Prop where
  /-- An applied unit is yet to come to the catalog, and that is not overlooked. -/
  | future {identity : Identity} {row : Row} (leftover : IsLeftover catalog rows identity row)
      (success : row.success = true) (plain : row.kind.isBaseline = false)
      (uncovered : ¬ Covered rows row.version) (above : AboveCatalog catalog row.version)
      (reported : config.ignoreFuture = false)
  /-- An applied unit is gone from the catalog, and that is not overlooked. -/
  | missing {identity : Identity} {row : Row} (leftover : IsLeftover catalog rows identity row)
      (success : row.success = true) (plain : row.kind.isBaseline = false)
      (uncovered : ¬ Covered rows row.version) (within : ¬ AboveCatalog catalog row.version)
      (reported : config.ignoreMissing = false)
  /-- A unit was applied as if it executed in another way. -/
  | mechanism {unit : Migration} {row : Row} (member : unit ∈ catalog.migrations)
      (last : lastVisible? rows unit.identity = some row) (success : row.success = true)
      (kind : row.kind ≠ .baseline) (differs : row.kind.mechanism ≠ unit.kind.mechanism)
  /-- A versioned unit has changed since it was applied. -/
  | checksum {unit : Migration} {row : Row} (member : unit ∈ catalog.migrations)
      (versioned : unit.version.isSome = true) (last : lastVisible? rows unit.identity = some row)
      (success : row.success = true) (kind : row.kind ≠ .baseline)
      (changed : row.checksum ≠ unit.checksum)

section Blocking

variable {catalog : Catalog} {config : Config} {rows : List Row} {unit : Migration} {row : Row}

theorem Info.agrees_iff :
    agrees unit row = true ↔ row.kind = .baseline ∨ row.kind.mechanism = unit.kind.mechanism := by
  simp [agrees, Kind.isCompatibleWith]

theorem Clear.not_obstacle (clear : Clear catalog config rows) :
    ¬ Obstacle catalog config rows := by
  intro obstacle
  cases obstacle with
  | @failed identity row last failure unsettled =>
    have failing : row.success ≠ true := Bool.eq_false_iff.mp failure
    have same := key_eq_of_lastVisible?_eq_some last
    cases found : catalog.find? identity with
    | some unit =>
      obtain ⟨member, key⟩ := Catalog.find?_eq_some_iff.mp found
      exact failing (clear.applied unit member row ((lastVisible?_congr key).trans last)).1
    | none =>
      have leftover : IsLeftover catalog rows identity row := ⟨last, found⟩
      rcases clear.unresolved row leftover.own.last leftover.own.gone with
        establishes | covered | ⟨success, _⟩
      · exact failing (Bool.and_eq_true_iff.mp establishes).1
      · rcases unsettled with known | repeatable | uncovered
        · simp [found] at known
        · obtain ⟨version, known, _⟩ := isCovered_iff.mp covered
          simp [repeatable] at known
        · exact uncovered (isCovered_iff.mp covered)
      · exact failing success
  | @outOfOrder unit version highest ordered member known absent uncovered reached below =>
    rcases clear.unapplied unit member absent with covered | free | inOrder
    · exact uncovered (known ▸ isCovered_iff.mp covered)
    · exact absurd (ordered.symm.trans free) Bool.false_ne_true
    · exact inOrder version highest known reached below

theorem Clear.not_discrepancy (clear : Clear catalog config rows)
    (validates : config.validateOnMigrate = true) : ¬ Discrepancy catalog config rows := by
  have overlooked {identity : Identity} {row : Row}
      (leftover : IsLeftover catalog rows identity row) (plain : row.kind.isBaseline = false)
      (uncovered : ¬ Covered rows row.version) :
      if isAbove catalog.highestVersion? row.version then config.ignoreFuture = true
        else config.ignoreMissing = true := by
    rcases clear.unresolved row leftover.own.last leftover.own.gone with
      establishes | covered | ⟨_, settled⟩
    · exact absurd (plain.symm.trans (Bool.and_eq_true_iff.mp establishes).2) Bool.false_ne_true
    · exact absurd (isCovered_iff.mp covered) uncovered
    · exact settled validates
  intro discrepancy
  cases discrepancy with
  | future leftover _ plain uncovered above reported =>
    have ignored := overlooked leftover plain uncovered
    rw [if_pos (isAbove_iff.mpr above), reported] at ignored
    cases ignored
  | missing leftover _ plain uncovered within reported =>
    have ignored := overlooked leftover plain uncovered
    rw [if_neg (fun above => within (isAbove_iff.mp above)), reported] at ignored
    cases ignored
  | mechanism member last _ kind differs =>
    have agrees := ((clear.applied _ member _ last).2 validates).1
    exact (Info.agrees_iff.mp agrees).elim kind differs
  | checksum member versioned last _ kind changed =>
    have drifted := ((clear.applied _ member _ last).2 validates).2
      (eq_true_of_ne_false fun same =>
        (Info.drifted_eq_false_iff.mp same).elim kind changed)
    exact absurd (drifted.symm.trans versioned) Bool.false_ne_true

/-- Nothing else makes a ledger unclear. -/
theorem clear_of_not_obstacle (passable : ¬ Obstacle catalog config rows)
    (agreed : config.validateOnMigrate = true → ¬ Discrepancy catalog config rows) :
    Clear catalog config rows := by
  refine ⟨?_, ?_, ?_⟩
  · intro unit member absent
    by_contra blocked
    obtain ⟨exposed, disordered⟩ := not_or.mp blocked
    obtain ⟨ordered, below⟩ := not_or.mp disordered
    push Not at below
    obtain ⟨version, highest, known, reached, below⟩ := below
    exact passable (.outOfOrder (Bool.eq_false_iff.mpr ordered) member known absent
      (fun covered => exposed (known ▸ isCovered_iff.mpr covered)) reached below)
  · intro unit member row last
    have success : row.success = true := by
      refine eq_true_of_ne_false fun failure => passable (.failed last failure (.inl ?_))
      rw [Catalog.find?_eq_some_iff.mpr ⟨member, rfl⟩]
      rfl
    refine ⟨success, fun validates => ⟨?_, fun drifted => ?_⟩⟩
    · by_contra disagrees
      obtain ⟨kind, differs⟩ := not_or.mp (Info.agrees_iff.not.mp disagrees)
      exact agreed validates (.mechanism member last success kind differs)
    · refine Bool.eq_false_iff.mpr fun versioned => ?_
      obtain ⟨kind, changed⟩ := not_or.mp
        (Info.drifted_eq_false_iff.not.mp (Bool.eq_false_iff.not.mpr (not_not.mpr drifted)))
      exact agreed validates (.checksum member versioned last success kind changed)
  · intro row last gone
    by_contra blocked
    obtain ⟨ineffective, exposed, rest⟩ : ¬ row.isEffectiveBaseline = true ∧
        ¬ isCovered (baselineFloor? rows) row.version = true ∧ _ := by
      rwa [not_or, not_or] at blocked
    have uncovered : ¬ Covered rows row.version :=
      fun covered => exposed (isCovered_iff.mpr covered)
    have success : row.success = true :=
      eq_true_of_ne_false fun failure =>
        passable (.failed last failure (.inr (.inr uncovered)))
    have plain : row.kind.isBaseline = false := by
      refine Bool.eq_false_iff.mpr fun kind => ineffective ?_
      rw [Entry.isEffectiveBaseline, success, kind]
      rfl
    refine rest ⟨success, fun validates => ?_⟩
    split
    · rename_i above
      refine eq_true_of_ne_false fun reported => agreed validates ?_
      exact .future ⟨last, gone⟩ success plain uncovered (isAbove_iff.mp above) reported
    · rename_i within
      refine eq_true_of_ne_false fun reported => agreed validates ?_
      exact .missing ⟨last, gone⟩ success plain uncovered
        (fun above => within (isAbove_iff.mpr above)) reported

/-- A ledger is clear exactly if there is neither an obstacle nor, to a migrate that validates, a
discrepancy. -/
theorem not_clear_iff : ¬ Clear catalog config rows ↔
    Obstacle catalog config rows ∨
      config.validateOnMigrate = true ∧ Discrepancy catalog config rows := by
  constructor
  · intro blocked
    by_contra open_
    obtain ⟨passable, agreed⟩ := not_or.mp open_
    exact blocked (clear_of_not_obstacle passable fun validates found => agreed ⟨validates, found⟩)
  · rintro (obstacle | ⟨validates, discrepancy⟩) clear
    · exact clear.not_obstacle obstacle
    · exact clear.not_discrepancy validates discrepancy

end Blocking

/-- A migrate of a consistent ledger is rejected exactly if there is an obstacle or, where it
validates, a discrepancy; otherwise it ends with a report. -/
theorem Engine.migrate_rejected_iff (engine : Engine) (before : Deployment MemoryLedger)
    {catalog : Catalog} (free : before.store.locked = false)
    (loaded : engine.loadCatalog = .ok catalog)
    (checked : checkConsistent before.store.rows = .ok ()) :
    ((∃ rejection, (engine.migrate before).1 = .error (.validation rejection)) ↔
      Obstacle catalog engine.config before.store.rows ∨
        engine.config.validateOnMigrate = true ∧
          Discrepancy catalog engine.config before.store.rows) ∧
    ((∀ rejection, (engine.migrate before).1 ≠ .error (.validation rejection)) →
      ∃ rollout after, engine.migrate before = (.ok (.finished rollout), after)) := by
  have found : engine.catalogFor before.store.rows = .ok catalog := by
    rw [catalogFor, loaded, checked]
    rfl
  rw [← not_clear_iff, ← blocking_eq_nil_iff_clear, migrate_apply engine free, found]
  dsimp only
  cases (Validation.of catalog before.store.rows engine.config).blocking engine.config with
  | nil => exact ⟨by simp, fun _ => ⟨_, _, rfl⟩⟩
  | cons issue rest => simp

section Hotfix

private def addIndex : Migration := .ofProcedure (.versioned (.ofMajor 1) "add index") {} none

private def dropColumn : Migration := .ofProcedure (.versioned (.ofMajor 2) "drop column") {} none

def hotfixEngine : Engine where
  config := { validateOnMigrate := false }
  provider := .ok [addIndex, dropColumn]
  executor := fun _ => .ok ()
  clock := .still ⟨0, 0⟩

def hotfixCatalog : Catalog := ⟨[addIndex, dropColumn], by decide⟩

/-- The second unit has run before the first. -/
def hotfixLedger : MemoryLedger :=
  (MemoryLedger.empty defaultTable).append (.ofExecution dropColumn "tidemark" (.still ⟨0, 0⟩) true)

theorem obstacle_hotfixLedger :
    Obstacle hotfixCatalog hotfixEngine.config hotfixLedger.rows := by
  have uncovered : ¬ Covered hotfixLedger.rows (some (.ofMajor 1)) :=
    isCovered_eq_false_iff.mp (by cbv)
  exact .outOfOrder rfl (List.mem_cons_self : addIndex ∈ _) rfl (by cbv) uncovered rfl (by decide)

theorem Engine.migrate_rejected_iff_hotfixEngine :
    hotfixEngine.loadCatalog = .ok hotfixCatalog ∧
      checkConsistent hotfixLedger.rows = .ok () ∧
      Obstacle hotfixCatalog hotfixEngine.config hotfixLedger.rows ∧
      ∃ rejection,
        (hotfixEngine.migrate { store := hotfixLedger }).1 = .error (.validation rejection) := by
  have loaded : hotfixEngine.loadCatalog = .ok hotfixCatalog := by rfl
  have checked : checkConsistent hotfixLedger.rows = .ok () := by rfl
  obtain ⟨rejected, _⟩ :=
    hotfixEngine.migrate_rejected_iff { store := hotfixLedger } rfl loaded checked
  exact ⟨loaded, checked, obstacle_hotfixLedger, rejected.mpr (.inl obstacle_hotfixLedger)⟩

end Hotfix

end SchemaLedger
