import SchemaLedger.Proofs.Engine.Answers
import SchemaLedger.Proofs.Engine.Regularity

/-!
# The current version

The current version is read off reconciled infos, which keep one row of an identity and leave out
what a baseline covers, while a migrate begins with the highest applied version of all rows. On a
regular ledger both are the same version, whatever the catalog: a success is the last row of its
identity, and what is left out without a unit is not even a success.
-/

namespace SchemaLedger

namespace Overview

/-- The versions of the infos whose latest row records a success. -/
def reachedVersions (overview : Overview) : List Version :=
  (overview.infos.filter fun info => info.hasSucceeded && info.isVersioned).filterMap (·.version?)

theorem mem_reachedVersions_iff {overview : Overview} {version : Version} :
    version ∈ overview.reachedVersions ↔
      ∃ info ∈ overview.infos, info.hasSucceeded = true ∧ info.version? = some version := by
  simp only [reachedVersions, List.mem_filterMap, List.mem_filter, Bool.and_eq_true, and_assoc]
  constructor
  · rintro ⟨info, member, succeeded, _, known⟩
    exact ⟨info, member, succeeded, known⟩
  · rintro ⟨info, member, succeeded, known⟩
    exact ⟨info, member, succeeded, by simp [Info.isVersioned, known], known⟩

theorem lastGreatest?_versionLe {infos : List Info}
    (versioned : ∀ info ∈ infos, info.isVersioned = true) :
    (lastGreatest? Info.versionLe infos).bind (·.version?) =
      Version.highest? (infos.filterMap (·.version?)) := by
  induction infos with
  | nil => rfl
  | cons info rest ih =>
    obtain ⟨here, others⟩ := List.forall_mem_cons.mp versioned
    obtain ⟨version, known⟩ := Option.isSome_iff_exists.mp here
    have reached := ih others
    rw [List.filterMap_cons_some known, Version.highest?, lastGreatest?, lastGreatest?,
      ← Version.highest?, ← reached]
    cases found : lastGreatest? Info.versionLe rest with
    | none => simp [known]
    | some other =>
      obtain ⟨highest, last⟩ :=
        Option.isSome_iff_exists.mp (others other (mem_of_lastGreatest?_eq_some found))
      simp only [Option.bind_some, last, Info.versionLe, known]
      split <;> simp [last, known]

theorem currentVersion?_eq (overview : Overview) :
    overview.currentVersion? = Version.highest? overview.reachedVersions :=
  lastGreatest?_versionLe fun _ member =>
    (Bool.and_eq_true_iff.mp (List.mem_filter.mp member).2).2

end Overview

namespace Info

theorem hasSucceeded_ofApplied (unit : Migration) (row : Row) :
    (ofApplied unit row).hasSucceeded = row.success := by
  simp [hasSucceeded, row?, Subject.row?]

theorem hasSucceeded_of_ofUnresolved? {floor ceiling : Option Version} {row : Row} {info : Info}
    (listed : ofUnresolved? floor ceiling row = some info) :
    info.hasSucceeded = row.success := by
  simp [hasSucceeded, row?, subject_of_ofUnresolved? listed, Subject.row?]

end Info

section Reached

variable {catalog : Catalog} {rows : List Row} {row : Row} {version : Version}

/-- A version that an overview has reached was applied by a row. -/
theorem exists_applied_of_reached
    (reached : version ∈ (Overview.of catalog rows).reachedVersions) :
    ∃ applied ∈ versionsWhere (fun row => row.success && row.isVisible) rows,
      version ≤ applied := by
  obtain ⟨info, listed, succeeded, known⟩ := Overview.mem_reachedVersions_iff.mp reached
  -- either way the info is about the last visible row of its identity
  obtain ⟨row, last, success⟩ : ∃ row, lastVisible? rows info.identity = some row ∧
      row.success = true := by
    rcases mem_reconcile_iff.mp listed with ⟨unit, _, rfl⟩ | ⟨row, last, _, about⟩
    · rw [Info.identity_ofMigration]
      rw [Info.ofMigration_latestRows] at succeeded
      cases last : lastVisible? rows unit.identity with
      | none => simp [last, Info.ofUnapplied, Info.hasSucceeded, Info.row?, Subject.row?]
          at succeeded
      | some row =>
        rw [last] at succeeded
        exact ⟨row, rfl, (Info.hasSucceeded_ofApplied unit row).symm.trans succeeded⟩
    · rw [Info.identity_of_ofUnresolved? about]
      exact ⟨row, last, (Info.hasSucceeded_of_ofUnresolved? about).symm.trans succeeded⟩
  have visible := isVisible_of_lastVisible?_eq_some last
  obtain ⟨applied, same, below⟩ :=
    Identity.exists_le_of_key_eq (key_eq_of_lastVisible?_eq_some last).symm known
  refine ⟨applied, mem_versionsWhere.mpr ⟨row, mem_of_lastVisible?_eq_some last, ?_, ?_⟩, below⟩
  · simp [success, visible]
  · rwa [Entry.identity, Identity.version?_of] at same

/-- On a regular ledger every version that was applied is reached in an overview. -/
theorem Regular.exists_reached_of_applied (regular : Regular rows) (catalog : Catalog)
    (applied : version ∈ versionsWhere (fun row => row.success && row.isVisible) rows) :
    ∃ reached ∈ (Overview.of catalog rows).reachedVersions, version ≤ reached := by
  obtain ⟨row, member, counts, known⟩ := mem_versionsWhere.mp applied
  obtain ⟨success, visible⟩ := Bool.and_eq_true_iff.mp counts
  have last := regular.once.lastVisible?_eq_some member visible (by simp [Entry.isVersioned, known])
  obtain ⟨info, listed, succeeded, same⟩ : ∃ info ∈ reconcile catalog rows,
      info.hasSucceeded = true ∧ row.identity.key = info.identity.key := by
    cases found : catalog.find? row.identity with
    | some unit =>
      obtain ⟨offered, same⟩ := Catalog.find?_eq_some_iff.mp found
      refine ⟨_, mem_reconcile_iff.mpr (.inl ⟨unit, offered, rfl⟩), ?_, ?_⟩
      · rw [Info.ofMigration_latestRows, lastVisible?_congr same, last]
        exact (Info.hasSucceeded_ofApplied unit row).trans success
      · rw [Info.identity_ofMigration, same]
    | none =>
      obtain ⟨info, about⟩ : ∃ info,
          Info.ofUnresolved? (baselineFloor? rows) catalog.highestVersion? row = some info := by
        unfold Info.ofUnresolved?
        cases establishes : row.isEffectiveBaseline with
        | true => exact ⟨_, rfl⟩
        | false => simp [regular.uncovered row member visible establishes]
      exact ⟨info, mem_reconcile_iff.mpr (.inr ⟨row, last, found, about⟩),
        (Info.hasSucceeded_of_ofUnresolved? about).trans success,
        by rw [Info.identity_of_ofUnresolved? about]⟩
  have identity : row.identity.version? = some version := by
    rw [Entry.identity, Identity.version?_of, known]
  obtain ⟨reached, shown, below⟩ := Identity.exists_le_of_key_eq same identity
  exact ⟨reached, Overview.mem_reachedVersions_iff.mpr ⟨info, listed, succeeded, shown⟩, below⟩

/-- The current version of a regular ledger is the highest applied one. -/
theorem Regular.currentVersion?_beq (regular : Regular rows) (catalog : Catalog) :
    ((Overview.of catalog rows).currentVersion? == highestApplied? rows) = true := by
  rw [Overview.currentVersion?_eq]
  exact Version.highest?_beq (fun _ => exists_applied_of_reached)
    fun _ => regular.exists_reached_of_applied catalog

end Reached

namespace Rollout

/-- What a rollout began with stays in its report. -/
theorem recordAll_begun (executor : Executor) (clock : Clock) (report : Rollout)
    (units : List Migration) :
    (recordAll executor clock report units).initial = report.initial ∧
      (recordAll executor clock report units).baselined = report.baselined := by
  induction units generalizing report with
  | nil => exact ⟨rfl, rfl⟩
  | cons unit rest ih =>
    rw [recordAll, List.foldl_cons, ← recordAll, (ih _).1, (ih _).2]
    cases executor unit <;> exact ⟨rfl, rfl⟩

/-- A rollout that writes no baseline begins at the highest version that has been applied. -/
theorem initial_reportOn {catalog : Catalog} {executor : Executor} {config : Config}
    {clock : Clock} {ledger : MemoryLedger}
    (unseeded : (reportOn catalog executor config clock ledger).baselined = false) :
    (reportOn catalog executor config clock ledger).initial = highestApplied? ledger.rows := by
  obtain ⟨initial, baselined⟩ := recordAll_begun executor clock
    (begun catalog config clock ledger) (executedOn catalog executor config clock ledger)
  rw [reportOn, baselined_finish, baselined, begun, start, Bool.not_eq_false',
    List.isEmpty_iff] at unseeded
  rw [reportOn, initial_finish, initial, begun, start, seeded, unseeded, MemoryLedger.appendAll_nil]

end Rollout

/-- Whatever was done to a ledger that began empty, if no foreign ledger was copied to it, the
current version is the highest applied one with every catalog, and every migrate is rejected or
reports that it began there, unless it wrote a baseline first. -/
theorem currentVersion_agrees (table : String) (steps : List Step)
    (native : ∀ step ∈ steps, step.IsNative) :
    let reached := performAll steps (.new table)
    (∀ catalog, ((Overview.of catalog reached.store.rows).currentVersion? ==
      highestApplied? reached.store.rows) = true) ∧
    ∀ engine : Engine, (∃ error, (engine.migrate reached).1 = .error error) ∨
      ∃ rollout, (engine.migrate reached).1 = .ok (.finished rollout) ∧
        (rollout.baselined = false → rollout.initial = highestApplied? reached.store.rows) := by
  have regular := (regular_performAll table native).2
  have free : (performAll steps (.new table)).store.locked = false := locked_performAll steps rfl
  refine ⟨regular.currentVersion?_beq, fun engine => ?_⟩
  rw [engine.migrate_apply free]
  split
  · exact .inl ⟨_, rfl⟩
  · split
    · exact .inr ⟨_, rfl, Rollout.initial_reportOn⟩
    · exact .inl ⟨_, rfl⟩

section Withdrawal

def lenientEngine : Engine := { priceEngine [] with config := { validateOnMigrate := false } }

theorem currentVersion_agrees_withdrawal :
    (∀ step ∈ withdrawal, step.IsNative) ∧
      (Overview.of .empty withdrawnLedger.rows).currentVersion? = some (.ofMajor 2) ∧
      ((Overview.of .empty withdrawnLedger.rows).currentVersion? ==
        highestApplied? withdrawnLedger.rows) = true ∧
      ∃ rollout,
        (lenientEngine.migrate (performAll withdrawal (.new defaultTable))).1 =
            .ok (.finished rollout) ∧
          rollout.baselined = false ∧ rollout.initial = highestApplied? withdrawnLedger.rows := by
  obtain ⟨agrees, migrates⟩ :=
    currentVersion_agrees defaultTable withdrawal isNative_of_mem_withdrawal
  have shape : (Completion.value? (lenientEngine.migrate
      (performAll withdrawal (.new defaultTable))).1).map (·.baselined) = some false := by cbv
  obtain ⟨rollout, done, unseeded⟩ := Option.map_eq_some_iff.mp shape
  refine ⟨isNative_of_mem_withdrawal, by cbv, agrees .empty, ?_⟩
  rcases migrates lenientEngine with ⟨error, rejected⟩ | ⟨reported, finished, initial⟩
  · rw [rejected] at done
    cases done
  · rw [finished] at done
    cases done
    exact ⟨rollout, finished, unseeded, initial unseeded⟩

end Withdrawal

end SchemaLedger
