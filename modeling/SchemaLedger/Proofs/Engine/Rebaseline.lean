import Mathlib
import SchemaLedger.Proofs.Engine.Floor

/-!
# Baselines of baselined ledgers

A baseline of a ledger that has one already changes nothing. It reports the baseline row with the
highest rank, while the floor is the highest version of any baseline row, so both agree exactly if
no baseline row is above the last one. No operation but an import leaves two baseline rows, so they
agree in every history whose imports bring their baselines in ascending order.
-/

namespace SchemaLedger

/-- There is no first version, or the second one is not below it. -/
def Reaches (second first : Option Version) : Prop :=
  ∀ version, first = some version → ∃ other, second = some other ∧ version ≤ other

/-- No baseline is above a later one. -/
def BaselinesAscend (rows : List Row) : Prop :=
  (baselineVersions rows).Pairwise fun first second => Reaches second first

/-- The row that establishes a baseline at the highest rank. -/
structure IsLatestBaseline (rows : List Row) (existing : Row) : Prop where
  member : existing ∈ rows
  establishes : existing.isEffectiveBaseline = true
  latest : ∀ row ∈ rows, row.isEffectiveBaseline = true → row.rank ≤ existing.rank

section Rows

variable {rows : List Row} {existing : Row}

/-- A version that reaches all versions before it is the highest one. -/
theorem highest?_of_reaches {versions : List (Option Version)} {last : Option Version}
    (reaches : ∀ version ∈ versions, Reaches last version) :
    Version.highest? ((versions ++ [last]).filterMap id) = last := by
  cases last with
  | none =>
    have nothing : (versions ++ [none]).filterMap id = [] := by
      apply List.filterMap_eq_nil_iff.mpr
      intro version member
      cases version with
      | none => rfl
      | some version =>
        rcases List.mem_append.mp member with before | here
        · obtain ⟨other, absurdity, _⟩ := reaches _ before version rfl
          cases absurdity
        · cases List.mem_singleton.mp here
    rw [nothing]
    rfl
  | some last =>
    rw [List.filterMap_append]
    apply lastGreatest?_concat
    intro version member
    obtain ⟨given, before, known⟩ := List.mem_filterMap.mp member
    obtain ⟨other, same, lower⟩ := reaches given before version known
    cases same
    exact decide_eq_true lower

section Ranked

variable (increasing : rows.Pairwise fun first second => first.rank < second.rank)
include increasing

/-- In the order of ranks the latest baseline is the last one. -/
theorem exists_filter_eq_of_latest (latest : IsLatestBaseline rows existing) :
    latestBaseline? rows = some existing ∧
      ∃ earlier, rows.filter (·.isEffectiveBaseline) = earlier ++ [existing] := by
  have ascending : (rows.filter (·.isEffectiveBaseline)).Pairwise
      fun first second => decide (first.rank ≤ second.rank) = true :=
    (increasing.sublist List.filter_sublist).imp fun below => decide_eq_true (Int.le_of_lt below)
  have last := lastGreatest?_eq_getLast? ascending
  have listed : existing ∈ rows.filter (·.isEffectiveBaseline) :=
    List.mem_filter.mpr ⟨latest.member, latest.establishes⟩
  obtain ⟨found, reached⟩ : ∃ found, latestBaseline? rows = some found :=
    exists_lastGreatest? listed
  rw [latestBaseline?, last] at reached
  obtain ⟨earlier, split⟩ := List.getLast?_eq_some_iff.mp reached
  have same : found = existing := by
    rw [split, List.mem_append, List.mem_singleton] at listed
    rcases listed with before | here
    · have below := (List.pairwise_append.mp
        (split ▸ increasing.sublist List.filter_sublist)).2.2 existing before found
          List.mem_cons_self
      obtain ⟨member, establishes⟩ := List.mem_filter.mp (List.mem_of_getLast? reached)
      have above := latest.latest found member establishes
      omega
    · exact here.symm
  subst same
  exact ⟨last.trans reached, earlier, split⟩

/-- The latest baseline is at the floor exactly if no baseline is above it. -/
theorem version_eq_baselineFloor?_iff (latest : IsLatestBaseline rows existing) :
    existing.version = baselineFloor? rows ↔
      ∀ row ∈ rows, row.isEffectiveBaseline = true → Reaches existing.version row.version := by
  constructor
  · intro same row member establishes version known
    have listed : version ∈ versionsWhere (·.isEffectiveBaseline) rows :=
      mem_versionsWhere.mpr ⟨row, member, establishes, known⟩
    obtain ⟨floor, found⟩ := Version.exists_highest? listed
    exact ⟨floor, same.trans found, Version.le_of_highest?_eq_some found listed⟩
  · intro reaches
    obtain ⟨_, earlier, split⟩ := exists_filter_eq_of_latest increasing latest
    rw [baselineFloor?_eq_highest?, baselineVersions, split, List.map_append]
    refine (highest?_of_reaches fun version member => ?_).symm
    obtain ⟨row, before, rfl⟩ := List.mem_map.mp member
    have kept : row ∈ rows.filter (·.isEffectiveBaseline) :=
      split ▸ List.mem_append_left _ before
    obtain ⟨present, establishes⟩ := List.mem_filter.mp kept
    exact reaches row present establishes

/-- It is at the floor if the baselines ascend. -/
theorem version_eq_baselineFloor?_of_ascend (latest : IsLatestBaseline rows existing)
    (ascend : BaselinesAscend rows) : existing.version = baselineFloor? rows := by
  obtain ⟨_, earlier, split⟩ := exists_filter_eq_of_latest increasing latest
  rw [BaselinesAscend, baselineVersions, split, List.map_append, List.pairwise_append] at ascend
  rw [baselineFloor?_eq_highest?, baselineVersions, split, List.map_append]
  exact (highest?_of_reaches fun version member =>
    ascend.2.2 version member existing.version List.mem_cons_self).symm

end Ranked

theorem baselinesAscend_singleton (row : Row) : BaselinesAscend [row] := by
  rw [BaselinesAscend, baselineVersions, List.filter_singleton]
  cases row.isEffectiveBaseline with
  | false => exact .nil
  | true => exact List.pairwise_singleton _ _

/-- A single row that establishes a baseline is no undo. -/
theorem native_of_baselineVersions_singleton {row : Row} (baselined : baselineVersions [row] ≠ []) :
    ∀ other ∈ [row], other.kind.isUndo = false := by
  intro other member
  rw [List.mem_singleton.mp member]
  cases establishes : row.isEffectiveBaseline with
  | false =>
    refine absurd (baselineVersions_eq_nil fun other member => ?_) baselined
    rw [List.mem_singleton.mp member, establishes]
  | true =>
    have unmarked : row.kind.isMarker = false := by
      simpa [Entry.isVisible] using Entry.isVisible_of_isEffectiveBaseline establishes
    exact (Bool.or_eq_false_iff.mp unmarked).1

theorem baselineVersions_congr {first second : List Row}
    (same : first.map Row.toEntry = second.map Row.toEntry) :
    baselineVersions first = baselineVersions second := by
  have entries (rows : List Row) : baselineVersions rows =
      ((rows.map Row.toEntry).filter (·.isEffectiveBaseline)).map (·.version) := by
    rw [baselineVersions, List.filter_map, List.map_map]
    rfl
  rw [entries, entries, same]

end Rows

section Outcomes

variable {before after : Deployment MemoryLedger} {engine : Engine} {operation : Operation}
  {result : Except Error Unit}

/-- Ranks are in order, and once there is a baseline no row is an undo. -/
structure MemoryLedger.SoundOnceBaselined (ledger : MemoryLedger) : Prop where
  ranked : ledger.Ranked
  native : baselineVersions ledger.rows ≠ [] → ∀ row ∈ ledger.rows, row.kind.isUndo = false

/-- A ledger with a baseline is consistent whatever initializers were typed as, since an initializer
that is an undo establishes none. -/
theorem Outcome.soundOnceBaselined (outcome : Outcome engine operation before result after)
    (plain : engine.OffersPlain) (sound : before.store.SoundOnceBaselined) :
    after.store.SoundOnceBaselined := by
  refine ⟨outcome.ranked sound.ranked, ?_⟩
  have first (entry : Entry) (empty : before.store.rows = [])
      (baselined : baselineVersions (before.store.append entry).rows ≠ []) :
      ∀ row ∈ (before.store.append entry).rows, row.kind.isUndo = false := by
    rw [MemoryLedger.append, empty] at baselined ⊢
    exact native_of_baselineVersions_singleton baselined
  cases outcome with
  | untouched => exact sound.native
  | baselined empty => exact first _ empty
  | initialized empty => exact first _ empty
  | initializerFailed empty => exact first _ empty
  | rolledOut catalog loaded =>
    have offered := plain _ (Engine.provider_of_loadCatalog_eq_ok loaded)
    intro baselined row member
    rw [Rollout.baselineVersions_rolledOut offered] at baselined
    rcases List.mem_append.mp member with earlier | added
    · rcases Rollout.seeded_cases engine.config engine.clock before.store with
        same | ⟨_, marker, rows, _⟩
      · rw [same] at baselined earlier
        exact sound.native baselined row earlier
      · rw [rows] at baselined earlier
        exact native_of_baselineVersions_singleton baselined row earlier
    · obtain ⟨unit, present, _, entry⟩ := Rollout.exists_unit_of_mem_entries added
      rw [entry]
      exact (Migration.kind_of_isPlain (offered unit present)).2.2
  | repaired catalog =>
    intro baselined
    rw [RepairReport.baselineVersions_settledRows] at baselined
    have consistent := sound.ranked.consistent (sound.native baselined)
    exact (RepairReport.consistent_settledRows catalog consistent).native
  | imported empty _ copies genuine =>
    intro _ row member
    rw [MemoryLedger.rows_appendAll, empty, List.nil_append] at member
    obtain ⟨copy, present, same⟩ := List.mem_map.mp (Entry.toEntry_mem_of_mem_ranked member)
    rw [← same]
    exact (Bool.or_eq_false_iff.mp (genuine copy present)).1

theorem Outcome.baselinesAscend (outcome : Outcome engine operation before result after)
    (plain : engine.OffersPlain) (native : operation.isLiberate = false)
    (ascend : BaselinesAscend before.store.rows) : BaselinesAscend after.store.rows := by
  have first (entry : Entry) (empty : before.store.rows = []) :
      BaselinesAscend (before.store.append entry).rows := by
    rw [MemoryLedger.append, empty]
    exact baselinesAscend_singleton _
  cases outcome with
  | untouched => exact ascend
  | baselined empty => exact first _ empty
  | initialized empty => exact first _ empty
  | initializerFailed empty => exact first _ empty
  | rolledOut catalog loaded =>
    have offered := plain _ (Engine.provider_of_loadCatalog_eq_ok loaded)
    rw [BaselinesAscend, Rollout.baselineVersions_rolledOut offered]
    rcases Rollout.seeded_cases engine.config engine.clock before.store with
      same | ⟨_, marker, rows, _⟩
    · rwa [same]
    · rw [rows]
      exact baselinesAscend_singleton marker
  | repaired catalog =>
    rwa [BaselinesAscend, RepairReport.baselineVersions_settledRows]
  | imported _ importing => simp [native] at importing

/-- An import changes nothing, or it writes the rows that it copies to an empty ledger. -/
theorem Engine.liberate_cases (engine : Engine) (foreign : ForeignLedger)
    (before : Deployment MemoryLedger) :
    (engine.liberate foreign before).2 = before ∨
      before.store.rows = [] ∧ ∃ rows, foreign.rows = .ok rows ∧
        (engine.liberate foreign before).2.store.rows.map Row.toEntry =
          (ImportReport.copiedRows (ImportReport.actionsOf rows)).map Row.toEntry := by
  rw [Engine.liberate, engine.withCatalog_apply]
  cases engine.loadCatalog with
  | error error => exact .inl rfl
  | ok catalog =>
    dsimp only
    cases held : before.store.locked with
    | true => exact .inl (by rw [engine.locked_apply_of_held _ held])
    | false =>
      have untouched : (before.withLock true).withLock false = before :=
        before.withLock_of_locked_eq held
      rw [engine.locked_apply _ held, Deployment.onStore_apply, ImportReport.run_eq]
      cases foreign.rows with
      | error error => exact .inl untouched
      | ok rows =>
        dsimp only
        split
        · exact .inl untouched
        · split
          · rename_i vacant
            have empty : before.store.rows = [] := List.isEmpty_iff.mp vacant
            refine .inr ⟨empty, rows, rfl, ?_⟩
            change (before.store.rows ++ Entry.ranked _ _).map Row.toEntry = _
            rw [empty, List.nil_append, Entry.map_toEntry_ranked]
          · exact .inl untouched

end Outcomes

section Histories

variable {steps : List Step} {before : Deployment MemoryLedger} {existing : Row}

/-- If the step copies rows of a foreign ledger, they bring no baseline above a later one. -/
def Step.ImportsAscend (step : Step) (before : Deployment MemoryLedger) : Prop :=
  ∀ foreign rows, step.operation = .liberate foreign → foreign.rows = .ok rows →
    (step.perform before).2.store.rows ≠ before.store.rows →
      BaselinesAscend (ImportReport.copiedRows (ImportReport.actionsOf rows))

theorem soundOnceBaselined_performAll (plain : ∀ step ∈ steps, step.engine.OffersPlain)
    (sound : before.store.SoundOnceBaselined) :
    (performAll steps before).store.SoundOnceBaselined :=
  performAll_induction (motive := fun reached => reached.store.SoundOnceBaselined) sound
    fun step member _ _ _ outcome => outcome.soundOnceBaselined (plain step member)

theorem Step.baselinesAscend_perform {step : Step} (plain : step.engine.OffersPlain)
    (imports : step.ImportsAscend before) (ascend : BaselinesAscend before.store.rows) :
    BaselinesAscend (step.perform before).2.store.rows := by
  cases importing : step.operation.isLiberate with
  | false =>
    exact (step.operation.outcome_perform step.engine before).baselinesAscend plain importing ascend
  | true =>
    obtain ⟨foreign, asked⟩ : ∃ foreign, step.operation = .liberate foreign := by
      cases operation : step.operation <;> simp_all [Operation.isLiberate]
    have left : (step.perform before).2 = (step.engine.liberate foreign before).2 := by
      rw [Step.perform, asked]
      exact congrArg Prod.snd (Work.discard_apply (step.engine.liberate foreign) before)
    by_cases unchanged : (step.perform before).2.store.rows = before.store.rows
    · rwa [unchanged]
    · have copies := imports foreign
      rw [left] at unchanged copies ⊢
      rcases step.engine.liberate_cases foreign before with same | ⟨_, rows, read, entries⟩
      · rwa [same]
      · rw [BaselinesAscend, baselineVersions_congr entries]
        exact copies rows asked read unchanged

theorem baselinesAscend_performAll (plain : ∀ step ∈ steps, step.engine.OffersPlain)
    (imports : ∀ earlier step later, steps = earlier ++ step :: later →
      step.ImportsAscend (performAll earlier before))
    (ascend : BaselinesAscend before.store.rows) :
    BaselinesAscend (performAll steps before).store.rows := by
  induction steps generalizing before with
  | nil => exact ascend
  | cons step rest ih =>
    obtain ⟨offers, others⟩ := List.forall_mem_cons.mp plain
    have here : step.ImportsAscend before := imports [] step rest rfl
    refine ih others (fun earlier next later split => ?_)
      (step.baselinesAscend_perform offers here ascend)
    exact imports (step :: earlier) next later (congrArg (step :: ·) split)

/-- A baseline ended with a report on the existing baseline, which it has left alone. It has warned
exactly if another version was requested. -/
def ReportsExisting (existing : Row) (requested : Version) (before : Deployment MemoryLedger)
    (ended : Except Error (Completion BaselineReport) × Deployment MemoryLedger) : Prop :=
  ∃ report, ended = (.ok (.finished report), before) ∧ report.version = existing.version ∧
    report.rank = none ∧
    report.warnings = if existing.version == some requested then [] else
      [.alreadyBaselined before.store.table existing.version requested]

theorem Engine.baselineWith_of_baselined (engine : Engine) (version : Version)
    (description : String) (initializer : Option Migration)
    (checked : checkConsistent before.store.rows = .ok ())
    (free : before.store.locked = false) (latest : IsLatestBaseline before.store.rows existing) :
    ReportsExisting existing version before
      (engine.baselineWith version description initializer before) := by
  let request : BaselineRequest :=
    { version, description, initializer, installedBy := engine.config.installedBy }
  have increasing := (checkConsistent_eq_ok_iff.mp checked).1
  have found := (exists_filter_eq_of_latest increasing latest).1
  have ran : request.run engine.executor engine.clock (before.withLock true) =
      (.ok (request.refuse before.store.table existing), before.withLock true) := by
    have passes : checkConsistent (before.withLock true).store.rows = .ok () := checked
    have finds : latestBaseline? (before.withLock true).store.rows = some existing := found
    rw [request.run_eq, passes]
    dsimp only
    rw [finds]
    rfl
  refine ⟨request.refuse before.store.table existing, ?_, rfl, rfl, rfl⟩
  change engine.locked (request.run engine.executor engine.clock) before = _
  rw [engine.locked_apply _ free, ran]
  exact congrArg (Prod.mk _) (before.withLock_of_locked_eq free)

/-- Whatever was done to a ledger that began empty, a baseline of it that finds one changes nothing
and reports the baseline row with the highest rank. That is the floor exactly if no baseline row is
above it, as after any history in which what is copied brings its baselines in ascending order. -/
theorem baseline_reports_latest (table : String) (plain : ∀ step ∈ steps, step.engine.OffersPlain)
    (latest : IsLatestBaseline (performAll steps (.new table)).store.rows existing) :
    (∀ (engine : Engine) (version : Version) (description : String)
        (initializer : Option Migration),
      ReportsExisting existing version (performAll steps (.new table))
        (engine.baselineWith version description initializer (performAll steps (.new table)))) ∧
    (∀ engine : Engine,
      ReportsExisting existing engine.config.baselineVersion (performAll steps (.new table))
        (engine.baseline (performAll steps (.new table)))) ∧
    (existing.version = baselineFloor? (performAll steps (.new table)).store.rows ↔
      ∀ row ∈ (performAll steps (.new table)).store.rows, row.isEffectiveBaseline = true →
        Reaches existing.version row.version) ∧
    ((∀ earlier step later, steps = earlier ++ step :: later →
        step.ImportsAscend (performAll earlier (.new table))) →
      existing.version = baselineFloor? (performAll steps (.new table)).store.rows) := by
  have begins : (Deployment.new table).store.SoundOnceBaselined :=
    ⟨(MemoryLedger.consistent_empty table).ranked, fun baselined => absurd rfl baselined⟩
  obtain ⟨ranked, native⟩ := soundOnceBaselined_performAll plain begins
  have free : (performAll steps (.new table)).store.locked = false := locked_performAll steps rfl
  have baselined : baselineVersions (performAll steps (.new table)).store.rows ≠ [] := by
    obtain ⟨_, earlier, split⟩ := exists_filter_eq_of_latest ranked.increasing latest
    simp [baselineVersions, split]
  have checked := (ranked.consistent (native baselined)).checked
  have reports (engine : Engine) (version : Version) (description : String)
      (initializer : Option Migration) :=
    engine.baselineWith_of_baselined version description initializer checked free latest
  refine ⟨reports, fun engine => reports engine _ _ none,
    version_eq_baselineFloor?_iff ranked.increasing latest, fun imports => ?_⟩
  exact version_eq_baselineFloor?_of_ascend ranked.increasing latest
    (baselinesAscend_performAll plain imports .nil)

end Histories

section Merger

private def bindContracts : Migration :=
  .ofProcedure (.versioned (.ofMajor 7) "bind contracts") {} none

def mergerEngine : Engine where
  provider := .ok [bindContracts]
  executor := fun _ => .ok ()
  clock := .still ⟨0, 0⟩

/-- The row of a site that another tool has baselined. -/
def siteBaseline (rank : Int) (major : UInt64) : Row where
  version := some (.ofMajor major)
  description := "site"
  kind := .baseline
  script := "site"
  checksum := none
  elapsed := 0
  success := true
  installedBy := ""
  installedOn := ⟨0, 0⟩
  rank := rank

/-- An import of the baselines of two sites, and a migrate. -/
def merger (first second : UInt64) : List Step :=
  [ ⟨mergerEngine,
      .liberate ⟨"sites", .ok [siteBaseline 1 first, siteBaseline 2 second]⟩⟩,
    ⟨mergerEngine, .migrate⟩ ]

theorem offersPlain_of_mem_merger (first second : UInt64) :
    ∀ step ∈ merger first second, step.engine.OffersPlain := by
  intro step member units offered
  have provided : step.engine.provider = .ok [bindContracts] := by
    revert step
    simp [merger, mergerEngine]
  cases provided.symm.trans offered
  decide

theorem isLatestBaseline_siteBaseline {first second : UInt64} {entry : Entry}
    (plain : entry.isEffectiveBaseline = false) :
    IsLatestBaseline [siteBaseline 1 first, siteBaseline 2 second, entry.atRank 3]
      (siteBaseline 2 second) := by
  refine ⟨by simp, rfl, ?_⟩
  intro row member establishes
  simp only [List.mem_cons, List.not_mem_nil, or_false] at member
  rcases member with rfl | rfl | rfl
  · exact (by decide : (1 : Int) ≤ 2)
  · exact Int.le_refl 2
  · rw [Entry.atRank, plain] at establishes
    cases establishes

/-- The record of the unit. -/
def bound : Entry := .ofExecution bindContracts "tidemark" (.still ⟨0, 0⟩) true

theorem baseline_reports_latest_merger :
    (∀ step ∈ merger 3 5, step.engine.OffersPlain) ∧
      (∀ earlier step later, merger 3 5 = earlier ++ step :: later →
        step.ImportsAscend (performAll earlier (.new defaultTable))) ∧
      IsLatestBaseline (performAll (merger 3 5) (.new defaultTable)).store.rows
        (siteBaseline 2 5) ∧
      ReportsExisting (siteBaseline 2 5) (.ofMajor 4) (performAll (merger 3 5) (.new defaultTable))
        (mergerEngine.baselineWith (.ofMajor 4) "takeover" none
          (performAll (merger 3 5) (.new defaultTable))) ∧
      some (.ofMajor 5) =
        baselineFloor? (performAll (merger 3 5) (.new defaultTable)).store.rows := by
  have copied : ImportReport.copiedRows
      (ImportReport.actionsOf [siteBaseline 1 3, siteBaseline 2 5]) =
        [siteBaseline 1 3, siteBaseline 2 5] := by cbv
  have imports (earlier : List Step) (step : Step) (later : List Step)
      (split : merger 3 5 = earlier ++ step :: later) :
      step.ImportsAscend (performAll earlier (.new defaultTable)) := by
    intro foreign rows asked read _
    have member : step ∈ merger 3 5 := by simp [split]
    rcases List.mem_cons.mp member with rfl | later
    · cases asked
      cases read
      rw [copied]
      refine List.pairwise_pair.mpr fun version known => ⟨.ofMajor 5, rfl, ?_⟩
      cases known
      decide
    · rw [List.mem_singleton.mp later] at asked
      cases asked
  have rows : (performAll (merger 3 5) (.new defaultTable)).store.rows =
      [siteBaseline 1 3, siteBaseline 2 5, bound.atRank 3] := by cbv
  have latest : IsLatestBaseline (performAll (merger 3 5) (.new defaultTable)).store.rows
      (siteBaseline 2 5) := by
    rw [rows]
    exact isLatestBaseline_siteBaseline rfl
  obtain ⟨reports, _, _, floor⟩ :=
    baseline_reports_latest defaultTable (offersPlain_of_mem_merger 3 5) latest
  exact ⟨offersPlain_of_mem_merger 3 5, imports, latest, reports _ _ _ _, floor imports⟩

/-- If a foreign ledger brings a baseline above a later one, what a baseline reports is below the
floor, and a request for the floor is warned about. -/
theorem exists_reported_below_floor :
    (∀ step ∈ merger 5 3, step.engine.OffersPlain) ∧
      baselineFloor? (performAll (merger 5 3) (.new defaultTable)).store.rows =
        some (.ofMajor 5) ∧
      ∃ report, mergerEngine.baselineWith (.ofMajor 5) "takeover" none
            (performAll (merger 5 3) (.new defaultTable)) =
          (.ok (.finished report), performAll (merger 5 3) (.new defaultTable)) ∧
        report.version = some (.ofMajor 3) ∧ report.warnings.length = 1 := by
  have rows : (performAll (merger 5 3) (.new defaultTable)).store.rows =
      [siteBaseline 1 5, siteBaseline 2 3, bound.atRank 3] := by cbv
  have latest : IsLatestBaseline (performAll (merger 5 3) (.new defaultTable)).store.rows
      (siteBaseline 2 3) := by
    rw [rows]
    exact isLatestBaseline_siteBaseline rfl
  have checked : checkConsistent (performAll (merger 5 3) (.new defaultTable)).store.rows =
      .ok () := by
    rw [rows]
    rfl
  obtain ⟨report, ended, version, _, warnings⟩ := mergerEngine.baselineWith_of_baselined
    (.ofMajor 5) "takeover" none checked (locked_performAll _ rfl) latest
  refine ⟨offersPlain_of_mem_merger 5 3, by cbv, report, ended, version, ?_⟩
  rw [warnings]
  rfl

end Merger

end SchemaLedger
