import SchemaLedger.Proofs.Engine.Answers
import SchemaLedger.Proofs.Engine.Floor

/-!
# Histories in order

As long as no migrate may run units out of order and no foreign ledger is copied, the versions that
a ledger has applied ascend with the ranks of its rows: what is due is not below what has been
applied, and a repair only takes versions away. The last applied version is then the highest one,
which is why the version that a migrate reports is the one that the ledger is at.
-/

namespace SchemaLedger

/-- The versions of the successful visible rows, in the order of the rows. -/
def appliedVersions (rows : List Row) : List Version :=
  versionsWhere (fun row => row.success && row.isVisible) rows

/-- Rows stand in the order of their ranks, in which the versions that have been applied do not
decrease. -/
structure Ascending (rows : List Row) : Prop where
  ranks : rows.Pairwise fun first second => first.rank < second.rank
  versions : (appliedVersions rows).Pairwise (· ≤ ·)

def succeededVersions (executor : Executor) (units : List Migration) : List Version :=
  (units.filter fun unit => (executor unit).isOk).filterMap (·.version)

section Applied

variable {rows : List Row} {version : Version}

theorem highestApplied?_eq_getLast? (ascending : (appliedVersions rows).Pairwise (· ≤ ·)) :
    highestApplied? rows = (appliedVersions rows).getLast? :=
  Version.highest?_eq_getLast? ascending

theorem exists_le_of_mem_appliedVersions (member : version ∈ appliedVersions rows) :
    ∃ highest, highestApplied? rows = some highest ∧ version ≤ highest := by
  obtain ⟨row, present, counts, same⟩ := mem_versionsWhere.mp member
  obtain ⟨success, visible⟩ := Bool.and_eq_true_iff.mp counts
  exact exists_le_highestApplied? present success visible same

theorem pairwise_appliedVersions_singleton (row : Row) :
    (appliedVersions [row]).Pairwise (· ≤ ·) := by
  rw [appliedVersions, versionsWhere_cons]
  cases row.success && row.isVisible with
  | false => exact .nil
  | true =>
    cases row.version with
    | none => exact .nil
    | some version => exact List.pairwise_singleton _ version

/-- A repair applies nothing. -/
theorem appliedVersions_settledRows_sublist (catalog : Catalog) (rows : List Row) :
    (appliedVersions (RepairReport.settledRows catalog rows)).Sublist (appliedVersions rows) := by
  simp only [appliedVersions, versionsWhere, List.filterMap_filter]
  refine RepairReport.filterMap_settledRows_sublist fun row left version stays known => ?_
  cases counts : left.success && left.isVisible with
  | false => simp [counts] at known
  | true =>
    have visible := (Bool.and_eq_true_iff.mp counts).2
    obtain ⟨before, success, _, _⟩ := RepairReport.visible_of_apply stays visible
    simpa [counts, before, success, RepairReport.version_of_apply stays] using known

/-- The records of plain units apply the versions of those that succeeded. -/
theorem appliedVersions_ranked_entries {executor : Executor} {units : List Migration} (rank : Int)
    (config : Config) (clock : Clock) (plain : ∀ unit ∈ units, unit.isPlain = true) :
    appliedVersions (Entry.ranked rank (Rollout.entries executor config clock units)) =
      succeededVersions executor units := by
  induction units generalizing rank with
  | nil => rfl
  | cons unit rest ih =>
    obtain ⟨here, others⟩ := List.forall_mem_cons.mp plain
    have recorded := ih (rank + 1) others
    have visible := (Migration.kind_of_isPlain here).1
    simp only [appliedVersions, Rollout.entries, succeededVersions] at recorded ⊢
    rw [List.map_cons, Entry.ranked, versionsWhere_cons, recorded, List.filter_cons]
    cases outcome : (executor unit).isOk <;> cases known : unit.version <;>
      simp [Entry.atRank, Entry.ofExecution, Entry.isVisible, visible, known]

end Applied

namespace Rollout

variable {catalog : Catalog} {executor : Executor} {config : Config} {clock : Clock}
  {ledger : MemoryLedger} {rows : List Row}

/-- A unit that is due and not out of order is not below what has been applied. -/
theorem le_of_isDue {unit : Migration} {version applied : Version}
    (clear : Clear catalog config rows) (inOrder : config.outOfOrder = false)
    (member : unit ∈ catalog.migrations) (due : unit.isDue rows = true)
    (known : unit.version = some version) (present : applied ∈ appliedVersions rows) :
    applied ≤ version := by
  obtain ⟨highest, found, below⟩ := exists_le_of_mem_appliedVersions present
  obtain ⟨unapplied, uncovered⟩ := unit.unapplied_of_isDue due known
  rcases clear.unapplied unit member unapplied with covered | free | ordered
  · simp [known, uncovered] at covered
  · simp [inOrder] at free
  · exact Std.le_trans below (Std.not_lt.mp (ordered version highest known found))

/-- The version that a rollout reports is the last one that succeeded, or else the initial one. -/
theorem target_recordAll (executor : Executor) (clock : Clock) (report : Rollout)
    (units : List Migration) :
    (recordAll executor clock report units).target =
      (succeededVersions executor units).getLast?.or report.target := by
  induction units generalizing report with
  | nil => rfl
  | cons unit rest ih =>
    rw [recordAll, List.foldl_cons, ← recordAll, ih, succeededVersions, succeededVersions,
      List.filter_cons]
    cases executor unit with
    | error cause => rfl
    | ok _ =>
      cases known : unit.version with
      | none => simp [record, known, Except.isOk, Except.toBool]
      | some version => simp [record, known, Except.isOk, Except.toBool, List.getLast?_cons]

theorem pairwise_appliedVersions_seeded (config : Config) (clock : Clock)
    (ascending : (appliedVersions ledger.rows).Pairwise (· ≤ ·)) :
    (appliedVersions (seeded config clock ledger).rows).Pairwise (· ≤ ·) := by
  rcases seeded_cases config clock ledger with same | ⟨_, row, rows, _⟩
  · rwa [same]
  · rw [rows]
    exact pairwise_appliedVersions_singleton row

section RolledOut

variable (plain : ∀ unit ∈ catalog.migrations, unit.isPlain = true)
include plain

theorem appliedVersions_rolledOut :
    appliedVersions (rolledOut catalog executor config clock ledger).rows =
      appliedVersions (seeded config clock ledger).rows ++
        succeededVersions executor (executedOn catalog executor config clock ledger) := by
  rw [rolledOut, MemoryLedger.rows_appendAll, appliedVersions, versionsWhere_append,
    ← appliedVersions, ← appliedVersions, appliedVersions_ranked_entries]
  exact fun unit executed => plain unit (isDue_of_executed executed).1

/-- A rollout that must not run units out of order goes on where the ledger stands. -/
theorem pairwise_appliedVersions_rolledOut (clear : Clear catalog config ledger.rows)
    (inOrder : config.outOfOrder = false)
    (ascending : (appliedVersions ledger.rows).Pairwise (· ≤ ·)) :
    (appliedVersions (rolledOut catalog executor config clock ledger).rows).Pairwise (· ≤ ·) := by
  rw [appliedVersions_rolledOut plain]
  -- among themselves the new versions are in the order of the plan, and as units that were due
  -- they are not below the old ones
  refine List.pairwise_append.mpr
    ⟨pairwise_appliedVersions_seeded config clock ascending, ?_, ?_⟩
  · have planned := plan_pairwise catalog config (seeded config clock ledger).rows
    have executed := planned.sublist (executedOn_sublist_plan catalog executor config clock ledger)
    exact List.pairwise_filterMap.mpr ((executed.sublist List.filter_sublist).imp
      fun ordered version known other there => ordered version other known there)
  · intro applied present version succeeded
    obtain ⟨unit, member, known⟩ := List.mem_filterMap.mp succeeded
    obtain ⟨offered, due⟩ := isDue_of_executed (List.mem_filter.mp member).1
    exact le_of_isDue (clear_seeded.mpr clear) inOrder offered due known present

theorem target_reportOn (clear : Clear catalog config ledger.rows)
    (inOrder : config.outOfOrder = false)
    (ascending : (appliedVersions ledger.rows).Pairwise (· ≤ ·)) :
    (reportOn catalog executor config clock ledger).target =
      highestApplied? (rolledOut catalog executor config clock ledger).rows := by
  have after : (appliedVersions (rolledOut catalog executor config clock ledger).rows).Pairwise
      (· ≤ ·) := pairwise_appliedVersions_rolledOut plain clear inOrder ascending
  have before := pairwise_appliedVersions_seeded config clock ascending
  rw [highestApplied?_eq_getLast? after, appliedVersions_rolledOut plain, List.getLast?_append,
    ← highestApplied?_eq_getLast? before, reportOn, target_finish, target_recordAll]
  rfl

end RolledOut

end Rollout

/-- A ledger whose ranks and applied versions are in order. -/
structure MemoryLedger.Ascends (ledger : MemoryLedger) : Prop where
  ranked : ledger.Ranked
  versions : (appliedVersions ledger.rows).Pairwise (· ≤ ·)

/-- A step offers plain units, copies no foreign ledger and runs nothing out of order. -/
structure Step.IsOrderly (step : Step) : Prop where
  plain : step.engine.OffersPlain
  native : step.operation.isLiberate = false
  inOrder : step.operation = .migrate → step.engine.config.outOfOrder = false

section Steps

variable {before after : Deployment MemoryLedger}

/-- An orderly step keeps a ledger in order. -/
theorem Outcome.ascends {step : Step} {result : Except Error Unit}
    (outcome : Outcome step.engine step.operation before result after) (orderly : step.IsOrderly)
    (ascends : before.store.Ascends) : after.store.Ascends := by
  have first (entry : Entry) (empty : before.store.rows = []) :
      (appliedVersions (before.store.append entry).rows).Pairwise (· ≤ ·) := by
    rw [MemoryLedger.append, empty]
    exact pairwise_appliedVersions_singleton _
  refine ⟨outcome.ranked ascends.ranked, ?_⟩
  cases outcome with
  | untouched => exact ascends.versions
  | baselined empty => exact first _ empty
  | initialized empty => exact first _ empty
  | initializerFailed empty => exact first _ empty
  | rolledOut catalog loaded migrating clear =>
    exact Rollout.pairwise_appliedVersions_rolledOut
      (orderly.plain _ (Engine.provider_of_loadCatalog_eq_ok loaded)) clear
      (orderly.inOrder migrating) ascends.versions
  | repaired catalog =>
    exact ascends.versions.sublist (appliedVersions_settledRows_sublist catalog _)
  | imported empty importing => simp [orderly.native] at importing

theorem ascends_performAll {steps : List Step} (orderly : ∀ step ∈ steps, step.IsOrderly)
    (ascends : before.store.Ascends) : (performAll steps before).store.Ascends :=
  performAll_induction (motive := fun reached => reached.store.Ascends) ascends
    fun step member _ _ _ outcome => outcome.ascends (orderly step member)

/-- In a history of orderly steps the rows are in order after every step, and every migrate reports
the version that the ledger is at. -/
theorem history_ascends (table : String) (steps : List Step)
    (orderly : ∀ step ∈ steps, step.IsOrderly) :
    (∀ earlier later, steps = earlier ++ later →
      Ascending (performAll earlier (.new table)).store.rows) ∧
    ∀ earlier engine later, steps = earlier ++ ⟨engine, .migrate⟩ :: later →
      ∀ rollout after, engine.migrate (performAll earlier (.new table)) =
          (.ok (.finished rollout), after) →
        rollout.target = highestApplied? after.store.rows := by
  have begins : (Deployment.new table).store.Ascends :=
    ⟨(MemoryLedger.consistent_empty table).ranked, .nil⟩
  have reached {earlier later : List Step} (split : steps = earlier ++ later) :
      (performAll earlier (.new table)).store.Ascends :=
    ascends_performAll (fun step member => orderly step (split ▸ List.mem_append_left _ member))
      begins
  refine ⟨?_, ?_⟩
  · intro earlier later split
    exact ⟨(reached split).ranked.increasing, (reached split).versions⟩
  · intro earlier engine later split rollout after migrated
    have here : Step.IsOrderly ⟨engine, .migrate⟩ :=
      orderly _ (split ▸ List.mem_append_right _ List.mem_cons_self)
    obtain ⟨catalog, loaded, clear, report, store⟩ :=
      Engine.exists_of_migrate_eq_finished migrated
    rw [report, store]
    exact Rollout.target_reportOn (here.plain _ (Engine.provider_of_loadCatalog_eq_ok loaded)) clear
      (here.inOrder rfl) (reached split).versions

end Steps

section Setback

theorem isOrderly_of_mem_setback : ∀ step ∈ setback, step.IsOrderly := by
  intro step member
  have plain := (isPlain_of_mem_setback step member).units
  have quiet : step.operation.isLiberate = false ∧ step.engine.config.outOfOrder = false := by
    clear plain
    revert step
    simp [setback, itemEngine, Operation.isLiberate]
  exact ⟨plain, quiet.1, fun _ => quiet.2⟩

theorem history_ascends_setback :
    Ascending (performAll setback (.new defaultTable)).store.rows ∧
      (appliedVersions (performAll setback (.new defaultTable)).store.rows).length = 2 ∧
      ∃ rollout after,
        (itemEngine (.error (.execution "no price"))).migrate (.new defaultTable) =
            (.ok (.finished rollout), after) ∧
          rollout.success = false ∧ rollout.target = some (.ofMajor 1) ∧
          rollout.target = highestApplied? after.store.rows := by
  obtain ⟨ascending, targets⟩ := history_ascends defaultTable setback isOrderly_of_mem_setback
  refine ⟨ascending setback [] (List.append_nil _).symm, by cbv, ?_⟩
  have stopped : (Completion.value? ((itemEngine (.error (.execution "no price"))).migrate
      (.new defaultTable)).1).map (fun rollout => (rollout.success, rollout.target)) =
        some (false, some (.ofMajor 1)) := by cbv
  obtain ⟨rollout, done, shape⟩ := Option.map_eq_some_iff.mp stopped
  obtain ⟨unsuccessful, reported⟩ := Prod.mk.inj shape
  obtain ⟨after, migrated⟩ := Completion.exists_of_value? done
  exact ⟨rollout, after, migrated, unsuccessful, reported,
    targets [] _ _ rfl rollout after migrated⟩

end Setback

end SchemaLedger
