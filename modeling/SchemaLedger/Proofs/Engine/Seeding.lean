import SchemaLedger.Proofs.Engine.Plan
import SchemaLedger.Proofs.Engine.Rollout
import SchemaLedger.Proofs.Info.Highest

/-!
# Ledgers on which a rollout begins

A rollout of an empty ledger may begin by writing a baseline, before it looks for issues. That is
safe: neither an empty ledger nor one that holds nothing but a baseline blocks any catalog, so a
rollout that is blocked has written nothing. `run_eq` puts together all that a rollout can do.
-/

namespace SchemaLedger

namespace Info

/-- What is not covered by a floor is not below it either. -/
theorem covered_or_inOrder (config : Config) (floor version : Option Version) :
    isCovered floor version = true ∨ InOrder config floor version := by
  cases floor with
  | none => exact .inr (.inr fun _ _ _ found => by cases found)
  | some floor =>
    cases version with
    | none => exact .inr (.inr fun _ _ known => by cases known)
    | some version =>
      by_cases below : version ≤ floor
      · exact .inl (decide_eq_true below)
      · refine .inr (.inr fun _ _ known found lower => ?_)
        cases known
        cases found
        exact below (Std.le_of_lt lower)

end Info

section Blank

variable (catalog : Catalog) (config : Config)

theorem clear_nil : Clear catalog config [] := by
  refine ⟨?_, ?_, ?_⟩
  · intro unit _ _
    exact Info.covered_or_inOrder config none unit.version
  · intro unit _ row last
    cases last
  · intro row last _
    cases last

/-- Nothing blocks a rollout of a ledger that holds nothing but a pure baseline. -/
theorem clear_baseline {row : Row} (success : row.success = true) (pure : row.kind = .baseline) :
    Clear catalog config [row] := by
  have establishes : row.isEffectiveBaseline = true := by
    simp [Entry.isEffectiveBaseline, success, pure, Kind.isBaseline]
  have visible := Entry.isVisible_of_isEffectiveBaseline establishes
  have floor : baselineFloor? [row] = row.version := by
    rw [baselineFloor?, versionsWhere_cons, establishes]
    cases row.version <;> rfl
  have highest : highestApplied? [row] = row.version := by
    rw [highestApplied?, versionsWhere_cons, success, visible]
    cases row.version <;> rfl
  have only {identity : Identity} {other : Row}
      (last : lastVisible? [row] identity = some other) : other = row :=
    List.mem_singleton.mp (mem_of_lastVisible?_eq_some last)
  refine ⟨?_, ?_, ?_⟩
  · intro unit _ _
    rw [floor, highest]
    exact Info.covered_or_inOrder config row.version unit.version
  · intro unit _ other last
    rw [only last]
    simp [success, Info.agrees, Info.drifted, pure]
  · intro other last _
    rw [only last]
    exact .inl establishes

end Blank

namespace Rollout

/-- A rollout that seeds a ledger begins with an empty one and writes a pure baseline. -/
theorem seeded_cases (config : Config) (clock : Clock) (ledger : MemoryLedger) :
    seeded config clock ledger = ledger ∨
      ledger.rows = [] ∧ ∃ row, (seeded config clock ledger).rows = [row] ∧ row.success = true ∧
        row.kind = .baseline := by
  rw [seeded, seeds]
  by_cases begins : (ledger.rows.isEmpty && config.baselineOnMigrate) = true
  · have empty : ledger.rows = [] := by simpa using (Bool.and_eq_true_iff.mp begins).1
    rw [if_pos begins, MemoryLedger.rows_appendAll, empty]
    exact .inr ⟨rfl, _, rfl, rfl, rfl⟩
  · rw [if_neg begins, MemoryLedger.appendAll_nil]
    exact .inl rfl

/-- Seeding a ledger blocks nothing and clears nothing. -/
theorem blocking_seeded (catalog : Catalog) (config : Config) (clock : Clock)
    (ledger : MemoryLedger) :
    (Validation.of catalog (seeded config clock ledger).rows config).blocking config =
      (Validation.of catalog ledger.rows config).blocking config := by
  rcases seeded_cases config clock ledger with same | ⟨empty, row, rows, success, pure⟩
  · rw [same]
  · rw [rows, blocking_eq_nil_iff_clear.mpr (clear_baseline catalog config success pure), empty,
      blocking_eq_nil_iff_clear.mpr (clear_nil catalog config)]

theorem clear_seeded {catalog : Catalog} {config : Config} {clock : Clock}
    {ledger : MemoryLedger} :
    Clear catalog config (seeded config clock ledger).rows ↔ Clear catalog config ledger.rows := by
  rw [← blocking_eq_nil_iff_clear, blocking_seeded, blocking_eq_nil_iff_clear]

def executedOn (catalog : Catalog) (executor : Executor) (config : Config) (clock : Clock)
    (ledger : MemoryLedger) : List Migration :=
  attempted executor (planned catalog config clock ledger)

theorem executedOn_sublist_plan (catalog : Catalog) (executor : Executor) (config : Config)
    (clock : Clock) (ledger : MemoryLedger) :
    (executedOn catalog executor config clock ledger).Sublist
      (plan config (Overview.of catalog (seeded config clock ledger).rows)) :=
  List.IsPrefix.sublist <| attempted_prefix executor (planned catalog config clock ledger)

/-- A rollout executes units that are due on the ledger that it plans on. -/
theorem isDue_of_executed {catalog : Catalog} {executor : Executor} {config : Config}
    {clock : Clock} {ledger : MemoryLedger} {unit : Migration}
    (executed : unit ∈ executedOn catalog executor config clock ledger) :
    unit ∈ catalog.migrations ∧ unit.isDue (seeded config clock ledger).rows = true := by
  have planned := (executedOn_sublist_plan catalog executor config clock ledger).subset executed
  obtain ⟨member, _, due⟩ := mem_plan_iff.mp planned
  exact ⟨member, due⟩

section Records

variable {catalog : Catalog} {executor : Executor} {config : Config} {clock : Clock}
  {ledger : MemoryLedger}

/-- What a rollout records after it has planned are executions of units that were due. -/
theorem exists_unit_of_mem_entries {rank : Int} {row : Row}
    (member : row ∈ Entry.ranked rank
      (entries executor config clock (executedOn catalog executor config clock ledger))) :
    ∃ unit ∈ catalog.migrations, unit.isDue (seeded config clock ledger).rows = true ∧
      row.toEntry = .ofExecution unit config.installedBy clock (executor unit).isOk := by
  obtain ⟨unit, executed, entry⟩ := List.mem_map.mp (Entry.toEntry_mem_of_mem_ranked member)
  obtain ⟨offered, due⟩ := isDue_of_executed executed
  exact ⟨unit, offered, due, entry.symm⟩

theorem nodup_keys_entries (rank : Int) :
    ((Entry.ranked rank (entries executor config clock
      (executedOn catalog executor config clock ledger))).map (·.identity.key)).Nodup := by
  rw [map_key_ranked_entries]
  exact (nodup_keys_plan catalog _ _).sublist
    ((executedOn_sublist_plan catalog executor config clock ledger).map _)

end Records

/-- The report on a rollout that is not blocked. -/
def reportOn (catalog : Catalog) (executor : Executor) (config : Config) (clock : Clock)
    (ledger : MemoryLedger) : Rollout :=
  (recordAll executor clock (begun catalog config clock ledger)
    (executedOn catalog executor config clock ledger)).finish clock

/-- The ledger after a rollout that is not blocked. -/
def rolledOut (catalog : Catalog) (executor : Executor) (config : Config) (clock : Clock)
    (ledger : MemoryLedger) : MemoryLedger :=
  (seeded config clock ledger).appendAll
    (entries executor config clock (executedOn catalog executor config clock ledger))

theorem consistent_rolledOut {catalog : Catalog} {ledger : MemoryLedger} (executor : Executor)
    (config : Config) (clock : Clock) (plain : ∀ unit ∈ catalog.migrations, unit.isPlain = true)
    (consistent : ledger.Consistent) :
    (rolledOut catalog executor config clock ledger).Consistent :=
  consistent_entries executor config clock (consistent_seeded config clock consistent)
    fun unit executed => plain unit (isDue_of_executed executed).1

/-- A rollout writes a baseline and one row for each unit at most. -/
theorem hasRoom_rolledOut {catalog : Catalog} {ledger : MemoryLedger} (executor : Executor)
    (config : Config) (clock : Clock) (room : ledger.HasRoom (catalog.size + 1)) :
    (rolledOut catalog executor config clock ledger).HasRoom 0 := by
  refine hasRoom_entries executor config clock ((hasRoom_seeded config clock room).mono ?_)
  exact (executedOn_sublist_plan catalog executor config clock ledger).length_le.trans
    (length_plan_le catalog config _)

/-- A rollout is rejected for an inconsistent ledger or for blocking issues, and then changes
nothing; or else it executes its plan up to the first failure. -/
theorem run_eq (catalog : Catalog) (executor : Executor) (config : Config) (clock : Clock)
    (deployment : Deployment MemoryLedger) :
    run catalog executor config clock deployment =
      match checkConsistent deployment.store.rows with
      | .error error => (.error error, deployment)
      | .ok () =>
          match (Validation.of catalog deployment.store.rows config).blocking config with
          | [] =>
              (.ok (reportOn catalog executor config clock deployment.store),
                { store := rolledOut catalog executor config clock deployment.store
                  executed := deployment.executed ++
                    executedOn catalog executor config clock deployment.store })
          | blocking => (.error (.validation (.issues blocking)), deployment) := by
  cases checked : checkConsistent deployment.store.rows with
  | error error =>
    have refused : readBaselined executor config clock deployment = (.error error, deployment) := by
      rw [readBaselined, Work.bind_apply, Deployment.onStore_apply,
        MemoryLedger.readConsistent_apply, checked]
      rfl
    rw [run, Work.bind_apply_of_error refused]
  | ok _ =>
    rw [run_apply catalog executor config clock checked, blocking_seeded]
    cases found : (Validation.of catalog deployment.store.rows config).blocking config with
    | nil => rfl
    | cons issue rest =>
      -- an empty ledger blocks nothing, so one that is blocked has not been seeded
      rcases seeded_cases config clock deployment.store with same | ⟨empty, _⟩
      · simp only [same]
      · rw [empty, blocking_eq_nil_iff_clear.mpr (clear_nil catalog config)] at found
        cases found

end Rollout

end SchemaLedger
