import SchemaLedger.Proofs.Engine.Ascent
import SchemaLedger.Proofs.Engine.CurrentVersion
import SchemaLedger.Proofs.Engine.Prediction
import SchemaLedger.Proofs.Info.Account

/-!
# What a migrate writes and reports

A migrate that ends with a report has appended one row for each unit that it attempted, after the
row of a baseline if it wrote one. `Receipt` says which units these are and in which order, where it
stopped, and that the report tells the same as the rows. `migrate_receipt` gives such a receipt for
every migrate of a consistent ledger, whatever units fail.
-/

namespace SchemaLedger

/-- The row is the record of an attempt. -/
structure Attempt.IsRecordedBy (installedBy : String) (attempt : Attempt) (row : Row) : Prop where
  version : row.version = attempt.migration.version
  description : row.description = attempt.migration.description
  kind : row.kind = attempt.migration.kind
  script : row.script = attempt.migration.script
  checksum : row.checksum = attempt.migration.checksum
  elapsed : row.elapsed = attempt.elapsed
  success : row.success = attempt.success
  installedBy : row.installedBy = installedBy

/-- The row is the baseline that a configuration asks for. -/
structure Config.IsBaselinedBy (config : Config) (row : Row) : Prop where
  version : row.version = some config.baselineVersion
  description : row.description = config.baselineDescription
  kind : row.kind = .baseline
  script : row.script = config.baselineDescription
  checksum : row.checksum = none
  elapsed : row.elapsed = 0
  success : row.success = true
  installedBy : row.installedBy = config.installedBy

namespace Rollout

/-- How a rollout ended. -/
inductive Ending (executor : Executor) (rollout : Rollout) : Prop where
  /-- Every attempt succeeded. -/
  | complete (unfailed : rollout.failure = none)
      (succeed : ∀ attempt ∈ rollout.attempts, attempt.success = true)
  /-- The last attempt failed, and only that one. -/
  | stopped {earlier : List Attempt} {last : Attempt} {cause : Error}
      (attempts : rollout.attempts = earlier ++ [last])
      (succeed : ∀ attempt ∈ earlier, attempt.success = true) (failed : last.success = false)
      (raised : executor last.migration = .error cause)
      (failure : rollout.failure = some (.migrationFailed last.migration.identity cause))

/-- What a migrate has written and reports: `seed` are the rows of its baseline and `added` those of
the units that it attempted. -/
structure Receipt (engine : Engine) (catalog : Catalog) (before : Deployment MemoryLedger)
    (rollout : Rollout) (after : Deployment MemoryLedger) (seed added : List Row) : Prop where
  /-- What was there is still there, and the new rows follow. -/
  rows : after.store.rows = before.store.rows ++ seed ++ added
  /-- The ledger begins with a baseline if it was empty and that is configured. -/
  seeded : before.store.rows = [] ∧ engine.config.baselineOnMigrate = true ∧
      rollout.baselined = true ∧ (∃ row, seed = [row] ∧ engine.config.IsBaselinedBy row) ∨
    ¬ (before.store.rows = [] ∧ engine.config.baselineOnMigrate = true) ∧
      rollout.baselined = false ∧ seed = []
  /-- Ranks increase. -/
  increasing : after.store.rows.Pairwise fun first second => first.rank < second.rank
  /-- New ranks have never been given to a row. -/
  fresh : ∀ row ∈ seed ++ added, before.store.nextRank ≤ row.rank
  /-- Counting ranks has not left their 32 bits. -/
  room : after.store.HasRoom 0
  /-- Each attempt has its row, in the same order. -/
  recorded : List.Forall₂ (Attempt.IsRecordedBy engine.config.installedBy) rollout.attempts added
  /-- The units of the attempts were executed, and nothing else was. -/
  executed : after.executed = before.executed ++ rollout.attempts.map (·.migration)
  /-- Attempts are at units of the catalog and come out as executing these does. -/
  offered : ∀ attempt ∈ rollout.attempts, attempt.migration ∈ catalog.migrations ∧
    attempt.success = (engine.executor attempt.migration).isOk
  /-- The report tells the times that the clock has measured. -/
  timed : rollout.elapsed = engine.clock.total ∧
    ∀ attempt ∈ rollout.attempts, attempt.elapsed = engine.clock.timing attempt.migration
  /-- No two attempts are at the same identity. -/
  once : rollout.attempts.Pairwise fun first second =>
    (first.migration.identity == second.migration.identity) = false
  /-- They are in the order of their identities. -/
  ordered : rollout.attempts.Pairwise fun first second =>
    first.migration.identity.ComesBefore second.migration.identity
  /-- None of them is above the target or covered by a baseline. -/
  allowed : ∀ attempt ∈ rollout.attempts, ∀ version, attempt.migration.version = some version →
    (∀ target, engine.config.target = some target → version ≤ target) ∧
      ¬ Covered (before.store.rows ++ seed) (some version)
  /-- The first failure is the last attempt, and the failure that is reported. -/
  ending : Ending engine.executor rollout
  /-- Without a failure every unit was attempted that was due and within the target. -/
  whole : rollout.failure = none → ∀ unit ∈ catalog.migrations,
    unit.isDue (before.store.rows ++ seed) = true → isWithinTarget engine.config unit = true →
      ∃ attempt ∈ rollout.attempts, attempt.migration = unit
  /-- The successes are counted. -/
  count : rollout.executed = (rollout.attempts.filter (·.success)).length
  /-- The report begins at the highest version that had been applied. -/
  initial : rollout.initial = highestApplied? (before.store.rows ++ seed)
  /-- It ends at the version of the last versioned unit that succeeded, if there is one. -/
  target : rollout.target =
    ((rollout.attempts.filter (·.success)).filterMap (·.migration.version)).getLast?.or
      rollout.initial

section Parts

variable {executor : Executor} {config : Config} {clock : Clock} {units : List Migration}

theorem forall₂_entries (rank : Int) :
    List.Forall₂ (Attempt.IsRecordedBy config.installedBy) (units.map (attempt executor clock))
      (Entry.ranked rank (entries executor config clock units)) := by
  induction units generalizing rank with
  | nil => exact .nil
  | cons unit rest ih => exact .cons ⟨rfl, rfl, rfl, rfl, rfl, rfl, rfl, rfl⟩ (ih (rank + 1))

/-- A report that began without attempts tells how the execution of units ended. -/
theorem ending_recordAll {report : Rollout} (blank : report.attempts = [])
    (unfailed : report.failure = none) :
    Ending executor (recordAll executor clock report (attempted executor units)) := by
  rcases attempted_cases executor units with
    ⟨all, succeed⟩ | ⟨done, stuck, rest, cause, _, tried, succeed, raised⟩
  · obtain ⟨attempts, _, failure⟩ := recordAll_of_forall_ok report succeed
    rw [all]
    refine .complete (failure.trans unfailed) fun attempt member => ?_
    rw [attempts, blank, List.nil_append] at member
    obtain ⟨unit, _, rfl⟩ := List.mem_map.mp member
    rfl
  · obtain ⟨attempts, _, failure⟩ := recordAll_of_stuck report succeed raised
    rw [tried]
    rw [blank, List.nil_append] at attempts
    refine .stopped attempts (fun attempt member => ?_) rfl raised failure
    obtain ⟨unit, _, rfl⟩ := List.mem_map.mp member
    rfl

theorem Ending.finish {rollout : Rollout} (ending : Ending executor rollout) :
    Ending executor (rollout.finish clock) := by
  cases ending with
  | complete unfailed succeed => exact .complete unfailed succeed
  | stopped attempts succeed failed raised failure =>
    exact .stopped attempts succeed failed raised failure

/-- The rows of a baseline are those that a configuration asks for. -/
theorem seeded_rows_cases (config : Config) (clock : Clock) (rank : Int) (rows : List Row) :
    (rows = [] ∧ config.baselineOnMigrate = true ∧ (!(seeds config clock rows).isEmpty) = true ∧
      ∃ row, Entry.ranked rank (seeds config clock rows) = [row] ∧ config.IsBaselinedBy row) ∨
    ¬ (rows = [] ∧ config.baselineOnMigrate = true) ∧
      (!(seeds config clock rows).isEmpty) = false ∧
        Entry.ranked rank (seeds config clock rows) = [] := by
  rw [seeds]
  split
  · rename_i begins
    obtain ⟨empty, enabled⟩ := Bool.and_eq_true_iff.mp begins
    exact .inl ⟨List.isEmpty_iff.mp empty, enabled, rfl, _, rfl,
      ⟨rfl, rfl, rfl, rfl, rfl, rfl, rfl, rfl⟩⟩
  · rename_i begun
    refine .inr ⟨fun begins => begun ?_, rfl, rfl⟩
    rw [begins.1, begins.2]
    rfl

end Parts

section Executed

variable {catalog : Catalog} {executor : Executor} {config : Config} {clock : Clock}
  {ledger : MemoryLedger} {unit : Migration}

/-- A versioned unit that is executed is within the target and covered by no baseline. -/
theorem allowed_of_executed {version : Version}
    (executed : unit ∈ executedOn catalog executor config clock ledger)
    (known : unit.version = some version) :
    (∀ target, config.target = some target → version ≤ target) ∧
      ¬ Covered (seeded config clock ledger).rows (some version) := by
  obtain ⟨_, within, due⟩ :=
    mem_plan_iff.mp ((executedOn_sublist_plan catalog executor config clock ledger).subset executed)
  refine ⟨fun target limited => ?_, isCovered_eq_false_iff.mp (unit.unapplied_of_isDue due known).2⟩
  simpa [isWithinTarget_eq, known, limited] using within

theorem attempts_reportOn_eq : (reportOn catalog executor config clock ledger).attempts =
    (executedOn catalog executor config clock ledger).map (attempt executor clock) :=
  attempts_recordAll_eq executor clock (begun catalog config clock ledger) _

end Executed

/-- The report on a rollout of a consistent ledger, and what the rollout leaves, make a receipt. -/
theorem receipt_reportOn (engine : Engine) (catalog : Catalog) {before : Deployment MemoryLedger}
    (consistent : before.store.Consistent) (room : before.store.HasRoom (catalog.size + 1)) :
    Receipt engine catalog before
      (reportOn catalog engine.executor engine.config engine.clock before.store)
      { store := rolledOut catalog engine.executor engine.config engine.clock before.store
        executed := before.executed ++
          executedOn catalog engine.executor engine.config engine.clock before.store }
      (Entry.ranked before.store.nextRank (seeds engine.config engine.clock before.store.rows))
      (Entry.ranked (seeded engine.config engine.clock before.store).nextRank
        (entries engine.executor engine.config engine.clock
          (executedOn catalog engine.executor engine.config engine.clock before.store))) := by
  have attempts :
      (reportOn catalog engine.executor engine.config engine.clock before.store).attempts = _ :=
    attempts_reportOn_eq
  have planned := executedOn_sublist_plan catalog engine.executor engine.config engine.clock
    before.store
  obtain ⟨initial, baselined⟩ := recordAll_begun engine.executor engine.clock
    (begun catalog engine.config engine.clock before.store)
    (executedOn catalog engine.executor engine.config engine.clock before.store)
  refine
    { rows := rfl
      seeded := ?seeded
      increasing := ?increasing
      fresh := ?fresh
      room := hasRoom_rolledOut engine.executor engine.config engine.clock room
      recorded := ?recorded
      executed := ?executed
      offered := ?offered
      timed := ⟨rfl, ?timed⟩
      once := ?once
      ordered := ?ordered
      allowed := ?allowed
      ending := (ending_recordAll rfl rfl).finish
      whole := ?whole
      count := ?count
      initial := initial
      target := ?target }
  case seeded =>
    rw [reportOn, baselined_finish, baselined]
    exact seeded_rows_cases engine.config engine.clock _ _
  case increasing => exact ((consistent.ranked.appendAll _).appendAll _).increasing
  case fresh =>
    intro row member
    rcases List.mem_append.mp member with first | later
    · exact (Entry.rank_ranked first).1
    · have rank := (Entry.rank_ranked later).1
      simp only [seeded, MemoryLedger.appendAll] at rank
      omega
  case recorded =>
    rw [attempts]
    exact forall₂_entries _
  case executed => rw [attempts_reportOn]
  case offered =>
    intro attempt member
    rw [attempts] at member
    obtain ⟨unit, executed, rfl⟩ := List.mem_map.mp member
    exact ⟨(isDue_of_executed executed).1, rfl⟩
  case timed =>
    intro attempt member
    rw [attempts] at member
    obtain ⟨unit, _, rfl⟩ := List.mem_map.mp member
    rfl
  case once =>
    rw [attempts, List.pairwise_map]
    have distinct := List.pairwise_map.mp (nodup_keys_plan catalog engine.config
      (seeded engine.config engine.clock before.store).rows)
    exact (distinct.sublist planned).imp Identity.beq_eq_false_iff_key_ne.mpr
  case ordered =>
    rw [attempts, List.pairwise_map]
    exact (plan_comesBefore catalog engine.config _).sublist planned
  case allowed =>
    intro attempt member version known
    rw [attempts] at member
    obtain ⟨unit, executed, rfl⟩ := List.mem_map.mp member
    exact allowed_of_executed executed known
  case whole =>
    intro unfailed unit member due within
    obtain ⟨all, _⟩ := attempted_of_unfailed unfailed
    have executed : unit ∈ executedOn catalog engine.executor engine.config engine.clock
        before.store := by
      rw [executedOn, all]
      exact mem_plan_iff.mpr ⟨member, within, due⟩
    rw [attempts]
    exact ⟨_, List.mem_map_of_mem executed, rfl⟩
  case count =>
    rw [attempts, List.filter_map, List.length_map, reportOn, executed_finish,
      executed_recordAll]
    exact Nat.zero_add _
  case target =>
    rw [attempts, List.filter_map, List.filterMap_map, reportOn, target_finish, target_recordAll,
      initial_finish, initial]
    rfl

end Rollout

/-- Every migrate of a consistent ledger that ends with a report has a receipt, whatever units
fail, if there are ranks for a baseline and for each unit. -/
theorem Engine.migrate_receipt (engine : Engine) {before after : Deployment MemoryLedger}
    {rollout : Rollout} (consistent : before.store.Consistent)
    (room : ∀ catalog, engine.loadCatalog = .ok catalog → before.store.HasRoom (catalog.size + 1))
    (migrated : engine.migrate before = (.ok (.finished rollout), after)) :
    ∃ catalog seed added, engine.loadCatalog = .ok catalog ∧
      Rollout.Receipt engine catalog before rollout after seed added := by
  obtain ⟨catalog, loaded, _, rfl, rfl⟩ := finished_of_migrate migrated
  exact ⟨catalog, _, _, loaded,
    Rollout.receipt_reportOn engine catalog consistent (room catalog loaded)⟩

section Payroll

private def importLegacy : Migration :=
  .ofProcedure (.versioned (.ofMajor 1) "import legacy") {} none

private def addSalaries : Migration := .ofProcedure (.versioned (.ofMajor 2) "add salaries") {} none

private def addTaxes : Migration := .ofProcedure (.versioned (.ofMajor 3) "add taxes") {} none

private def paySlips : Migration := .ofProcedure (.repeatable "pay slips") {} none

/-- An engine that baselines empty ledgers and fails to add taxes. Each unit takes it 3 ms. -/
def payrollEngine : Engine where
  config := { baselineOnMigrate := true }
  provider := .ok [paySlips, addTaxes, addSalaries, importLegacy]
  executor := fun unit =>
    if unit.version == some (.ofMajor 3) then .error (.execution "no rates") else .ok ()
  clock := { Clock.still ⟨0, 0⟩ with timing := fun _ => 3, total := 8 }

theorem Engine.migrate_receipt_payrollEngine :
    (Deployment.new defaultTable).store.Consistent ∧
      (∀ catalog, payrollEngine.loadCatalog = .ok catalog →
        (Deployment.new defaultTable).store.HasRoom (catalog.size + 1)) ∧
      ∃ rollout after catalog seed added,
        payrollEngine.migrate (.new defaultTable) = (.ok (.finished rollout), after) ∧
          payrollEngine.loadCatalog = .ok catalog ∧
          Rollout.Receipt payrollEngine catalog (.new defaultTable) rollout after seed added ∧
          rollout.baselined = true ∧ rollout.attempts.length = 2 ∧ rollout.executed = 1 ∧
          rollout.target = some (.ofMajor 2) ∧ rollout.elapsed = 8 ∧
          rollout.failure.isSome = true := by
  have room (catalog : Catalog) (loaded : payrollEngine.loadCatalog = .ok catalog) :
      (Deployment.new defaultTable).store.HasRoom (catalog.size + 1) := by
    have counted : payrollEngine.loadCatalog.map Catalog.size = .ok 4 := by cbv
    rw [loaded] at counted
    rw [Except.ok.inj counted]
    decide
  have shape : (Completion.value? (payrollEngine.migrate (.new defaultTable)).1).map
      (fun rollout => (rollout.baselined, rollout.attempts.length, rollout.executed, rollout.target,
        rollout.elapsed, rollout.failure.isSome)) =
          some (true, 2, 1, some (.ofMajor 2), 8, true) := by cbv
  obtain ⟨rollout, done, parts⟩ := Option.map_eq_some_iff.mp shape
  obtain ⟨after, migrated⟩ := Completion.exists_of_value? done
  have consistent : (Deployment.new defaultTable).store.Consistent :=
    MemoryLedger.consistent_empty defaultTable
  obtain ⟨catalog, seed, added, loaded, receipt⟩ :=
    payrollEngine.migrate_receipt consistent room migrated
  simp only [Prod.mk.injEq] at parts
  exact ⟨consistent, room, rollout, after, catalog, seed, added, migrated, loaded, receipt, parts⟩

end Payroll

end SchemaLedger
