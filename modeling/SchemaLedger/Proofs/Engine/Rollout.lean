import SchemaLedger.Engine.Rollout
import SchemaLedger.Proofs.Catalog
import SchemaLedger.Proofs.Engine.Baseline
import SchemaLedger.Proofs.Validation.Blocking

/-!
# What a rollout does to a ledger

A rollout on a consistent ledger in memory is put together from three plain functions: `seeds` are
the entries that it records before it plans, `attempted` are the planned units up to the first one
that fails, and `recordAll` is the report on them. `run_apply` says that it does nothing else, and
the lemmas after it what follows if the seeded ledger is clear.
-/

namespace SchemaLedger

def Deployment.new (table : String) : Deployment MemoryLedger := { store := .empty table }

namespace Rollout

/-- The units up to the first one that fails, which is the last. -/
def attempted (executor : Executor) : List Migration → List Migration
  | [] => []
  | unit :: rest =>
      match executor unit with
      | .ok () => unit :: attempted executor rest
      | .error _ => [unit]

/-- The records of executions of units. -/
def entries (executor : Executor) (config : Config) (clock : Clock) (units : List Migration) :
    List Entry :=
  units.map fun unit => .ofExecution unit config.installedBy clock (executor unit).isOk

/-- The report after units were executed in order. -/
def recordAll (executor : Executor) (clock : Clock) (rollout : Rollout) (units : List Migration) :
    Rollout :=
  units.foldl (fun report unit => report.record clock unit (executor unit)) rollout

/-- The records before a plan is made: a baseline of an empty ledger, if that is configured. -/
def seeds (config : Config) (clock : Clock) (rows : List Row) : List Entry :=
  if rows.isEmpty && config.baselineOnMigrate then
    [BaselineRequest.marker
      { version := config.baselineVersion
        description := config.baselineDescription
        installedBy := config.installedBy } clock]
  else []

/-- The ledger that a rollout plans on. -/
def seeded (config : Config) (clock : Clock) (ledger : MemoryLedger) : MemoryLedger :=
  ledger.appendAll (seeds config clock ledger.rows)

def planned (catalog : Catalog) (config : Config) (clock : Clock) (ledger : MemoryLedger) :
    List Migration :=
  plan config (Overview.of catalog (seeded config clock ledger).rows)

def begun (catalog : Catalog) (config : Config) (clock : Clock) (ledger : MemoryLedger) : Rollout :=
  start (Overview.of catalog (seeded config clock ledger).rows) (seeded config clock ledger).rows
    (!(seeds config clock ledger.rows).isEmpty)

section Report

variable {executor : Executor} {clock : Clock} {units : List Migration} {rollout : Rollout}

/-- Either all units succeed and are executed, or a first one fails and is the last one executed. -/
theorem attempted_cases (executor : Executor) (units : List Migration) :
    (attempted executor units = units ∧ ∀ unit ∈ units, executor unit = .ok ()) ∨
    ∃ done stuck rest cause, units = done ++ stuck :: rest ∧
      attempted executor units = done ++ [stuck] ∧ (∀ unit ∈ done, executor unit = .ok ()) ∧
      executor stuck = .error cause := by
  induction units with
  | nil => exact .inl ⟨rfl, fun _ member => absurd member List.not_mem_nil⟩
  | cons unit rest ih =>
    rw [attempted]
    cases outcome : executor unit with
    | error cause =>
      exact .inr ⟨[], unit, rest, cause, rfl, rfl, fun _ member => absurd member List.not_mem_nil,
        outcome⟩
    | ok _ =>
      rcases ih with ⟨all, succeed⟩ | ⟨done, stuck, left, cause, split, tried, succeed, failure⟩
      · exact .inl ⟨congrArg (unit :: ·) all, List.forall_mem_cons.mpr ⟨outcome, succeed⟩⟩
      · exact .inr ⟨unit :: done, stuck, left, cause, congrArg (unit :: ·) split,
          congrArg (unit :: ·) tried, List.forall_mem_cons.mpr ⟨outcome, succeed⟩, failure⟩

theorem attempted_of_forall_ok (succeed : ∀ unit ∈ units, executor unit = .ok ()) :
    attempted executor units = units := by
  rcases attempted_cases executor units with
    ⟨all, _⟩ | ⟨done, stuck, rest, cause, split, _, _, failure⟩
  · exact all
  · have outcome := succeed stuck (by simp [split])
    rw [failure] at outcome
    cases outcome

theorem entries_of_forall_ok (config : Config) (clock : Clock)
    (succeed : ∀ unit ∈ units, executor unit = .ok ()) :
    entries executor config clock units =
      units.map fun unit => .ofExecution unit config.installedBy clock true :=
  List.map_congr_left fun unit member => by rw [succeed unit member]; rfl

theorem map_key_ranked_entries (rank : Int) (executor : Executor) (config : Config) (clock : Clock)
    (units : List Migration) :
    (Entry.ranked rank (entries executor config clock units)).map (·.identity.key) =
      units.map (·.identity.key) := by
  have keys := congrArg (List.map (·.identity.key))
    (Entry.map_toEntry_ranked rank (entries executor config clock units))
  rwa [List.map_map, entries, List.map_map] at keys

theorem attempted_prefix (executor : Executor) (units : List Migration) :
    attempted executor units <+: units := by
  rcases attempted_cases executor units with ⟨all, _⟩ | ⟨done, stuck, rest, _, split, tried, _⟩
  · exact ⟨[], by rw [all, List.append_nil]⟩
  · rw [tried, split]
    exact ⟨rest, by rw [List.append_assoc, List.singleton_append]⟩

theorem recordAll_append (executor : Executor) (clock : Clock) (rollout : Rollout)
    (earlier later : List Migration) :
    recordAll executor clock rollout (earlier ++ later) =
      recordAll executor clock (recordAll executor clock rollout earlier) later :=
  List.foldl_append

def attempt (executor : Executor) (clock : Clock) (unit : Migration) : Attempt :=
  .timed clock (executor unit).isOk unit

theorem attempts_recordAll_eq (executor : Executor) (clock : Clock) (report : Rollout)
    (units : List Migration) :
    (recordAll executor clock report units).attempts =
      report.attempts ++ units.map (attempt executor clock) := by
  induction units generalizing report with
  | nil => simp [recordAll]
  | cons unit rest ih =>
    rw [recordAll, List.foldl_cons, ← recordAll, ih]
    cases outcome : executor unit <;>
      simp [record, attempt, outcome, Except.isOk, Except.toBool]

theorem executed_recordAll (executor : Executor) (clock : Clock) (report : Rollout)
    (units : List Migration) :
    (recordAll executor clock report units).executed =
      report.executed + (units.filter fun unit => (executor unit).isOk).length := by
  induction units generalizing report with
  | nil => rfl
  | cons unit rest ih =>
    rw [recordAll, List.foldl_cons, ← recordAll, ih]
    cases outcome : executor unit with
    | error cause => simp [record, outcome, Except.isOk, Except.toBool]
    | ok _ =>
      simp only [record, outcome, Except.isOk, Except.toBool, List.filter_cons, if_true,
        List.length_cons]
      omega

/-- Units that succeed are reported as such, and nothing else is. -/
theorem recordAll_of_forall_ok (rollout : Rollout)
    (succeed : ∀ unit ∈ units, executor unit = .ok ()) :
    (recordAll executor clock rollout units).attempts =
        rollout.attempts ++ units.map (.timed clock true) ∧
      (recordAll executor clock rollout units).executed = rollout.executed + units.length ∧
      (recordAll executor clock rollout units).failure = rollout.failure := by
  induction units generalizing rollout with
  | nil => simp [recordAll]
  | cons unit rest ih =>
    obtain ⟨outcome, others⟩ := List.forall_mem_cons.mp succeed
    have step : recordAll executor clock rollout (unit :: rest) =
        recordAll executor clock (rollout.record clock unit (.ok ())) rest := by
      rw [recordAll, List.foldl_cons, outcome, recordAll]
    obtain ⟨attempts, executed, failure⟩ := ih (rollout.record clock unit (.ok ())) others
    rw [step, attempts, executed, failure]
    refine ⟨?_, ?_, rfl⟩
    · simp [record]
    · simp only [record, List.length_cons]
      omega

/-- A unit that fails after others have succeeded is reported with its failure. -/
theorem recordAll_of_stuck (rollout : Rollout) {done : List Migration} {stuck : Migration}
    {cause : Error} (succeed : ∀ unit ∈ done, executor unit = .ok ())
    (failure : executor stuck = .error cause) :
    (recordAll executor clock rollout (done ++ [stuck])).attempts =
        rollout.attempts ++ done.map (.timed clock true) ++ [.timed clock false stuck] ∧
      (recordAll executor clock rollout (done ++ [stuck])).executed =
        rollout.executed + done.length ∧
      (recordAll executor clock rollout (done ++ [stuck])).failure =
        some (.migrationFailed stuck.identity cause) := by
  obtain ⟨attempts, executed, _⟩ := recordAll_of_forall_ok rollout succeed
  rw [recordAll_append, ← attempts, ← executed, recordAll, List.foldl_cons, List.foldl_nil, failure]
  exact ⟨rfl, rfl, rfl⟩

/-- A rollout that is not stopped has executed its whole plan. -/
theorem attempted_of_unfailed {report : Rollout}
    (unfailed : (recordAll executor clock report (attempted executor units)).failure = none) :
    attempted executor units = units ∧ ∀ unit ∈ units, executor unit = .ok () := by
  rcases attempted_cases executor units with all | ⟨done, stuck, _, _, _, tried, succeed, failure⟩
  · exact all
  · rw [tried, (recordAll_of_stuck _ succeed failure).2.2] at unfailed
    cases unfailed

end Report

section Memory

variable {deployment : Deployment MemoryLedger}

/-- Executing planned units appends the record of each one that was executed. -/
theorem attemptAll_apply (executor : Executor) (config : Config) (clock : Clock) (rollout : Rollout)
    (units : List Migration) (deployment : Deployment MemoryLedger) :
    attemptAll executor config clock rollout units deployment =
      (.ok (recordAll executor clock rollout (attempted executor units)),
        { store := deployment.store.appendAll
            (entries executor config clock (attempted executor units))
          executed := deployment.executed ++ attempted executor units }) := by
  induction units generalizing rollout deployment with
  | nil => simp [attemptAll, attempted, entries, recordAll]
  | cons unit rest ih =>
    rw [attemptAll, Work.bind_apply, Deployment.execute_apply]
    simp only [Work.bind_apply, Deployment.onStore_apply, MemoryLedger.append_apply]
    cases outcome : executor unit with
    | ok _ =>
      simp only [ih, attempted, outcome, entries, recordAll, Except.isOk, Except.toBool,
        List.map_cons, List.foldl_cons, MemoryLedger.appendAll_cons, List.append_assoc,
        List.singleton_append]
    | error cause =>
      simp [attempted, outcome, entries, recordAll, Except.isOk, Except.toBool,
        MemoryLedger.appendAll_cons]

/-- Nothing is recorded before the plan on a ledger that was seeded and still has rows. -/
theorem seeds_eq_nil_of_seeded {config : Config} (clock : Clock) {later : Clock}
    (ledger : MemoryLedger) {rows : List Row}
    (bare : rows = [] → (seeded config clock ledger).rows = []) :
    seeds config later rows = [] := by
  cases enabled : config.baselineOnMigrate with
  | false => simp [seeds, enabled]
  | true =>
    cases rows with
    | cons row rest => rfl
    | nil =>
      have unseeded := bare rfl
      rw [seeded, MemoryLedger.rows_appendAll, List.append_eq_nil_iff] at unseeded
      simp [unseeded.1, seeds, enabled, Entry.ranked] at unseeded

theorem consistent_seeded {ledger : MemoryLedger} (config : Config) (clock : Clock)
    (consistent : ledger.Consistent) : (seeded config clock ledger).Consistent := by
  apply consistent.appendAll
  intro entry member
  rw [seeds] at member
  split at member
  · rw [List.mem_singleton.mp member]
    rfl
  · cases member

theorem consistent_entries {ledger : MemoryLedger} {units : List Migration} (executor : Executor)
    (config : Config) (clock : Clock) (consistent : ledger.Consistent)
    (plain : ∀ unit ∈ units, unit.isPlain = true) :
    (ledger.appendAll (entries executor config clock units)).Consistent := by
  apply consistent.appendAll
  intro entry member
  obtain ⟨unit, present, rfl⟩ := List.mem_map.mp member
  exact (Migration.kind_of_isPlain (plain unit present)).2.2

theorem hasRoom_seeded {ledger : MemoryLedger} {count : Nat} (config : Config) (clock : Clock)
    (room : ledger.HasRoom (count + 1)) : (seeded config clock ledger).HasRoom count := by
  refine (room.mono ?_).appendAll
  rw [seeds]
  split <;> simp +arith

theorem hasRoom_entries {ledger : MemoryLedger} {units : List Migration} {count : Nat}
    (executor : Executor) (config : Config) (clock : Clock)
    (room : ledger.HasRoom (units.length + count)) :
    (ledger.appendAll (entries executor config clock units)).HasRoom count := by
  refine MemoryLedger.HasRoom.appendAll ?_
  rwa [entries, List.length_map]

/-- The rows that a rollout plans on. -/
theorem readBaselined_apply (executor : Executor) (config : Config) (clock : Clock)
    (checked : checkConsistent deployment.store.rows = .ok ()) :
    readBaselined executor config clock deployment =
      (.ok ((seeded config clock deployment.store).rows,
          !(seeds config clock deployment.store.rows).isEmpty),
        { deployment with store := seeded config clock deployment.store }) := by
  have read : Deployment.onStore LedgerStore.readConsistent deployment =
      (.ok deployment.store.rows, deployment) := by
    rw [Deployment.onStore_apply, MemoryLedger.readConsistent_of_checked checked]
  rw [readBaselined, Work.bind_apply_of_ok read, seeded, seeds]
  by_cases begins : (deployment.store.rows.isEmpty && config.baselineOnMigrate) = true
  · have empty : deployment.store.rows = [] := by
      simpa using (Bool.and_eq_true_iff.mp begins).1
    rw [if_pos begins, if_pos begins]
    rw [Work.bind_apply, BaselineRequest.run_empty executor clock empty rfl]
    simp only [BaselineRequest.record_apply]
    have checked : checkConsistent (deployment.store.append (BaselineRequest.marker
        { version := config.baselineVersion
          description := config.baselineDescription
          installedBy := config.installedBy } clock)).rows = .ok () := by
      rw [MemoryLedger.append, empty]
      rfl
    rw [Work.bind_apply, Deployment.onStore_apply, MemoryLedger.readConsistent_of_checked checked,
      MemoryLedger.appendAll_cons, MemoryLedger.appendAll_nil]
    rfl
  · rw [if_neg begins, if_neg begins, MemoryLedger.appendAll_nil]
    rfl

/-- A rollout on a consistent ledger seeds it and then executes what it plans, unless it is
blocked. -/
theorem run_apply (catalog : Catalog) (executor : Executor) (config : Config) (clock : Clock)
    (checked : checkConsistent deployment.store.rows = .ok ()) :
    run catalog executor config clock deployment =
      match (Validation.of catalog (seeded config clock deployment.store).rows config).blocking
          config with
      | [] =>
          let units := attempted executor (planned catalog config clock deployment.store)
          (.ok ((recordAll executor clock (begun catalog config clock deployment.store)
              units).finish clock),
            { store := (seeded config clock deployment.store).appendAll
                (entries executor config clock units)
              executed := deployment.executed ++ units })
      | blocking =>
          (.error (.validation (.issues blocking)),
            { deployment with store := seeded config clock deployment.store }) := by
  rw [run, Work.bind_apply_of_ok (readBaselined_apply executor config clock checked)]
  dsimp only
  cases (Validation.of catalog (seeded config clock deployment.store).rows config).blocking config
  · dsimp only
    rw [Work.bind_apply_of_ok (attemptAll_apply _ _ _ _ _ _)]
    rfl
  · rfl

/-- A rollout on a clear ledger executes the plan up to the first failure. -/
theorem run_of_clear {catalog : Catalog} {config : Config} {clock : Clock} (executor : Executor)
    (checked : checkConsistent deployment.store.rows = .ok ())
    (clear : Clear catalog config (seeded config clock deployment.store).rows) :
    run catalog executor config clock deployment =
      let units := attempted executor (planned catalog config clock deployment.store)
      (.ok ((recordAll executor clock (begun catalog config clock deployment.store) units).finish
          clock),
        { store := (seeded config clock deployment.store).appendAll
            (entries executor config clock units)
          executed := deployment.executed ++ units }) := by
  rw [run_apply catalog executor config clock checked, blocking_eq_nil_iff_clear.mpr clear]

theorem clear_of_run_eq_ok {catalog : Catalog} {executor : Executor} {config : Config}
    {clock : Clock} {after : Deployment MemoryLedger} {rollout : Rollout}
    (checked : checkConsistent deployment.store.rows = .ok ())
    (ran : run catalog executor config clock deployment = (.ok rollout, after)) :
    Clear catalog config (seeded config clock deployment.store).rows := by
  rw [run_apply catalog executor config clock checked] at ran
  refine blocking_eq_nil_iff_clear.mp ?_
  split at ran
  · assumption
  · cases ran

end Memory

end Rollout

end SchemaLedger
