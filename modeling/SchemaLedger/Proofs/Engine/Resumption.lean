import SchemaLedger.Proofs.Engine.Convergence
import SchemaLedger.Proofs.Engine.Stability

/-!
# Rollouts can be resumed

A rollout that was stopped by a unit has recorded the units before it and the failure. A repair
removes the failure and keeps the rest of the ledger clear, so the next rollout begins with the
unit that was stuck, and the two rollouts together do what a single one would have done. Besides a
baseline and one row for each unit they write the failure.
-/

namespace SchemaLedger

namespace Rollout

/-- A rollout on the deployment executes just the given units, in order, all of them succeed, and
there are ranks for them. -/
def Completes (catalog : Catalog) (executor : Executor) (config : Config) (clock : Clock)
    (deployment : Deployment MemoryLedger) (units : List Migration) : Prop :=
  ∃ rollout after, run catalog executor config clock deployment = (.ok rollout, after) ∧
    rollout.failure = none ∧ rollout.attempts = units.map (.timed clock true) ∧
    rollout.executed = units.length ∧ after.executed = deployment.executed ++ units ∧
    after.store.HasRoom 0

/-- On a clear ledger a rollout completes its plan if all units of the catalog succeed. -/
theorem completes_of_clear {catalog : Catalog} {executor : Executor} {config : Config}
    {clock : Clock} {deployment : Deployment MemoryLedger}
    (checked : checkConsistent deployment.store.rows = .ok ())
    (clear : Clear catalog config (seeded config clock deployment.store).rows)
    (room : (seeded config clock deployment.store).HasRoom
      (planned catalog config clock deployment.store).length)
    (succeed : ∀ unit ∈ catalog.migrations, executor unit = .ok ()) :
    Completes catalog executor config clock deployment
      (planned catalog config clock deployment.store) := by
  have all : ∀ unit ∈ planned catalog config clock deployment.store, executor unit = .ok () :=
    fun unit member => succeed unit (mem_plan_iff.mp member).1
  obtain ⟨attempts, executed, failure⟩ :=
    recordAll_of_forall_ok (begun catalog config clock deployment.store) all
  have ran := run_of_clear executor checked clear
  rw [attempted_of_forall_ok all] at ran
  refine ⟨_, _, ran, failure, ?_, ?_, rfl, hasRoom_entries executor config clock room⟩
  · rw [attempts_finish, attempts, begun, start, List.nil_append]
  · rw [executed_finish, executed, begun, start, Nat.zero_add]

/-- A successful row of a unit with the checksum of the unit is left as it is by a repair. -/
theorem settledRows_recorded {catalog : Catalog} {rank : Int} {installedBy : String} {clock : Clock}
    {units : List Migration} (offered : ∀ unit ∈ units, unit ∈ catalog.migrations) :
    RepairReport.settledRows catalog (recorded rank installedBy clock units) =
      recorded rank installedBy clock units := by
  have kept (row : Row) (member : row ∈ recorded rank installedBy clock units) :
      (Disposition.of catalog row).apply row = some row := by
    obtain ⟨unit, present, entry⟩ := exists_unit_of_mem_recorded member
    have found : catalog.find? row.identity = some unit :=
      Catalog.find?_eq_some_iff.mpr ⟨offered unit present, by rw [entry]; rfl⟩
    have success : row.success = true := by rw [entry]; rfl
    have checksum : row.checksum = unit.checksum := by rw [entry]; rfl
    have settled := Disposition.settled_apply catalog row
    generalize (Disposition.of catalog row).apply row = result at settled
    cases settled with
    | failed _ failure => simp [success] at failure
    | versioned _ _ other same =>
      cases found.symm.trans same
      rw [← checksum]
      rfl
    | deleted _ _ gone => simp [found] at gone
    | _ => rfl
  rw [RepairReport.settledRows, List.filterMap_congr kept, List.filterMap_some]

section Stopped

variable {catalog : Catalog} {ledger : MemoryLedger} {done rest : List Migration}
  {stuck : Migration} (config : Config) (clock : Clock)

/-- The ledger after some units have succeeded. -/
def progressed (ledger : MemoryLedger) (done : List Migration) : MemoryLedger :=
  ledger.appendAll (entries (fun _ => .ok ()) config clock done)

/-- The row of a unit that fails next. -/
def failedRow (ledger : MemoryLedger) (stuck : Migration) : Row :=
  (Entry.ofExecution stuck config.installedBy clock false).atRank ledger.nextRank

/-- The ledger after some units have succeeded and one has failed. -/
def stoppedAt (ledger : MemoryLedger) (done : List Migration) (stuck : Migration) : MemoryLedger :=
  (progressed config clock ledger done).append (.ofExecution stuck config.installedBy clock false)

theorem rows_progressed : (progressed config clock ledger done).rows =
    ledger.rows ++ recorded ledger.nextRank config.installedBy clock done := rfl

theorem rows_stoppedAt : (stoppedAt config clock ledger done stuck).rows =
    (progressed config clock ledger done).rows ++
      [failedRow config clock (progressed config clock ledger done) stuck] := rfl

/-- What a rollout leaves that was stopped by a unit. -/
theorem appendAll_entries_of_stuck {executor : Executor} {cause : Error}
    (succeed : ∀ unit ∈ done, executor unit = .ok ()) (failure : executor stuck = .error cause) :
    ledger.appendAll (entries executor config clock (done ++ [stuck])) =
      stoppedAt config clock ledger done stuck := by
  have records := entries_of_forall_ok config clock succeed
  rw [entries] at records
  rw [entries, List.map_append, MemoryLedger.appendAll_append, records, stoppedAt,
    List.map_singleton, MemoryLedger.appendAll_cons, MemoryLedger.appendAll_nil, failure]
  rfl

theorem consistent_stoppedAt (consistent : ledger.Consistent)
    (plain : ∀ unit ∈ done, unit.isPlain = true) (plainStuck : stuck.isPlain = true) :
    (stoppedAt config clock ledger done stuck).Consistent :=
  (consistent_entries _ config clock consistent plain).append
    (Migration.kind_of_isPlain plainStuck).2.2

theorem disposition_failedRow (plain : stuck.isPlain = true) :
    Disposition.of catalog (failedRow config clock ledger stuck) = .remove := by
  refine Disposition.of_eq_remove ?_ rfl
  simp [failedRow, Entry.atRank, Entry.ofExecution, Entry.isVisible,
    (Migration.kind_of_isPlain plain).1]

/-- A repair takes the failure back and keeps every success before it. -/
theorem settledRows_stoppedAt (ledger : MemoryLedger) (plain : stuck.isPlain = true)
    (offered : ∀ unit ∈ done, unit ∈ catalog.migrations) :
    RepairReport.settledRows catalog (stoppedAt config clock ledger done stuck).rows =
      RepairReport.settledRows catalog ledger.rows ++
        recorded ledger.nextRank config.installedBy clock done := by
  have removed : RepairReport.settledRows catalog
      [failedRow config clock (progressed config clock ledger done) stuck] = [] := by
    rw [RepairReport.settledRows, List.filterMap_cons, disposition_failedRow config clock plain]
    rfl
  rw [rows_stoppedAt, RepairReport.settledRows_append, removed, List.append_nil, rows_progressed,
    RepairReport.settledRows_append, settledRows_recorded offered]

/-- A repair leaves no row at the rank of the failure. -/
theorem rank_ne_of_mem_settledRows_stoppedAt (consistent : ledger.Consistent)
    (plain : ∀ unit ∈ done, unit.isPlain = true) (plainStuck : stuck.isPlain = true) {row : Row}
    (left : row ∈
      RepairReport.settledRows catalog (stoppedAt config clock ledger done stuck).rows) :
    row.rank ≠ (failedRow config clock (progressed config clock ledger done) stuck).rank := by
  obtain ⟨before, member, stays⟩ := RepairReport.mem_settledRows.mp left
  have rank := Disposition.rank_eq_of_apply_eq_some stays
  rw [rows_stoppedAt] at member
  rcases List.mem_append.mp member with earlier | last
  · have below := (consistent_entries _ config clock consistent plain).fresh before earlier
    rw [rank]
    exact Int.ne_of_lt below
  · rw [List.mem_singleton.mp last, disposition_failedRow config clock plainStuck] at stays
    cases stays

/-- Where there are ranks for a baseline, for each unit and for a failure, a stopped rollout leaves
some for what it has not executed. -/
theorem hasRoom_stoppedAt (split : planned catalog config clock ledger = done ++ stuck :: rest)
    (room : ledger.HasRoom (catalog.size + 2)) :
    (stoppedAt config clock (seeded config clock ledger) done stuck).HasRoom
      (stuck :: rest).length := by
  have fits : (done ++ stuck :: rest).length ≤ catalog.size := by
    rw [← split]
    exact length_plan_le catalog config _
  refine MemoryLedger.HasRoom.append (hasRoom_entries _ config clock ?_)
  refine (hasRoom_seeded config clock room).mono ?_
  rw [List.length_append] at fits
  omega

/-- After a stopped rollout and a repair, the rest of the plan is planned on a clear ledger. -/
theorem clear_and_planned_of_stuck {config clock} {stopped : MemoryLedger} (later : Clock)
    (plain : ∀ unit ∈ catalog.migrations, unit.isPlain = true)
    (clear : Clear catalog config (seeded config clock ledger).rows)
    (split : planned catalog config clock ledger = done ++ rest)
    (rows : RepairReport.settledRows catalog stopped.rows =
      RepairReport.settledRows catalog (seeded config clock ledger).rows ++
        recorded (seeded config clock ledger).nextRank config.installedBy clock done) :
    let repaired := { stopped with rows := RepairReport.settledRows catalog stopped.rows }
    seeded config later repaired = repaired ∧
      Clear catalog config (seeded config later repaired).rows ∧
      planned catalog config later repaired = rest := by
  intro repaired
  have left : repaired.rows = _ := rows
  -- A repair empties no clear ledger that has rows, so the next rollout adds no baseline.
  have unseeded : seeds config later repaired.rows = [] := by
    apply seeds_eq_nil_of_seeded clock ledger
    intro bare
    by_contra history
    rw [left, List.append_eq_nil_iff] at bare
    exact RepairReport.settledRows_ne_nil clear history bare.1
  have same : seeded config later repaired = repaired := by
    rw [seeded, unseeded, MemoryLedger.appendAll_nil]
  have unchanged := RepairReport.plan_settledRows clear
  rw [← planned, split] at unchanged
  rw [planned, same, left]
  exact ⟨rfl, (RepairReport.clear_settledRows clear).append_recorded _ _ _ unchanged plain,
    plan_append_recorded _ _ _ unchanged plain⟩

/-- A repair of a stopped rollout removes the failure, and after it a rollout completes the rest of
the plan. -/
theorem repair_of_stuck {config clock} {deployment after : Deployment MemoryLedger}
    (plain : ∀ unit ∈ catalog.migrations, unit.isPlain = true)
    (consistent : deployment.store.Consistent)
    (room : deployment.store.HasRoom (catalog.size + 2))
    (clear : Clear catalog config (seeded config clock deployment.store).rows)
    (split : planned catalog config clock deployment.store = done ++ stuck :: rest)
    (stopped :
      after.store = stoppedAt config clock (seeded config clock deployment.store) done stuck) :
    ∃ report repaired failed,
      Deployment.onStore (RepairReport.run catalog) after = (.ok report, repaired) ∧
        failed ∈ after.store.rows ∧ failed.identity = stuck.identity ∧ failed.success = false ∧
        failed ∈ report.removed ∧ (∀ row ∈ repaired.store.rows, row.rank ≠ failed.rank) ∧
        ∀ next, (∀ unit ∈ catalog.migrations, next unit = .ok ()) → ∀ later,
          Completes catalog next config later repaired (stuck :: rest) := by
  have offered (unit : Migration) (member : unit ∈ done ++ stuck :: rest) :
      unit ∈ catalog.migrations := by
    rw [← split] at member
    exact (mem_plan_iff.mp member).1
  have offeredDone (unit : Migration) (member : unit ∈ done) : unit ∈ catalog.migrations :=
    offered unit (List.mem_append_left _ member)
  have plainDone (unit : Migration) (member : unit ∈ done) : unit.isPlain = true :=
    plain unit (offeredDone unit member)
  have plainStuck : stuck.isPlain = true :=
    plain stuck (offered stuck (List.mem_append_right _ List.mem_cons_self))
  have begins := consistent_seeded config clock consistent
  have ends := consistent_stoppedAt config clock begins plainDone plainStuck
  rw [← stopped] at ends
  have final : failedRow config clock
      (progressed config clock (seeded config clock deployment.store) done) stuck ∈
        after.store.rows := by
    rw [stopped]
    exact List.mem_append_right _ (List.mem_singleton.mpr rfl)
  refine ⟨_, _, _, by rw [Deployment.onStore_apply, RepairReport.run_eq catalog ends.checked],
    final, rfl, rfl, ?_, ?_, ?_⟩
  · refine List.mem_filter.mpr ⟨final, ?_⟩
    rw [disposition_failedRow config clock plainStuck]
    rfl
  · rw [stopped]
    intro row left
    exact rank_ne_of_mem_settledRows_stoppedAt config clock begins plainDone plainStuck left
  · intro next succeeds later
    have settled : RepairReport.settledRows catalog after.store.rows =
        RepairReport.settledRows catalog (seeded config clock deployment.store).rows ++
          recorded (seeded config clock deployment.store).nextRank config.installedBy clock
            done := by
      rw [stopped]
      exact settledRows_stoppedAt config clock _ plainStuck offeredDone
    obtain ⟨unseeded, stillClear, resumed⟩ :=
      clear_and_planned_of_stuck later plain clear split settled
    have left : after.store.HasRoom (stuck :: rest).length := by
      rw [stopped]
      exact hasRoom_stoppedAt config clock split room
    rw [← resumed]
    refine completes_of_clear (RepairReport.consistent_settledRows catalog ends).checked
      stillClear ?_ succeeds
    rw [unseeded, resumed]
    exact left

end Stopped

/-- A stopped rollout, and how it is resumed: of the plan it executed the units in `done`, was
stopped by `stuck`, and never came to the units in `rest`. -/
structure Resumption (catalog : Catalog) (config : Config) (clock : Clock)
    (deployment : Deployment MemoryLedger) (rollout : Rollout) (after : Deployment MemoryLedger)
    (done : List Migration) (stuck : Migration) (rest : List Migration) : Prop where
  plan : planned catalog config clock deployment.store = done ++ stuck :: rest
  distinct : ((done ++ stuck :: rest).map (·.identity.key)).Nodup
  attempts : rollout.attempts = done.map (.timed clock true) ++ [.timed clock false stuck]
  executed : rollout.executed = done.length ∧
    after.executed = deployment.executed ++ (done ++ [stuck])
  /-- A repair removes the failure, and after it a rollout completes what is left. -/
  repair : ∃ report repaired failed,
    Deployment.onStore (RepairReport.run catalog) after = (.ok report, repaired) ∧
      failed ∈ after.store.rows ∧ failed.identity = stuck.identity ∧ failed.success = false ∧
      failed ∈ report.removed ∧ (∀ row ∈ repaired.store.rows, row.rank ≠ failed.rank) ∧
      ∀ next, (∀ unit ∈ catalog.migrations, next unit = .ok ()) → ∀ later,
        Completes catalog next config later repaired (stuck :: rest)
  /-- Without the failure a single rollout would have completed the whole plan. -/
  uninterrupted : ∀ next, (∀ unit ∈ catalog.migrations, next unit = .ok ()) →
    Completes catalog next config clock deployment (done ++ stuck :: rest)

/-- Every rollout that was stopped can be resumed. -/
theorem resumes (catalog : Catalog) (plain : ∀ unit ∈ catalog.migrations, unit.isPlain = true)
    (executor : Executor) (config : Config) (clock : Clock)
    {deployment after : Deployment MemoryLedger} {rollout : Rollout}
    (consistent : deployment.store.Consistent)
    (room : deployment.store.HasRoom (catalog.size + 2))
    (ran : run catalog executor config clock deployment = (.ok rollout, after))
    (stopped : rollout.failure.isSome = true) :
    ∃ done stuck rest,
      Resumption catalog config clock deployment rollout after done stuck rest := by
  have clear := clear_of_run_eq_ok consistent.checked ran
  rw [run_of_clear executor consistent.checked clear] at ran
  cases ran
  rcases attempted_cases executor (planned catalog config clock deployment.store) with
    ⟨all, succeed⟩ | ⟨done, stuck, rest, cause, split, tried, succeed, failure⟩
  · rw [all, failure_finish, (recordAll_of_forall_ok _ succeed).2.2] at stopped
    cases stopped
  obtain ⟨attempts, executed, _⟩ :=
    recordAll_of_stuck (begun catalog config clock deployment.store) succeed failure
  simp only [tried, appendAll_entries_of_stuck config clock succeed failure]
  refine ⟨done, stuck, rest, split, ?_, ?_, ⟨?_, rfl⟩, ?_, ?_⟩
  · rw [← split]
    exact nodup_keys_plan _ _ _
  · rw [attempts_finish, attempts, begun, start, List.nil_append]
  · rw [executed_finish, executed, begun, start, Nat.zero_add]
  · exact repair_of_stuck plain consistent room clear split rfl
  · intro next succeeds
    rw [← split]
    exact completes_of_clear consistent.checked clear
      ((hasRoom_seeded config clock room).mono ((length_plan_le catalog config _).trans (by omega)))
      succeeds

section Stuck

private def createOrders : Migration :=
  .ofProcedure (.versioned (.ofMajor 1) "create orders") {} none

private def indexOrders : Migration :=
  .ofProcedure (.versioned (.ofMajor 2) "index orders") {} none

private def orderViews : Migration := .ofProcedure (.repeatable "order views") {} none

def orderCatalog : Catalog := ⟨[orderViews, indexOrders, createOrders], by decide⟩

/-- An executor on which the unit at version 2 fails. -/
def withoutIndex : Executor := fun unit =>
  if unit.version == some (.ofMajor 2) then .error (.execution "no index") else .ok ()

theorem resumes_orderCatalog :
    (MemoryLedger.empty defaultTable).HasRoom (orderCatalog.size + 2) ∧
    ∃ rollout after, run orderCatalog withoutIndex {} (.still ⟨0, 0⟩) (.new defaultTable) =
        (.ok rollout, after) ∧
      rollout.failure.isSome = true ∧ rollout.executed = 1 ∧ ∃ done stuck rest,
        Resumption orderCatalog {} (.still ⟨0, 0⟩) (.new defaultTable) rollout after done stuck
          rest := by
  have room : (MemoryLedger.empty defaultTable).HasRoom (orderCatalog.size + 2) := by decide
  have outcome : ((run orderCatalog withoutIndex {} (.still ⟨0, 0⟩)
      (.new defaultTable)).1.toOption.map
        fun rollout => (rollout.failure.isSome, rollout.executed)) = some (true, 1) := by cbv
  rcases ran : run orderCatalog withoutIndex {} (.still ⟨0, 0⟩) (.new defaultTable) with
    ⟨result, after⟩
  rw [ran] at outcome
  cases result with
  | error error => cases outcome
  | ok rollout =>
    obtain ⟨stopped, executed⟩ := Prod.mk.inj (Option.some.inj outcome)
    exact ⟨room, rollout, after, rfl, stopped, executed,
      resumes orderCatalog (by decide) withoutIndex {} (.still ⟨0, 0⟩)
        (MemoryLedger.consistent_empty _) room ran stopped⟩

end Stuck

end Rollout

end SchemaLedger
