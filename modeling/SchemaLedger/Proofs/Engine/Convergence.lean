import Mathlib
import SchemaLedger.Proofs.Engine.Progress
import SchemaLedger.Proofs.Engine.Seeding

/-!
# Rollouts converge

A rollout that ends without a failure leaves nothing to do: whatever the configuration, the same
rollout is not blocked afterwards and plans nothing, and the only units that are still due are held
back by the target. It takes the ranks of a baseline and of one row for each unit at most.
-/

namespace SchemaLedger

namespace Rollout

section Ledger

variable {config : Config} {clock : Clock} {ledger : MemoryLedger} {executor : Executor}
  {units : List Migration}

/-- The records of units that succeeded. -/
theorem rows_appendAll_entries (config : Config) (clock : Clock) (ledger : MemoryLedger)
    (succeed : ∀ unit ∈ units, executor unit = .ok ()) :
    (ledger.appendAll (entries executor config clock units)).rows =
      ledger.rows ++ recorded ledger.nextRank config.installedBy clock units := by
  rw [MemoryLedger.rows_appendAll, entries_of_forall_ok config clock succeed, recorded]

/-- A rollout that has nothing to seed and nothing to execute changes nothing. -/
theorem run_of_nothing_due {catalog : Catalog} {deployment : Deployment MemoryLedger}
    (executor : Executor) (checked : checkConsistent deployment.store.rows = .ok ())
    (unseeded : seeds config clock deployment.store.rows = [])
    (clear : Clear catalog config deployment.store.rows)
    (nothing : plan config (Overview.of catalog deployment.store.rows) = []) :
    run catalog executor config clock deployment =
      (.ok ((begun catalog config clock deployment.store).finish clock), deployment) := by
  have same : seeded config clock deployment.store = deployment.store := by
    rw [seeded, unseeded, MemoryLedger.appendAll_nil]
  rw [run_of_clear executor checked (same.symm ▸ clear), planned, same, nothing]
  simp [attempted, recordAll, entries]

/-- If nothing is planned, the units that are still pending are above the target. -/
theorem exists_target_lt_of_mem_pending {catalog : Catalog} {rows : List Row} {info : Info}
    (nothing : plan config (Overview.of catalog rows) = [])
    (due : info ∈ (Overview.of catalog rows).pending) :
    ∃ unit ∈ catalog.migrations, info.migration? = some unit ∧ ∃ version target,
      unit.version = some version ∧ config.target = some target ∧ target < version := by
  rw [pending_eq] at due
  obtain ⟨unit, present, rfl⟩ := List.mem_map.mp due
  obtain ⟨member, isDue⟩ := List.mem_filter.mp ((Migration.inOrder_perm _).mem_iff.mp present)
  refine ⟨unit, member, Info.migration?_ofMigration _ _ _, ?_⟩
  have beyond : isWithinTarget config unit = false := by
    rw [← Bool.not_eq_true]
    intro within
    have listed := mem_plan_iff.mpr ⟨member, within, isDue⟩
    rw [nothing] at listed
    cases listed
  cases version : unit.version <;> cases target : config.target <;>
    simp [isWithinTarget, isWithinTarget.isAboveTarget, version, target] at beyond
  exact ⟨_, _, rfl, rfl, beyond⟩

end Ledger

/-- After a rollout without a failure the same rollout does nothing, and what is still due is above
the target. -/
theorem converges (catalog : Catalog) (plain : ∀ unit ∈ catalog.migrations, unit.isPlain = true)
    (executor : Executor) (config : Config) (clock : Clock)
    {deployment after : Deployment MemoryLedger} {rollout : Rollout}
    (consistent : deployment.store.Consistent)
    (room : deployment.store.HasRoom (catalog.size + 1))
    (ran : run catalog executor config clock deployment = (.ok rollout, after))
    (unfailed : rollout.failure = none) :
    after.store.HasRoom 0 ∧
    (∀ next later, ∃ again, run catalog next config later after = (.ok again, after) ∧
      again.isNoop = true ∧ again.executed = 0 ∧ again.failure = none) ∧
    ∀ info ∈ (Overview.of catalog after.store.rows).pending, ∃ unit ∈ catalog.migrations,
      info.migration? = some unit ∧ ∃ version target, unit.version = some version ∧
        config.target = some target ∧ target < version := by
  have clear := clear_of_run_eq_ok consistent.checked ran
  rw [run_of_clear executor consistent.checked clear] at ran
  cases ran
  refine ⟨hasRoom_rolledOut executor config clock room, ?_⟩
  obtain ⟨whole, succeed⟩ := attempted_of_unfailed unfailed
  have rows := rows_appendAll_entries config clock (seeded config clock deployment.store) succeed
  have split : plan config (Overview.of catalog (seeded config clock deployment.store).rows) =
      planned catalog config clock deployment.store ++ [] := (List.append_nil _).symm
  have offered (unit : Migration) (member : unit ∈ planned catalog config clock deployment.store) :
      unit.isPlain = true :=
    plain unit (mem_plan_iff.mp member).1
  have settled := consistent_entries executor config clock
    (consistent_seeded config clock consistent) offered
  have nothing := plan_append_recorded (seeded config clock deployment.store).nextRank
    config.installedBy clock split plain
  have stillClear := clear.append_recorded (seeded config clock deployment.store).nextRank
    config.installedBy clock split plain
  rw [← rows] at nothing stillClear
  simp only [whole]
  constructor
  · intro next later
    have unseeded : seeds config later
        ((seeded config clock deployment.store).appendAll (entries executor config clock
          (planned catalog config clock deployment.store))).rows = [] :=
      seeds_eq_nil_of_seeded clock deployment.store fun bare => (List.append_eq_nil_iff.mp bare).1
    exact ⟨_, run_of_nothing_due next settled.checked unseeded stillClear nothing, rfl, rfl, rfl⟩
  · intro info due
    exact exists_target_lt_of_mem_pending nothing due

section Target

private def openAccounts : Migration :=
  .ofProcedure (.versioned (.ofMajor 1) "open accounts") {} none

private def closeAccounts : Migration :=
  .ofProcedure (.versioned (.ofMajor 2) "close accounts") {} none

def accountCatalog : Catalog := ⟨[closeAccounts, openAccounts], by decide⟩

/-- A configuration that lets units up to version 1 run. -/
def upToFirst : Config := { target := some (.ofMajor 1) }

theorem converges_accountCatalog :
    (MemoryLedger.empty defaultTable).HasRoom (accountCatalog.size + 1) ∧
    ∃ rollout after,
      run accountCatalog (fun _ => .ok ()) upToFirst (.still ⟨0, 0⟩) (.new defaultTable) =
        (.ok rollout, after) ∧
      rollout.failure = none ∧ (Overview.of accountCatalog after.store.rows).pending.length = 1 ∧
      after.store.HasRoom 0 ∧
      (∀ next later, ∃ again, run accountCatalog next upToFirst later after = (.ok again, after) ∧
        again.isNoop = true ∧ again.executed = 0 ∧ again.failure = none) ∧
      ∀ info ∈ (Overview.of accountCatalog after.store.rows).pending,
        ∃ unit ∈ accountCatalog.migrations, info.migration? = some unit ∧
          ∃ version target, unit.version = some version ∧ upToFirst.target = some target ∧
            target < version := by
  have room : (MemoryLedger.empty defaultTable).HasRoom (accountCatalog.size + 1) := by decide
  refine ⟨room, ?_⟩
  have outcome : (run accountCatalog (fun _ => .ok ()) upToFirst (.still ⟨0, 0⟩)
      (.new defaultTable)).1.toOption.map (·.failure.isNone) = some true := by cbv
  have left : (Overview.of accountCatalog (run accountCatalog (fun _ => .ok ()) upToFirst
      (.still ⟨0, 0⟩) (.new defaultTable)).2.store.rows).pending.length = 1 := by cbv
  rcases ran : run accountCatalog (fun _ => .ok ()) upToFirst (.still ⟨0, 0⟩)
    (.new defaultTable) with ⟨result, after⟩
  rw [ran] at outcome left
  cases result with
  | error error => cases outcome
  | ok rollout =>
    have unfailed : rollout.failure = none := Option.isNone_iff_eq_none.mp (Option.some.inj outcome)
    exact ⟨rollout, after, rfl, unfailed, left,
      converges accountCatalog (by decide) _ _ _ (MemoryLedger.consistent_empty _) room ran
        unfailed⟩

end Target

end Rollout

end SchemaLedger
