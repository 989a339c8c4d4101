import SchemaLedger.Proofs.Engine.Outcome

/-!
# What an engine answers

`info`, `validate` and `migrate` all begin with the catalog and the rows, which have to be
consistent. `catalogFor` is that beginning, and each of the three is stated through it, so that what
they answer can be compared.
-/

namespace SchemaLedger

def Completion.value? {α : Type} : Except Error (Completion α) → Option α
  | .ok (.finished value) => some value
  | _ => none

/-- Work that has a value was done. -/
theorem Completion.exists_of_value? {α σ : Type} {work : Work σ (Completion α)} {before : σ}
    {value : α} (done : value? (work before).1 = some value) :
    ∃ after, work before = (.ok (.finished value), after) := by
  rcases ran : work before with ⟨error | other | _, after⟩ <;> rw [ran] at done <;> cases done
  exact ⟨after, rfl⟩

namespace Engine

variable {before after : Deployment MemoryLedger} {rollout : Rollout}

/-- The catalog that an engine brings to a ledger with the given rows, which have to be consistent.
-/
def catalogFor (engine : Engine) (rows : List Row) : Except Error Catalog := do
  let catalog ← engine.loadCatalog
  checkConsistent rows
  return catalog

theorem info_apply (engine : Engine) (before : Deployment MemoryLedger) :
    engine.info before =
      ((engine.catalogFor before.store.rows).map fun catalog => .of catalog before.store.rows,
        before) := by
  have applied := engine.withCatalog_apply (fun catalog => do
    let rows ← Deployment.onStore LedgerStore.readConsistent
    return Overview.of catalog rows) before
  rw [info, applied, catalogFor]
  cases engine.loadCatalog with
  | error error => rfl
  | ok catalog =>
    simp only [Work.bind_apply, Deployment.onStore_apply, MemoryLedger.readConsistent_apply]
    cases checkConsistent before.store.rows <;> rfl

theorem validate_apply (engine : Engine) (before : Deployment MemoryLedger) :
    engine.validate before =
      ((engine.catalogFor before.store.rows).bind fun catalog =>
        (Validation.of catalog before.store.rows engine.config).accepted, before) := by
  have applied := engine.withCatalog_apply (fun catalog => do
    let rows ← Deployment.onStore LedgerStore.readConsistent
    (Validation.of catalog rows engine.config).accepted) before
  rw [validate, applied, catalogFor]
  cases engine.loadCatalog with
  | error error => rfl
  | ok catalog =>
    simp only [Work.bind_apply, Deployment.onStore_apply, MemoryLedger.readConsistent_apply]
    cases checkConsistent before.store.rows with
    | error error => rfl
    | ok _ => simp only [Except.map, Work.liftExcept_apply]; rfl

theorem migrate_apply (engine : Engine) (free : before.store.locked = false) :
    engine.migrate before =
      match engine.catalogFor before.store.rows with
      | .error error => (.error error, before)
      | .ok catalog =>
          match (Validation.of catalog before.store.rows engine.config).blocking engine.config with
          | [] =>
              (.ok (.finished (Rollout.reportOn catalog engine.executor engine.config engine.clock
                  before.store)),
                { store := Rollout.rolledOut catalog engine.executor engine.config engine.clock
                    before.store
                  executed := before.executed ++ Rollout.executedOn catalog engine.executor
                    engine.config engine.clock before.store })
          | blocking => (.error (.validation (.issues blocking)), before) := by
  obtain ⟨⟨table, rows, nextRank, locked⟩, executed⟩ := before
  cases free
  rw [migrate, engine.withCatalog_apply, catalogFor]
  cases engine.loadCatalog with
  | error error => rfl
  | ok catalog =>
    simp only [engine.locked_apply, Rollout.run_eq, Deployment.withLock]
    cases checkConsistent rows with
    | error error => rfl
    | ok _ =>
      dsimp only [bind, Except.bind, pure, Except.pure]
      cases (Validation.of catalog rows engine.config).blocking engine.config <;> rfl

theorem loadCatalog_of_catalogFor {engine : Engine} {rows : List Row} {catalog : Catalog}
    (found : engine.catalogFor rows = .ok catalog) : engine.loadCatalog = .ok catalog := by
  rw [catalogFor] at found
  cases loaded : engine.loadCatalog with
  | error error => simp [loaded, bind, Except.bind] at found
  | ok other =>
    cases checked : checkConsistent rows <;>
      simp_all [bind, Except.bind, pure, Except.pure]

/-- A migrate whose lock someone else holds never ends, or ends with an error. -/
theorem not_finished_of_held (engine : Engine) (held : before.store.locked = true)
    (rollout : Rollout) : (engine.migrate before).1 ≠ .ok (.finished rollout) := by
  rw [migrate, engine.withCatalog_apply]
  cases engine.loadCatalog with
  | error error => simp
  | ok catalog =>
    simp only [engine.locked_apply_of_held _ held]
    cases engine.config.lockTimeout <;> simp

/-- A migrate that reports on a rollout had a catalog and the lock, and nothing blocked it. -/
theorem finished_of_migrate {engine : Engine}
    (migrated : engine.migrate before = (.ok (.finished rollout), after)) :
    ∃ catalog, engine.loadCatalog = .ok catalog ∧
      Clear catalog engine.config before.store.rows ∧
      rollout = Rollout.reportOn catalog engine.executor engine.config engine.clock before.store ∧
      after =
        { store := Rollout.rolledOut catalog engine.executor engine.config engine.clock before.store
          executed := before.executed ++ Rollout.executedOn catalog engine.executor engine.config
            engine.clock before.store } := by
  cases held : before.store.locked with
  | true =>
    have unfinished := engine.not_finished_of_held held rollout
    rw [migrated] at unfinished
    exact absurd rfl unfinished
  | false =>
    rw [migrate_apply engine held] at migrated
    split at migrated
    · cases migrated
    · rename_i catalog found
      split at migrated
      · rename_i nothing
        cases migrated
        exact ⟨catalog, loadCatalog_of_catalogFor found, blocking_eq_nil_iff_clear.mp nothing, rfl,
          rfl⟩
      · cases migrated

theorem exists_of_migrate_eq_finished {engine : Engine}
    (migrated : engine.migrate before = (.ok (.finished rollout), after)) :
    ∃ catalog, engine.loadCatalog = .ok catalog ∧
      Clear catalog engine.config before.store.rows ∧
      rollout = Rollout.reportOn catalog engine.executor engine.config engine.clock before.store ∧
      after.store =
        Rollout.rolledOut catalog engine.executor engine.config engine.clock before.store := by
  obtain ⟨catalog, loaded, clear, report, left⟩ := finished_of_migrate migrated
  exact ⟨catalog, loaded, clear, report, congrArg Deployment.store left⟩

end Engine

end SchemaLedger
