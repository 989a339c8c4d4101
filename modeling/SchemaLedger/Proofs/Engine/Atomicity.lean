import SchemaLedger.Proofs.Engine.Outcome

/-!
# Operations that do not go through

An operation that is rejected leaves no trace: no row is written, no unit is executed. The one
operation that fails halfway is a baseline whose initializer fails, and it leaves the record of that
failure, so that nobody takes the ledger for one that was never baselined. The lock is given back in
any case, and is never taken from someone who holds it.
-/

namespace SchemaLedger

/-- The trace of an initializer that failed: one failed row, of a baseline kind unless the
initializer is a marker. -/
structure FailureRecorded (version : Version) (initializer : Migration)
    (before after : Deployment MemoryLedger) : Prop where
  empty : before.store.rows = []
  row : ∃ row, after.store.rows = [row] ∧ row.success = false ∧ row.version = some version ∧
    row.kind = initializer.kind.asBaseline ∧
    (row.kind.isBaseline = true ↔ initializer.kind.isMarker = false)
  executed : after.executed = before.executed ++ [initializer]

/-- What can be relied on when an operation does not go through, and of its lock. -/
structure Guarded (engine : Engine) (operation : Operation) (before : Deployment MemoryLedger) :
    Prop where
  /-- An error leaves everything as it was, unless an initializer failed. -/
  rejected : ∀ error, (operation.perform engine before).1 = .error error →
    (operation.perform engine before).2 = before ∨
      ∃ version description initializer cause,
        operation = .baselineWith version description (some initializer) ∧
          engine.executor initializer = .error cause ∧
          error = .migrationFailed (.versioned version initializer.description) cause ∧
          FailureRecorded version initializer before (operation.perform engine before).2
  /-- An initializer that fails on an empty ledger is an error that is recorded. -/
  initializer : ∀ version description initializer cause,
    operation = .baselineWith version description (some initializer) →
    engine.executor initializer = .error cause → before.store.rows = [] →
    before.store.locked = false →
      (operation.perform engine before).1 =
          .error (.migrationFailed (.versioned version initializer.description) cause) ∧
        FailureRecorded version initializer before (operation.perform engine before).2
  /-- The lock is left as it was. -/
  locked : (operation.perform engine before).2.store.locked = before.store.locked
  /-- While someone else holds the lock, an operation that does not wait forever fails, because the
  catalog is rejected or because its time is up. -/
  held : before.store.locked = true → ∀ seconds, engine.config.lockTimeout = some seconds →
    (operation.perform engine before).2 = before ∧
      ∃ error, (operation.perform engine before).1 = .error error ∧
        (error = .lockFailed (.timedOut seconds before.store.table) ∨
          operation.needsCatalog = true ∧ engine.loadCatalog = .error error ∧
            ∀ units, engine.provider = .ok units → ∃ rejection, error = .validation rejection)

namespace Kind

/-- The baseline flavour of a kind is a baseline kind, unless the kind is a marker. -/
theorem isBaseline_asBaseline (kind : Kind) : kind.asBaseline.isBaseline = !kind.isMarker := by
  cases kind <;> rfl

end Kind

section Rejected

variable {engine : Engine} {operation : Operation} {before after : Deployment MemoryLedger}

theorem BaselineRequest.failureRecorded (request : BaselineRequest) (clock : Clock)
    (initializer : Migration) (empty : before.store.rows = []) :
    FailureRecorded request.version initializer before
      { store := before.store.append (request.initialized clock initializer false)
        executed := before.executed ++ [initializer] } where
  empty := empty
  row := by
    refine ⟨_, by rw [MemoryLedger.append, empty, List.nil_append], rfl, rfl, rfl, ?_⟩
    change initializer.kind.asBaseline.isBaseline = true ↔ _
    rw [Kind.isBaseline_asBaseline, Bool.not_eq_true']
  executed := rfl

/-- An operation that comes to an error changes nothing, unless an initializer failed. -/
theorem Outcome.eq_or_failureRecorded {error : Error}
    (outcome : Outcome engine operation before (.error error) after) :
    after = before ∨
      ∃ version description initializer cause,
        operation = .baselineWith version description (some initializer) ∧
          engine.executor initializer = .error cause ∧
          error = .migrationFailed (.versioned version initializer.description) cause ∧
          FailureRecorded version initializer before after := by
  cases outcome with
  | untouched => exact .inl rfl
  | initializerFailed empty request initializer cause asked failure =>
    exact .inr ⟨request.version, request.description, initializer, cause, asked, failure, rfl,
      request.failureRecorded engine.clock initializer empty⟩

end Rejected

namespace Engine

variable {α : Type} {engine : Engine} {before : Deployment MemoryLedger}

/-- The end of waiting for a lock that is never given back, if it ends. -/
def giveUp (engine : Engine) (table : String) : Except Error Unit :=
  match engine.config.lockTimeout with
  | none => .ok ()
  | some seconds => .error (.lockFailed (.timedOut seconds table))

theorem discard_locked_of_held (engine : Engine) (work : Work (Deployment MemoryLedger) α)
    (held : before.store.locked = true) :
    (do let _ ← engine.locked work : Work (Deployment MemoryLedger) Unit) before =
      (engine.giveUp before.store.table, before) := by
  rw [Work.discard_apply, engine.locked_apply_of_held work held, giveUp]
  cases engine.config.lockTimeout <;> rfl

theorem discard_withCatalog_of_held (engine : Engine)
    (work : Catalog → Work (Deployment MemoryLedger) α) (held : before.store.locked = true) :
    (do
      let _ ← (do
        prepare
        let catalog ← engine.loadCatalog
        engine.locked (work catalog) : Work (Deployment MemoryLedger) (Completion α))
      : Work (Deployment MemoryLedger) Unit) before =
      (engine.loadCatalog.bind fun _ => engine.giveUp before.store.table, before) := by
  rw [Work.discard_apply, engine.withCatalog_apply]
  cases engine.loadCatalog with
  | error error => rfl
  | ok catalog =>
    dsimp only [Except.bind]
    rw [← Work.discard_apply]
    exact engine.discard_locked_of_held (work catalog) held

end Engine

namespace Operation

variable {engine : Engine} {operation : Operation} {before : Deployment MemoryLedger}

/-- While someone else holds the lock, an operation comes to no more than its catalog. -/
theorem perform_of_held (engine : Engine) (operation : Operation)
    (held : before.store.locked = true) :
    operation.perform engine before =
      (if operation.needsCatalog then
          engine.loadCatalog.bind fun _ => engine.giveUp before.store.table
        else engine.giveUp before.store.table, before) := by
  cases operation with
  | migrate => exact engine.discard_withCatalog_of_held _ held
  | baseline => exact engine.discard_locked_of_held _ held
  | baselineWith version description initializer => exact engine.discard_locked_of_held _ held
  | repair => exact engine.discard_withCatalog_of_held _ held
  | liberate foreign => exact engine.discard_withCatalog_of_held _ held

/-- An initializer that fails is executed and recorded, if the ledger is free and empty. -/
theorem perform_of_failure (version : Version) (description : String) {initializer : Migration}
    {cause : Error} (failure : engine.executor initializer = .error cause)
    (empty : before.store.rows = []) (free : before.store.locked = false) :
    ((Operation.baselineWith version description (some initializer)).perform engine before).1 =
        .error (.migrationFailed (.versioned version initializer.description) cause) ∧
      FailureRecorded version initializer before
        ((Operation.baselineWith version description (some initializer)).perform engine
          before).2 := by
  let request : BaselineRequest :=
    { version, description, initializer := some initializer
      installedBy := engine.config.installedBy }
  have ran : request.run engine.executor engine.clock (before.withLock true) =
      (.error (.migrationFailed (.versioned version initializer.description) cause),
        { store := (before.withLock true).store.append
            (request.initialized engine.clock initializer false)
          executed := before.executed ++ [initializer] }) := by
    have bare : (before.withLock true).store.rows = [] := empty
    rw [request.run_eq, bare]
    simp only [request, failure]
    rfl
  have performed : (Operation.baselineWith version description (some initializer)).perform engine
      before = (.error (.migrationFailed (.versioned version initializer.description) cause),
        { store := before.store.append (request.initialized engine.clock initializer false)
          executed := before.executed ++ [initializer] }) := by
    change (do let _ ← engine.locked (request.run engine.executor engine.clock)) before = _
    rw [Work.discard_apply, engine.locked_apply _ free, ran]
    simp only [Deployment.withLock, MemoryLedger.append, ← free]
    rfl
  rw [performed]
  exact ⟨rfl, request.failureRecorded engine.clock initializer empty⟩

/-- An operation that does not go through leaves no trace, but for an initializer that failed. -/
theorem guarded (engine : Engine) (operation : Operation) (before : Deployment MemoryLedger) :
    Guarded engine operation before where
  rejected := by
    intro error failed
    have outcome := operation.outcome_perform engine before
    rw [failed] at outcome
    exact outcome.eq_or_failureRecorded
  initializer := by
    rintro version description initializer cause rfl failure empty free
    exact perform_of_failure version description failure empty free
  locked := (outcome_perform engine operation before).locked_eq
  held := by
    intro held seconds timeout
    have ended : engine.giveUp before.store.table =
        .error (.lockFailed (.timedOut seconds before.store.table)) := by
      rw [Engine.giveUp, timeout]
    rw [perform_of_held engine operation held, ended]
    refine ⟨rfl, ?_⟩
    cases needs : operation.needsCatalog with
    | false => exact ⟨_, rfl, .inl rfl⟩
    | true =>
      cases loaded : engine.loadCatalog with
      | ok catalog => exact ⟨_, rfl, .inl rfl⟩
      | error error =>
        have refused := Engine.provider_or_rejected_of_loadCatalog_eq_error loaded
        exact ⟨error, rfl, .inr ⟨rfl, rfl, fun _ offered =>
          refused.resolve_left (by rw [offered]; simp)⟩⟩

section Wipe

/-- A script that is typed as a deletion marker. -/
def wipe : Migration :=
  { Migration.ofScript (.versioned (.ofMajor 1) "wipe") "FAIL" with kind := .deleted }

def refusingEngine : Engine where
  executor := fun _ => .error (.store (.refused "FAIL"))
  clock := .still ⟨0, 0⟩

/-- A failed initializer that is typed as a marker leaves no row of a baseline kind. -/
theorem exists_failed_marker_row :
    ∃ row,
      ((baselineWith (.ofMajor 1) "start" (some wipe)).perform refusingEngine
          (.new defaultTable)).1 =
        .error (.migrationFailed (.versioned (.ofMajor 1) "wipe") (.store (.refused "FAIL"))) ∧
      ((baselineWith (.ofMajor 1) "start" (some wipe)).perform refusingEngine
          (.new defaultTable)).2.store.rows = [row] ∧
      row.success = false ∧ row.kind = .deleted ∧ row.kind.isBaseline = false := by
  have failure : refusingEngine.executor wipe = .error (.store (.refused "FAIL")) := rfl
  have empty : (Deployment.new defaultTable).store.rows = [] := rfl
  obtain ⟨failed, recorded⟩ := perform_of_failure (.ofMajor 1) "start" failure empty rfl
  obtain ⟨row, rows, unsuccessful, _, kind, _⟩ := recorded.row
  exact ⟨row, failed, rows, unsuccessful, kind, by rw [kind]; rfl⟩

end Wipe

end Operation

end SchemaLedger
