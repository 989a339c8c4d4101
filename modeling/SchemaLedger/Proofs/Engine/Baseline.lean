import SchemaLedger.Engine.Baseline
import SchemaLedger.Proofs.Ledger.Memory

/-!
# What a baseline does to a ledger

A baseline writes to an empty ledger only, and there it writes exactly one row: the marker of a pure
baseline, or the record of an initializer, also if the initializer fails.
-/

namespace SchemaLedger

namespace BaselineRequest

variable {request : BaselineRequest} {executor : Executor} {clock : Clock}
  {deployment : Deployment MemoryLedger}

@[simp]
theorem record_apply (entry : Entry) :
    request.record entry deployment =
      (.ok { version := some request.version, rank := some deployment.store.nextRank },
        { deployment with store := deployment.store.append entry }) := rfl

/-- A baseline is rejected for an inconsistent ledger, leaves a baselined one alone, is rejected for
any other history, and goes ahead on an empty ledger. -/
theorem run_eq (request : BaselineRequest) (executor : Executor) (clock : Clock)
    (deployment : Deployment MemoryLedger) :
    request.run executor clock deployment =
      match checkConsistent deployment.store.rows with
      | .error error => (.error error, deployment)
      | .ok () =>
          match latestBaseline? deployment.store.rows with
          | some existing => (.ok (request.refuse deployment.store.table existing), deployment)
          | none =>
              if !deployment.store.rows.isEmpty then
                (.error (.validation (.baselineOverHistory deployment.store.table
                  deployment.store.rows.length)), deployment)
              else
                match request.initializer with
                | none => request.record (request.marker clock) deployment
                | some initializer =>
                    match executor initializer with
                    | .ok () =>
                        request.record (request.initialized clock initializer true)
                          { deployment with executed := deployment.executed ++ [initializer] }
                    | .error cause =>
                        (.error (.migrationFailed
                            (.versioned request.version initializer.description) cause),
                          { store := deployment.store.append
                              (request.initialized clock initializer false)
                            executed := deployment.executed ++ [initializer] }) := by
  simp only [run, Work.bind_apply, Deployment.onStore_apply, MemoryLedger.readConsistent_apply,
    MemoryLedger.currentTable_apply]
  cases checkConsistent deployment.store.rows with
  | error error => rfl
  | ok _ =>
    simp only [Except.map]
    cases latestBaseline? deployment.store.rows with
    | some existing => rfl
    | none =>
      cases deployment.store.rows.isEmpty with
      | false => rfl
      | true =>
        simp only [Bool.not_true, Bool.false_eq_true, if_false]
        cases request.initializer with
        | none => rfl
        | some initializer =>
          simp only [recordInitializer, Work.bind_apply, Deployment.execute_apply]
          cases executor initializer <;> rfl

/-- A pure baseline of an empty ledger goes ahead. -/
theorem run_empty (executor : Executor) (clock : Clock) (empty : deployment.store.rows = [])
    (pure : request.initializer = none) :
    request.run executor clock deployment = request.record (request.marker clock) deployment := by
  rw [run_eq, empty, pure]
  rfl

end BaselineRequest

end SchemaLedger
