import SchemaLedger.Engine.Basic
import SchemaLedger.Proofs.Catalog
import SchemaLedger.Proofs.Ledger.Memory

/-!
# Operations and steps

An operation is what an engine is asked for, a step is an engine with an operation, and here both
write to a ledger in memory. What surrounds the work of an operation is the lock, and before that
the loading of the catalog if the operation needs one.
-/

namespace SchemaLedger

inductive Operation where
  | migrate
  | baseline
  | baselineWith (version : Version) (description : String) (initializer : Option Migration)
  | repair
  | liberate (foreign : ForeignLedger)

namespace Operation

def perform (engine : Engine) (operation : Operation) : Work (Deployment MemoryLedger) Unit :=
  match operation with
  | migrate => do
      let _ ← engine.migrate
  | baseline => do
      let _ ← engine.baseline
  | baselineWith version description initializer => do
      let _ ← engine.baselineWith version description initializer
  | repair => do
      let _ ← engine.repair
  | liberate foreign => do
      let _ ← engine.liberate foreign

def isLiberate : Operation → Bool
  | liberate _ => true
  | _ => false

def needsCatalog : Operation → Bool
  | migrate | repair | liberate _ => true
  | baseline | baselineWith _ _ _ => false

def initializer? : Operation → Option Migration
  | baselineWith _ _ initializer => initializer
  | _ => none

def foreign? : Operation → Option ForeignLedger
  | liberate foreign => some foreign
  | _ => none

end Operation

/-- The result is not that a ledger is inconsistent. -/
def Silent {α : Type} (result : Except Error α) : Prop :=
  ∀ inconsistency, result ≠ .error (.consistency inconsistency)

/-- The deployment with its lock held or given back. -/
def Deployment.withLock (deployment : Deployment MemoryLedger) (locked : Bool) :
    Deployment MemoryLedger :=
  { deployment with store := { deployment.store with locked } }

theorem Deployment.withLock_of_locked_eq (deployment : Deployment MemoryLedger) {locked : Bool}
    (same : deployment.store.locked = locked) : deployment.withLock locked = deployment := by
  subst same
  rfl

namespace Engine

variable {α : Type} {deployment : Deployment MemoryLedger} {engine : Engine}

/-- Work under a lock that is free is done with the lock held, which is given back in the end. -/
theorem locked_apply (engine : Engine) (work : Work (Deployment MemoryLedger) α)
    (free : deployment.store.locked = false) :
    engine.locked work deployment =
      ((work (deployment.withLock true)).1.map .finished,
        (work (deployment.withLock true)).2.withLock false) := by
  have acquired : Deployment.onStore LedgerStore.acquireLock deployment =
      (.ok true, deployment.withLock true) := by
    rw [Deployment.onStore_apply]
    change (Except.ok (!deployment.store.locked), _) = _
    rw [free]
    rfl
  rw [locked, Work.bind_apply_of_ok acquired]
  rfl

/-- Work under a lock that someone else holds is not done: waiting for the lock ends with the
timeout or never. -/
theorem locked_apply_of_held (engine : Engine) (work : Work (Deployment MemoryLedger) α)
    (held : deployment.store.locked = true) :
    engine.locked work deployment =
      (match engine.config.lockTimeout with
        | none => .ok .waiting
        | some seconds => .error (.lockFailed (.timedOut seconds deployment.store.table)),
        deployment) := by
  have refused : Deployment.onStore LedgerStore.acquireLock deployment =
      (.ok false, deployment) := by
    rw [Deployment.onStore_apply]
    change (Except.ok (!deployment.store.locked), deployment.withLock true) = _
    rw [deployment.withLock_of_locked_eq held, held]
    rfl
  rw [locked, Work.bind_apply_of_ok refused]
  cases engine.config.lockTimeout <;> rfl

theorem withCatalog_apply (engine : Engine) (work : Catalog → Work (Deployment MemoryLedger) α)
    (deployment : Deployment MemoryLedger) :
    (do
      prepare
      let catalog ← engine.loadCatalog
      work catalog) deployment =
      match engine.loadCatalog with
      | .ok catalog => work catalog deployment
      | .error error => (.error error, deployment) := by
  have prepared : (prepare : Work (Deployment MemoryLedger) Unit) deployment =
      (.ok (), deployment) := rfl
  rw [Work.bind_apply_of_ok prepared, Work.bind_apply, Work.liftExcept_apply]
  cases engine.loadCatalog <;> rfl

theorem provider_of_loadCatalog_eq_ok {catalog : Catalog}
    (loaded : engine.loadCatalog = .ok catalog) :
    engine.provider = .ok catalog.migrations := by
  cases offered : engine.provider with
  | error error => simp [loadCatalog, offered, bind, Except.bind] at loaded
  | ok units =>
    simp only [loadCatalog, offered, bind, Except.bind, Catalog.ofList?] at loaded
    split at loaded
    · cases loaded
    · cases loaded
      rfl

/-- A catalog is refused as discovery fails, or is rejected for duplicates. -/
theorem provider_or_rejected_of_loadCatalog_eq_error {error : Error}
    (refused : engine.loadCatalog = .error error) :
    engine.provider = .error error ∨ ∃ rejection, error = .validation rejection := by
  cases offered : engine.provider with
  | error reported =>
    simp only [loadCatalog, offered, bind, Except.bind, Except.error.injEq] at refused
    exact .inl (congrArg Except.error refused)
  | ok units =>
    simp only [loadCatalog, offered, bind, Except.bind, Catalog.ofList?] at refused
    split at refused
    · cases refused
      exact .inr ⟨_, rfl⟩
    · cases refused

end Engine

/-- An engine and the operation that it performs. -/
structure Step where
  engine : Engine
  operation : Operation

namespace Step

def perform (step : Step) : Work (Deployment MemoryLedger) Unit :=
  step.operation.perform step.engine

/-- Discovery offers units that are plain, and so is an initializer. -/
structure IsPlain (step : Step) : Prop where
  units : ∀ units, step.engine.provider = .ok units → ∀ unit ∈ units, unit.isPlain = true
  initializer : ∀ initializer, step.operation.initializer? = some initializer →
    initializer.isPlain = true

/-- Neither discovery nor the reading of a foreign ledger reports an inconsistency. -/
structure IsQuiet (step : Step) : Prop where
  units : Silent step.engine.provider
  foreign : ∀ foreign, step.operation.foreign? = some foreign → Silent foreign.rows

end Step

end SchemaLedger
