import SchemaLedger.Proofs.Engine.Import
import SchemaLedger.Proofs.Engine.Operation
import SchemaLedger.Proofs.Engine.Repair
import SchemaLedger.Proofs.Engine.Seeding

/-!
# What an operation comes to

An operation that writes comes to one of few things, whatever the ledger holds and whoever has its
lock. `Outcome` lists them together with the result and the units executed, and `outcome_perform`
says that there is nothing else: an operation that does not go through changes nothing, unless what
fails is the initializer of a baseline. What a history of operations keeps follows from the list
alone.
-/

namespace SchemaLedger

/-- An inconsistency in a result is that of the rows, or else discovery or the foreign ledger has
reported it. -/
def Attributable (engine : Engine) (operation : Operation) (rows : List Row)
    (result : Except Error Unit) : Prop :=
  ∀ inconsistency, result = .error (.consistency inconsistency) →
    checkConsistent rows = .error (.consistency inconsistency) ∨
      engine.provider = .error (.consistency inconsistency) ∨
      ∃ foreign, operation.foreign? = some foreign ∧
        foreign.rows = .error (.consistency inconsistency)

/-- What performing an operation comes to on a deployment: its result, and what is left. -/
inductive Outcome (engine : Engine) (operation : Operation) (before : Deployment MemoryLedger) :
    Except Error Unit → Deployment MemoryLedger → Prop
  | untouched (result : Except Error Unit)
      (attributable : Attributable engine operation before.store.rows result) :
      Outcome engine operation before result before
  | baselined (empty : before.store.rows = []) (request : BaselineRequest) :
      Outcome engine operation before (.ok ())
        { before with store := before.store.append (request.marker engine.clock) }
  | initialized (empty : before.store.rows = []) (request : BaselineRequest)
      (initializer : Migration)
      (asked : operation =
        .baselineWith request.version request.description (some initializer))
      (success : engine.executor initializer = .ok ()) :
      Outcome engine operation before (.ok ())
        { store := before.store.append (request.initialized engine.clock initializer true)
          executed := before.executed ++ [initializer] }
  | initializerFailed (empty : before.store.rows = []) (request : BaselineRequest)
      (initializer : Migration) (cause : Error)
      (asked : operation =
        .baselineWith request.version request.description (some initializer))
      (failure : engine.executor initializer = .error cause) :
      Outcome engine operation before
        (.error (.migrationFailed (.versioned request.version initializer.description) cause))
        { store := before.store.append (request.initialized engine.clock initializer false)
          executed := before.executed ++ [initializer] }
  | rolledOut (catalog : Catalog) (loaded : engine.loadCatalog = .ok catalog)
      (migrating : operation = .migrate)
      (clear : Clear catalog engine.config before.store.rows)
      (checked : checkConsistent before.store.rows = .ok ()) :
      Outcome engine operation before (.ok ())
        { store := Rollout.rolledOut catalog engine.executor engine.config engine.clock before.store
          executed := before.executed ++
            Rollout.executedOn catalog engine.executor engine.config engine.clock before.store }
  | repaired (catalog : Catalog) (checked : checkConsistent before.store.rows = .ok ()) :
      Outcome engine operation before (.ok ())
        { before with store := { before.store with
            rows := RepairReport.settledRows catalog before.store.rows } }
  | imported (empty : before.store.rows = []) (importing : operation.isLiberate = true)
      (copies : List Row) (genuine : ∀ row ∈ copies, row.kind.isMarker = false) :
      Outcome engine operation before (.ok ())
        { before with store := before.store.appendAll (copies.map Row.toEntry) }

namespace Outcome

variable {engine : Engine} {operation : Operation} {before after : Deployment MemoryLedger}
  {result : Except Error Unit}

/-- What an operation comes to does not depend on who holds the lock. -/
theorem withLock (outcome : Outcome engine operation before result after) (locked : Bool) :
    Outcome engine operation (before.withLock locked) result (after.withLock locked) := by
  cases outcome with
  | untouched _ attributable =>
    have here : Attributable engine operation (before.withLock locked).store.rows result :=
      attributable
    exact .untouched result here
  | baselined empty request =>
    have bare : (before.withLock locked).store.rows = [] := empty
    exact .baselined bare request
  | initialized empty request initializer asked success =>
    have bare : (before.withLock locked).store.rows = [] := empty
    exact .initialized bare request initializer asked success
  | initializerFailed empty request initializer cause asked failure =>
    have bare : (before.withLock locked).store.rows = [] := empty
    exact .initializerFailed bare request initializer cause asked failure
  | rolledOut catalog loaded migrating clear checked =>
    have free : Clear catalog engine.config (before.withLock locked).store.rows := clear
    have sound : checkConsistent (before.withLock locked).store.rows = .ok () := checked
    exact .rolledOut catalog loaded migrating free sound
  | repaired catalog checked =>
    have sound : checkConsistent (before.withLock locked).store.rows = .ok () := checked
    exact .repaired catalog sound
  | imported empty importing copies genuine =>
    have bare : (before.withLock locked).store.rows = [] := empty
    exact .imported bare importing copies genuine

theorem locked_eq (outcome : Outcome engine operation before result after) :
    after.store.locked = before.store.locked := by
  cases outcome <;> rfl

/-- Ranks stay in order, whatever is recorded. -/
theorem ranked (outcome : Outcome engine operation before result after)
    (ranked : before.store.Ranked) : after.store.Ranked := by
  cases outcome with
  | untouched => exact ranked
  | baselined _ request => exact ranked.append _
  | initialized _ request initializer => exact ranked.append _
  | initializerFailed _ request initializer => exact ranked.append _
  | rolledOut => exact (ranked.appendAll _).appendAll _
  | repaired catalog => exact ranked.withRows (RepairReport.map_rank_settledRows_sublist catalog _)
  | imported _ _ copies => exact ranked.appendAll _

end Outcome

/-- The work comes to what the operation can come to. -/
def Yields {α : Type} (engine : Engine) (operation : Operation) (before : Deployment MemoryLedger)
    (work : Work (Deployment MemoryLedger) α) : Prop :=
  Outcome engine operation before ((work before).1.map fun _ => ()) (work before).2

section Works

variable {α : Type} {engine : Engine} {operation : Operation} {before : Deployment MemoryLedger}
  {work : Work (Deployment MemoryLedger) α}

theorem Yields.of_apply {result : Except Error α} {after : Deployment MemoryLedger}
    (applied : work before = (result, after))
    (outcome : Outcome engine operation before (result.map fun _ => ()) after) :
    Yields engine operation before work := by
  rw [Yields, applied]
  exact outcome

theorem Yields.of_untouched {result : Except Error α} (applied : work before = (result, before))
    (attributable : Attributable engine operation before.store.rows (result.map fun _ => ())) :
    Yields engine operation before work :=
  .of_apply applied (.untouched _ attributable)

/-- Whoever finds the rows inconsistent changes nothing. -/
theorem Yields.of_inconsistent {error : Error} (applied : work before = (.error error, before))
    (refused : checkConsistent before.store.rows = .error error) :
    Yields engine operation before work := by
  refine .of_untouched applied fun inconsistency failure => .inl ?_
  cases failure
  exact refused

theorem Rollout.yields_run {catalog : Catalog} (loaded : engine.loadCatalog = .ok catalog) :
    Yields engine .migrate before
      (Rollout.run catalog engine.executor engine.config engine.clock) := by
  have applied := Rollout.run_eq catalog engine.executor engine.config engine.clock before
  split at applied
  · rename_i refused
    exact .of_inconsistent applied refused
  · rename_i checked
    split at applied
    · rename_i found
      exact .of_apply applied
        (.rolledOut catalog loaded rfl (blocking_eq_nil_iff_clear.mp found) checked)
    · exact .of_untouched applied fun _ failure => by cases failure

theorem BaselineRequest.yields_run {request : BaselineRequest}
    (asked : ∀ initializer, request.initializer = some initializer →
      operation = .baselineWith request.version request.description (some initializer)) :
    Yields engine operation before (request.run engine.executor engine.clock) := by
  have applied := request.run_eq engine.executor engine.clock before
  split at applied
  · rename_i refused
    exact .of_inconsistent applied refused
  · split at applied
    · exact .of_untouched applied fun _ failure => by cases failure
    · split at applied
      · exact .of_untouched applied fun _ failure => by cases failure
      · rename_i history
        have empty : before.store.rows = [] := by simpa using history
        split at applied
        · exact .of_apply applied (.baselined empty request)
        · rename_i initializer given
          split at applied
          · rename_i success
            exact .of_apply applied (.initialized empty request initializer
              (asked initializer given) success)
          · rename_i cause failure
            exact .of_apply applied (.initializerFailed empty request initializer cause
              (asked initializer given) failure)

theorem RepairReport.yields_run (catalog : Catalog) :
    Yields engine operation before (Deployment.onStore (RepairReport.run catalog)) := by
  have applied := Deployment.onStore_apply (RepairReport.run catalog) before
  cases checked : checkConsistent before.store.rows with
  | error error =>
    rw [RepairReport.run_of_refused catalog checked] at applied
    exact .of_inconsistent applied checked
  | ok _ =>
    rw [RepairReport.run_eq catalog checked] at applied
    exact .of_apply applied (.repaired catalog checked)

theorem ImportReport.yields_run (foreign : ForeignLedger) (catalog : Catalog) :
    Yields engine (.liberate foreign) before
      (Deployment.onStore (ImportReport.run foreign catalog)) := by
  have applied := Deployment.onStore_apply (ImportReport.run foreign catalog) before
  rw [ImportReport.run_eq] at applied
  split at applied
  · rename_i reported
    refine .of_untouched applied fun inconsistency failure => .inr (.inr ⟨foreign, rfl, ?_⟩)
    cases failure
    exact reported
  · split at applied
    · rename_i refused
      exact .of_inconsistent applied refused
    · split at applied
      · rename_i empty
        exact .of_apply applied (.imported (List.isEmpty_iff.mp empty) rfl _
          fun row copied => ImportReport.isMarker_of_mem_copiedRows copied)
      · exact .of_untouched applied fun _ failure => by cases failure

/-- Work under the lock is not done while someone else holds it, and gives it back otherwise. -/
theorem Engine.yields_locked
    (yields : ∀ held, Yields engine operation (before.withLock held) work) :
    Yields engine operation before (engine.locked work) := by
  cases held : before.store.locked with
  | true =>
    refine .of_untouched (engine.locked_apply_of_held work held) fun inconsistency failure => ?_
    cases timeout : engine.config.lockTimeout <;> rw [timeout] at failure <;> cases failure
  | false =>
    -- the work finds its own lock held; giving it back is a change of lock that no outcome notices
    have outcome := (yields true).withLock false
    have same : (before.withLock true).withLock false = before :=
      before.withLock_of_locked_eq held
    rw [same] at outcome
    refine .of_apply (engine.locked_apply work held) ?_
    cases result : (work (before.withLock true)).1 <;> rw [result] at outcome <;> exact outcome

/-- An operation that needs the catalog is not done if the catalog cannot be loaded. -/
theorem Engine.yields_withCatalog {work : Catalog → Work (Deployment MemoryLedger) α}
    (yields : ∀ catalog, engine.loadCatalog = .ok catalog → ∀ held,
      Yields engine operation (before.withLock held) (work catalog)) :
    Yields engine operation before (do
      Engine.prepare
      let catalog ← engine.loadCatalog
      engine.locked (work catalog)) := by
  have applied := engine.withCatalog_apply (fun catalog => engine.locked (work catalog)) before
  cases loaded : engine.loadCatalog with
  | error error =>
    rw [loaded] at applied
    refine .of_untouched applied fun inconsistency failure => ?_
    cases failure
    rcases engine.provider_or_rejected_of_loadCatalog_eq_error loaded with reported | ⟨_, rejected⟩
    · exact .inr (.inl reported)
    · cases rejected
  | ok catalog =>
    rw [loaded] at applied
    exact .of_apply applied (Engine.yields_locked (yields catalog loaded))

/-- What work comes to does not depend on whether its result is looked at. -/
theorem Yields.discard (yields : Yields engine operation before work) :
    Outcome engine operation before
      ((do let _ ← work : Work (Deployment MemoryLedger) Unit) before).1
      ((do let _ ← work : Work (Deployment MemoryLedger) Unit) before).2 := by
  rw [Work.discard_apply]
  exact yields

end Works

/-- Whatever the state of the ledger, an operation comes to what `Outcome` lists. -/
theorem Operation.outcome_perform (engine : Engine) (operation : Operation)
    (before : Deployment MemoryLedger) :
    Outcome engine operation before (operation.perform engine before).1
      (operation.perform engine before).2 := by
  cases operation with
  | migrate => exact (Engine.yields_withCatalog fun _ loaded _ => Rollout.yields_run loaded).discard
  | baseline =>
    have bare (initializer : Migration) (given : none = some initializer) :
        Operation.baseline = .baselineWith engine.config.baselineVersion
          engine.config.baselineDescription (some initializer) := by cases given
    exact (Engine.yields_locked fun _ => BaselineRequest.yields_run bare).discard
  | baselineWith version description given =>
    have asked (initializer : Migration) (same : given = some initializer) :
        Operation.baselineWith version description given =
          .baselineWith version description (some initializer) := by rw [same]
    exact (Engine.yields_locked fun _ => BaselineRequest.yields_run asked).discard
  | repair =>
    exact (Engine.yields_withCatalog fun catalog _ _ => RepairReport.yields_run catalog).discard
  | liberate foreign =>
    exact (Engine.yields_withCatalog fun catalog _ _ =>
      ImportReport.yields_run foreign catalog).discard

end SchemaLedger
