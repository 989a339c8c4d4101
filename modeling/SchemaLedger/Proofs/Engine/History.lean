import Mathlib
import SchemaLedger.Proofs.Engine.Outcome
import SchemaLedger.Proofs.Engine.Plan

/-!
# Histories of operations

Whatever is done to a ledger that begins empty, it stays consistent, so no operation ever finds it
inconsistent. As long as no foreign ledger is copied, no versioned identity has two visible rows
either: a unit is planned once at most and only if its identity has no visible row, a baseline is
written only where there are no rows, and a repair makes nothing visible.
-/

namespace SchemaLedger

def versionedKeys (rows : List Row) : List (Option (List UInt64) × String) :=
  (rows.filter fun row => row.isVersioned && row.isVisible).map (·.identity.key)

/-- No versioned identity has more than one visible row. -/
def AppliedOnce (rows : List Row) : Prop := (versionedKeys rows).Nodup

section Once

variable {rows later : List Row} {row : Row}

theorem appliedOnce_nil : AppliedOnce [] := List.nodup_nil

theorem appliedOnce_singleton (row : Row) : AppliedOnce [row] :=
  (List.nodup_singleton row.identity.key).sublist (List.filter_sublist.map _)

/-- Later rows of identities that have no visible row yet, and of each one at most, are as good. -/
theorem AppliedOnce.append (once : AppliedOnce rows) (distinct : (later.map (·.identity.key)).Nodup)
    (fresh : ∀ row ∈ later, row.isVersioned = true → lastVisible? rows row.identity = none) :
    AppliedOnce (rows ++ later) := by
  rw [AppliedOnce, versionedKeys, List.filter_append, List.map_append]
  refine List.nodup_append.mpr ⟨once, distinct.sublist (List.filter_sublist.map _), ?_⟩
  intro key before other after same
  obtain ⟨row, earlier, rfl⟩ := List.mem_map.mp before
  obtain ⟨added, present, rfl⟩ := List.mem_map.mp after
  obtain ⟨member, counts⟩ := List.mem_filter.mp earlier
  obtain ⟨listed, versioned⟩ := List.mem_filter.mp present
  have absent := fresh added listed (Bool.and_eq_true_iff.mp versioned).1
  exact lastVisible?_eq_none_iff.mp absent row member (Bool.and_eq_true_iff.mp counts).2 same

/-- A repair makes no row visible that was not. -/
theorem AppliedOnce.settledRows (once : AppliedOnce rows) (catalog : Catalog) :
    AppliedOnce (RepairReport.settledRows catalog rows) := by
  refine List.Nodup.sublist ?_ once
  simp only [versionedKeys, ← List.filterMap_eq_map, List.filterMap_filter]
  refine RepairReport.filterMap_settledRows_sublist fun row left key stays known => ?_
  cases counts : left.isVersioned && left.isVisible with
  | false => simp [counts] at known
  | true =>
    obtain ⟨versioned, visible⟩ := Bool.and_eq_true_iff.mp counts
    have before : row.isVersioned = true := by
      rwa [Entry.isVersioned, ← RepairReport.version_of_apply stays]
    simpa [counts, before, (RepairReport.visible_of_apply stays visible).1,
      RepairReport.identity_of_apply stays] using known

end Once

section Outcomes

variable {step : Step} {before after : Deployment MemoryLedger} {ledger : MemoryLedger}
  {result : Except Error Unit}

theorem Kind.isUndo_asBaseline (kind : Kind) : kind.asBaseline.isUndo = kind.isUndo := by
  cases kind <;> rfl

/-- A step that offers plain units and has no undo for an initializer keeps a consistent ledger
consistent. -/
theorem Outcome.consistent (outcome : Outcome step.engine step.operation before result after)
    (plain : ∀ units, step.engine.provider = .ok units → ∀ unit ∈ units, unit.isPlain = true)
    (forward : ∀ initializer, step.operation.initializer? = some initializer →
      initializer.kind.isUndo = false)
    (consistent : before.store.Consistent) : after.store.Consistent := by
  have recorded (request : BaselineRequest) {initializer : Migration} (success : Bool)
      (asked : step.operation =
        .baselineWith request.version request.description (some initializer)) :
      (request.initialized step.engine.clock initializer success).kind.isUndo = false := by
    rw [BaselineRequest.initialized, Kind.isUndo_asBaseline]
    exact forward initializer (by rw [asked]; rfl)
  cases outcome with
  | untouched => exact consistent
  | baselined => exact consistent.append rfl
  | initialized _ request initializer asked => exact consistent.append (recorded request true asked)
  | initializerFailed _ request initializer _ asked =>
    exact consistent.append (recorded request false asked)
  | rolledOut catalog loaded =>
    exact Rollout.consistent_rolledOut _ _ _
      (plain _ (Engine.provider_of_loadCatalog_eq_ok loaded)) consistent
  | repaired catalog => exact RepairReport.consistent_settledRows catalog consistent
  | imported _ _ copies genuine =>
    apply consistent.appendAll
    intro entry member
    obtain ⟨row, present, rfl⟩ := List.mem_map.mp member
    exact (Bool.or_eq_false_iff.mp (genuine row present)).1

/-- A quiet step does not find a consistent ledger inconsistent. -/
theorem Outcome.silent (outcome : Outcome step.engine step.operation before result after)
    (quiet : step.IsQuiet) (consistent : before.store.Consistent) : Silent result := by
  intro inconsistency failure
  cases outcome with
  | untouched _ attributable =>
    rcases attributable inconsistency failure with refused | reported | ⟨foreign, asked, reported⟩
    · rw [consistent.checked] at refused
      cases refused
    · exact quiet.units inconsistency reported
    · exact quiet.foreign foreign asked inconsistency reported
  | _ => cases failure

theorem appliedOnce_seeded (config : Config) (clock : Clock) (once : AppliedOnce ledger.rows) :
    AppliedOnce (Rollout.seeded config clock ledger).rows := by
  rcases Rollout.seeded_cases config clock ledger with same | ⟨_, row, rows, _⟩
  · rwa [same]
  · rw [rows]
    exact appliedOnce_singleton row

/-- No operation but an import applies a versioned unit twice. -/
theorem Outcome.appliedOnce (outcome : Outcome step.engine step.operation before result after)
    (native : step.operation.isLiberate = false) (once : AppliedOnce before.store.rows) :
    AppliedOnce after.store.rows := by
  have first (entry : Entry) (empty : before.store.rows = []) :
      AppliedOnce (before.store.append entry).rows := by
    rw [MemoryLedger.append, empty]
    exact appliedOnce_singleton _
  cases outcome with
  | untouched => exact once
  | baselined empty => exact first _ empty
  | initialized empty => exact first _ empty
  | initializerFailed empty => exact first _ empty
  | rolledOut catalog =>
    refine (appliedOnce_seeded _ _ once).append (Rollout.nodup_keys_entries _) ?_
    intro row member versioned
    obtain ⟨unit, _, due, entry⟩ := Rollout.exists_unit_of_mem_entries member
    rw [entry] at versioned ⊢
    obtain ⟨version, known⟩ := Option.isSome_iff_exists.mp versioned
    exact (unit.unapplied_of_isDue due known).1
  | repaired catalog => exact once.settledRows catalog
  | imported _ importing => simp [native] at importing

end Outcomes

/-- What a plain step keeps of a consistent ledger that is free, and what it never reports then. -/
structure Step.Does (step : Step) (before : Deployment MemoryLedger) : Prop where
  consistent : (step.perform before).2.store.Consistent
  free : (step.perform before).2.store.locked = false
  silent : step.IsQuiet → Silent (step.perform before).1

theorem Step.does_perform {step : Step} (plain : step.IsPlain) {before : Deployment MemoryLedger}
    (consistent : before.store.Consistent) (free : before.store.locked = false) :
    step.Does before :=
  have outcome := step.operation.outcome_perform step.engine before
  have forward initializer given :=
    (Migration.kind_of_isPlain (plain.initializer initializer given)).2.2
  ⟨outcome.consistent plain.units forward consistent, outcome.locked_eq.trans free,
    fun quiet => outcome.silent quiet consistent⟩

/-- The deployment after steps were performed in order, whatever became of each. -/
def performAll (steps : List Step) (deployment : Deployment MemoryLedger) :
    Deployment MemoryLedger :=
  steps.foldl (fun before step => (step.perform before).2) deployment

section Histories

variable {steps : List Step} {deployment : Deployment MemoryLedger}

/-- What every outcome of every step keeps is kept by all steps together. -/
theorem performAll_induction {motive : Deployment MemoryLedger → Prop} (begins : motive deployment)
    (kept : ∀ step ∈ steps, ∀ before result after,
      Outcome step.engine step.operation before result after → motive before → motive after) :
    motive (performAll steps deployment) := by
  induction steps generalizing deployment with
  | nil => exact begins
  | cons step rest ih =>
    obtain ⟨here, others⟩ := List.forall_mem_cons.mp kept
    exact ih (here _ _ _ (step.operation.outcome_perform step.engine deployment) begins) others

theorem locked_performAll (steps : List Step) (free : deployment.store.locked = false) :
    (performAll steps deployment).store.locked = false :=
  performAll_induction (motive := fun reached => reached.store.locked = false) free
    fun _ _ _ _ _ outcome free => outcome.locked_eq.trans free

theorem consistent_performAll (plain : ∀ step ∈ steps, step.IsPlain)
    (consistent : deployment.store.Consistent) (free : deployment.store.locked = false) :
    (performAll steps deployment).store.Consistent ∧
      (performAll steps deployment).store.locked = false := by
  induction steps generalizing deployment with
  | nil => exact ⟨consistent, free⟩
  | cons step rest ih =>
    obtain ⟨here, others⟩ := List.forall_mem_cons.mp plain
    have does := step.does_perform here consistent free
    exact ih others does.consistent does.free

theorem appliedOnce_performAll (native : ∀ step ∈ steps, step.operation.isLiberate = false)
    (once : AppliedOnce deployment.store.rows) :
    AppliedOnce (performAll steps deployment).store.rows :=
  performAll_induction (motive := fun reached => AppliedOnce reached.store.rows) once
    fun step member _ _ _ outcome => outcome.appliedOnce (native step member)

/-- Whatever was done to a ledger that began empty, it is consistent; no step finds it
inconsistent; and unless a foreign ledger was copied, no versioned identity has two visible
rows. -/
theorem history_consistent (table : String) (steps : List Step)
    (plain : ∀ step ∈ steps, step.IsPlain) :
    checkConsistent (performAll steps (.new table)).store.rows = .ok () ∧
      (∀ earlier step later, steps = earlier ++ step :: later → step.IsQuiet →
        Silent (step.perform (performAll earlier (.new table))).1) ∧
      ((∀ step ∈ steps, step.operation.isLiberate = false) →
        AppliedOnce (performAll steps (.new table)).store.rows) := by
  have begins : (Deployment.new table).store.Consistent := MemoryLedger.consistent_empty table
  refine ⟨(consistent_performAll plain begins rfl).1.checked, ?_, ?_⟩
  · rintro earlier step later rfl quiet
    have before : ∀ step ∈ earlier, step.IsPlain := fun step member =>
      plain step (List.mem_append_left _ member)
    obtain ⟨consistent, free⟩ := consistent_performAll before begins rfl
    have here := plain step (List.mem_append_right _ List.mem_cons_self)
    exact (step.does_perform here consistent free).silent quiet
  · intro native
    exact appliedOnce_performAll native appliedOnce_nil

end Histories

section Setback

private def createItems : Migration := .ofProcedure (.versioned (.ofMajor 1) "create items") {} none

private def priceItems : Migration := .ofProcedure (.versioned (.ofMajor 2) "price items") {} none

def itemEngine (outcome : Except Error Unit) : Engine where
  provider := .ok [createItems, priceItems]
  executor := fun unit => if unit.version == some (.ofMajor 2) then outcome else .ok ()
  clock := .still ⟨0, 0⟩

/-- A migrate that is stopped, a repair, and a migrate that goes through. -/
def setback : List Step :=
  [ ⟨itemEngine (.error (.execution "no price")), .migrate⟩,
    ⟨itemEngine (.ok ()), .repair⟩,
    ⟨itemEngine (.ok ()), .migrate⟩ ]

theorem isPlain_of_mem_setback : ∀ step ∈ setback, step.IsPlain := by
  intro step member
  have operations : step.operation.initializer? = none ∧
      step.engine.provider = .ok [createItems, priceItems] := by
    revert step
    simp [setback, itemEngine, Operation.initializer?]
  constructor
  · intro units offered unit present
    cases operations.2.symm.trans offered
    revert unit
    decide
  · intro initializer given
    simp [operations.1] at given

theorem isQuiet_itemEngine (outcome : Except Error Unit) :
    Step.IsQuiet ⟨itemEngine outcome, .migrate⟩ := by
  constructor
  · intro inconsistency failure
    cases failure
  · intro foreign given
    cases given

theorem history_consistent_setback :
    (∀ step ∈ setback, step.IsPlain) ∧
      (performAll setback (.new defaultTable)).store.rows.length = 2 ∧
      checkConsistent (performAll setback (.new defaultTable)).store.rows = .ok () ∧
      Silent ((Step.perform ⟨itemEngine (.ok ()), .migrate⟩)
        (performAll (setback.take 2) (.new defaultTable))).1 ∧
      AppliedOnce (performAll setback (.new defaultTable)).store.rows := by
  obtain ⟨checked, silent, once⟩ :=
    history_consistent defaultTable setback isPlain_of_mem_setback
  refine ⟨isPlain_of_mem_setback, by cbv, checked, ?_, once (by decide)⟩
  exact silent (setback.take 2) _ [] rfl (isQuiet_itemEngine _)

end Setback

end SchemaLedger
