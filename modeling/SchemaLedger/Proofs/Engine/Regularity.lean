import SchemaLedger.Proofs.Engine.Clearance
import SchemaLedger.Proofs.Engine.Floor

/-!
# Regular ledgers

A ledger to which no foreign ledger was copied is more than consistent: the rows that a
reconciliation leaves out are rows of which nothing more is to be said. A row that failed or is
versioned is the last visible row of its identity, nothing but a baseline is at or below the floor,
and what was deleted has no visible row before it. `Regular` gathers this, `regular_performAll` says
that every history of such operations keeps it.
-/

namespace SchemaLedger

/-- Rows as operations leave them that copy no foreign ledger. -/
structure Regular (rows : List Row) : Prop where
  /-- No versioned identity has two visible rows. -/
  once : AppliedOnce rows
  /-- A failure is the last visible row of its identity. -/
  failures : ∀ row ∈ rows, row.isVisible = true → row.success = false →
    lastVisible? rows row.identity = some row
  /-- What establishes no baseline is not at or below the floor. -/
  uncovered : ∀ row ∈ rows, row.isVisible = true → row.isEffectiveBaseline = false →
    isCovered (baselineFloor? rows) row.version = false
  /-- No repeatable row is a baseline. -/
  repeatables : ∀ row ∈ rows, row.isVersioned = false → row.kind.isBaseline = false
  /-- No visible row comes before a marker of its identity. -/
  markers : rows.Pairwise fun earlier later => later.isVisible = false →
    earlier.isVisible = true → earlier.identity.key ≠ later.identity.key

section Once

variable {rows : List Row} {row : Row}

theorem AppliedOnce.lastVisible?_eq_some (once : AppliedOnce rows) (member : row ∈ rows)
    (visible : row.isVisible = true) (versioned : row.isVersioned = true) :
    lastVisible? rows row.identity = some row := by
  obtain ⟨other, last⟩ := exists_lastVisible? member visible
  have same := key_eq_of_lastVisible?_eq_some last
  have counted {counts : Row} (present : counts ∈ rows) (shown : counts.isVisible = true)
      (key : counts.identity.key = row.identity.key) :
      counts ∈ rows.filter fun row => row.isVersioned && row.isVisible := by
    have numbered := (Entry.isVersioned_eq_of_key_eq key).trans versioned
    exact List.mem_filter.mpr ⟨present, Bool.and_eq_true_iff.mpr ⟨numbered, shown⟩⟩
  rw [last, List.inj_on_of_nodup_map once
    (counted (mem_of_lastVisible?_eq_some last) (isVisible_of_lastVisible?_eq_some last) same)
    (counted member visible rfl) same]

theorem AppliedOnce.pairwise (once : AppliedOnce rows) :
    rows.Pairwise fun earlier later => earlier.isVisible = true → later.isVisible = true →
      later.isVersioned = true → earlier.identity.key ≠ later.identity.key := by
  refine (List.pairwise_filter.mp (List.pairwise_map.mp once)).imp ?_
  intro earlier later differ before after versioned same
  have numbered := (Entry.isVersioned_eq_of_key_eq same).trans versioned
  exact differ (Bool.and_eq_true_iff.mpr ⟨numbered, before⟩)
    (Bool.and_eq_true_iff.mpr ⟨versioned, after⟩) same

end Once

/-- A row is deleted only if its unit is gone. -/
theorem RepairReport.find?_eq_none_of_deleted {catalog : Catalog} {row left : Row}
    (stays : (Disposition.of catalog row).apply row = some left) (visible : row.isVisible = true)
    (hidden : left.isVisible = false) : catalog.find? row.identity = none := by
  have settled := Disposition.settled_apply catalog row
  rw [stays] at settled
  cases settled with
  | deleted _ _ gone => exact gone
  | versioned => exact absurd (visible.symm.trans hidden) (by decide)
  | _ => simp [hidden] at visible

namespace Regular

variable {rows later : List Row} {row : Row} {catalog : Catalog} {config : Config}

theorem nil : Regular [] := by
  refine ⟨appliedOnce_nil, ?_, ?_, ?_, .nil⟩ <;>
  · intro row member
    cases member

/-- The first row of a ledger is regular, unless it is a baseline without a version. -/
theorem singleton (repeatable : row.isVersioned = false → row.kind.isBaseline = false) :
    Regular [row] := by
  refine ⟨appliedOnce_singleton row, ?_, ?_, ?_, List.pairwise_singleton _ _⟩
  · intro other member visible _
    rw [List.mem_singleton.mp member] at visible ⊢
    simp [lastVisible?, visible]
  · intro other member _ plain
    rw [← List.nil_append [row], baselineFloor?_append]
    · rfl
    · intro another present
      rwa [List.mem_singleton.mp present, ← List.mem_singleton.mp member]
  · intro other member
    rwa [List.mem_singleton.mp member]

/-- If a rollout is not blocked, no row records a failure. -/
theorem success_of_clear (regular : Regular rows) (clear : Clear catalog config rows)
    (member : row ∈ rows) (visible : row.isVisible = true) : row.success = true := by
  by_contra failed
  have failure : row.success = false := by simpa using failed
  have last := regular.failures row member visible failure
  cases found : catalog.find? row.identity with
  | some unit =>
    obtain ⟨offered, same⟩ := Catalog.find?_eq_some_iff.mp found
    rw [← lastVisible?_congr same] at last
    exact failed (clear.applied unit offered row last).1
  | none =>
    have plain : row.isEffectiveBaseline = false := by simp [Entry.isEffectiveBaseline, failure]
    rcases clear.unresolved row last found with establishes | covered | ⟨success, _⟩
    · simp [plain] at establishes
    · simp [regular.uncovered row member visible plain] at covered
    · exact failed success

/-- Rows of plain units can be added if nothing has failed and versioned units are new and above
the floor. -/
theorem append (regular : Regular rows)
    (succeeded : ∀ row ∈ rows, row.isVisible = true → row.success = true)
    (distinct : (later.map (·.identity.key)).Nodup)
    (visible : ∀ row ∈ later, row.isVisible = true)
    (plain : ∀ row ∈ later, row.kind.isBaseline = false)
    (fresh : ∀ row ∈ later, row.isVersioned = true → lastVisible? rows row.identity = none ∧
      isCovered (baselineFloor? rows) row.version = false) : Regular (rows ++ later) := by
  have floor : baselineFloor? (rows ++ later) = baselineFloor? rows :=
    baselineFloor?_append fun row member => by simp [Entry.isEffectiveBaseline, plain row member]
  refine ⟨?_, ?_, ?_, ?_, ?_⟩
  · exact regular.once.append distinct fun row member versioned => (fresh row member versioned).1
  · intro row member shown failure
    rcases List.mem_append.mp member with before | added
    · simp [succeeded row before shown] at failure
    · have last := (lastVisible?_eq_some_iff_mem distinct).mpr ⟨added, shown, rfl⟩
      rw [lastVisible?_append, last, Option.some_or]
  · intro row member shown unestablished
    rw [floor]
    rcases List.mem_append.mp member with before | added
    · exact regular.uncovered row before shown unestablished
    · cases known : row.version with
      | none => cases baselineFloor? rows <;> rfl
      | some version =>
        rw [← known]
        exact (fresh row added (by simp [Entry.isVersioned, known])).2
  · intro row member unversioned
    rcases List.mem_append.mp member with before | added
    · exact regular.repeatables row before unversioned
    · exact plain row added
  · refine List.pairwise_append.mpr ⟨regular.markers, ?_, ?_⟩
    · apply List.pairwise_of_forall_mem_list
      intro _ _ row member hidden
      simp [visible row member] at hidden
    · intro _ _ row member hidden
      simp [visible row member] at hidden

/-- A repair that deletes a row leaves no visible row of its identity before it. -/
theorem pairwise_settledRows (regular : Regular rows) (catalog : Catalog) :
    (RepairReport.settledRows catalog rows).Pairwise fun earlier later => later.isVisible = false →
      earlier.isVisible = true → earlier.identity.key ≠ later.identity.key := by
  apply List.pairwise_filterMap.mpr
  apply List.Pairwise.imp_of_mem _ (regular.markers.and regular.once.pairwise)
  rintro earlier later present - ⟨marked, once⟩ left stays marker becomes hidden visible same
  have before := (RepairReport.visible_of_apply stays visible).1
  have key := same
  rw [RepairReport.identity_of_apply stays, RepairReport.identity_of_apply becomes] at key
  cases shown : later.isVisible with
  | false => exact marked shown before key
  | true =>
    cases versioned : later.isVersioned with
    | true => exact once before shown versioned key
    | false =>
      -- The unit of a repeatable row that is deleted is gone, so an earlier row is deleted as well.
      have unversioned := (Entry.isVersioned_eq_of_key_eq key).trans versioned
      have gone := RepairReport.find?_eq_none_of_deleted becomes shown hidden
      rw [← Catalog.find?_congr key, ← RepairReport.identity_of_apply stays] at gone
      have plain : left.isEffectiveBaseline = false := by
        rw [RepairReport.isEffectiveBaseline_of_apply stays, Entry.isEffectiveBaseline,
          regular.repeatables earlier present unversioned, Bool.and_false]
      have above := (RepairReport.isAbove_of_settledRows
        (RepairReport.mem_settledRows.mpr ⟨earlier, present, stays⟩) visible gone plain).2
      rw [RepairReport.version_of_apply stays] at above
      cases known : earlier.version <;>
        simp [known, isAbove, Entry.isVersioned] at above unversioned

theorem settledRows (regular : Regular rows) (catalog : Catalog) :
    Regular (RepairReport.settledRows catalog rows) := by
  refine ⟨regular.once.settledRows catalog, ?_, ?_, ?_, regular.pairwise_settledRows catalog⟩
  · intro left member visible failure
    obtain ⟨row, _, stays⟩ := RepairReport.mem_settledRows.mp member
    simp [(RepairReport.visible_of_apply stays visible).2.2.1] at failure
  · intro left member visible plain
    obtain ⟨row, present, stays⟩ := RepairReport.mem_settledRows.mp member
    rw [RepairReport.isEffectiveBaseline_of_apply stays] at plain
    rw [RepairReport.baselineFloor?_settledRows, RepairReport.version_of_apply stays]
    exact regular.uncovered row present (RepairReport.visible_of_apply stays visible).1 plain
  · intro left member unversioned
    obtain ⟨row, present, stays⟩ := RepairReport.mem_settledRows.mp member
    rw [Entry.isVersioned, RepairReport.version_of_apply stays] at unversioned
    rw [← Bool.not_eq_true]
    intro kind
    rw [(RepairReport.visible_of_apply stays (left.isVisible_of_isBaseline kind)).2.2.2,
      regular.repeatables row present unversioned] at kind
    cases kind

end Regular

section Outcomes

variable {step : Step} {steps : List Step} {before after : Deployment MemoryLedger}
  {ledger : MemoryLedger} {result : Except Error Unit}

/-- A step offers plain units and copies no foreign ledger. -/
structure Step.IsNative (step : Step) : Prop where
  plain : step.engine.OffersPlain
  native : step.operation.isLiberate = false

theorem regular_seeded (config : Config) (clock : Clock) (regular : Regular ledger.rows) :
    Regular (Rollout.seeded config clock ledger).rows := by
  rw [Rollout.seeded, Rollout.seeds, MemoryLedger.rows_appendAll]
  split
  · rename_i begins
    have empty : ledger.rows = [] := by simpa using (Bool.and_eq_true_iff.mp begins).1
    rw [empty]
    exact .singleton fun unversioned => by cases unversioned
  · rwa [Entry.ranked, List.append_nil]

/-- A rollout of plain units that is not blocked keeps a ledger regular. -/
theorem regular_rolledOut {catalog : Catalog} {config : Config} {clock : Clock}
    (executor : Executor) (plain : ∀ unit ∈ catalog.migrations, unit.isPlain = true)
    (clear : Clear catalog config ledger.rows) (regular : Regular ledger.rows) :
    Regular (Rollout.rolledOut catalog executor config clock ledger).rows := by
  have begun := regular_seeded config clock regular
  rw [Rollout.rolledOut, MemoryLedger.rows_appendAll]
  apply begun.append
  · exact fun row => begun.success_of_clear (Rollout.clear_seeded.mpr clear)
  · exact Rollout.nodup_keys_entries _
  · intro row member
    obtain ⟨unit, offered, _, entry⟩ := Rollout.exists_unit_of_mem_entries member
    have kind := Migration.kind_of_isPlain (plain unit offered)
    simp [entry, Entry.isVisible, Entry.ofExecution, kind.1]
  · intro row member
    obtain ⟨unit, offered, _, entry⟩ := Rollout.exists_unit_of_mem_entries member
    rw [entry]
    exact (Migration.kind_of_isPlain (plain unit offered)).2.1
  · intro row member versioned
    obtain ⟨unit, _, due, entry⟩ := Rollout.exists_unit_of_mem_entries member
    rw [entry] at versioned ⊢
    obtain ⟨version, known⟩ := Option.isSome_iff_exists.mp versioned
    have fresh := unit.unapplied_of_isDue due known
    rwa [← known] at fresh

theorem Outcome.regular (outcome : Outcome step.engine step.operation before result after)
    (native : step.IsNative) (regular : Regular before.store.rows) : Regular after.store.rows := by
  have first {entry : Entry} (versioned : entry.isVersioned = true)
      (empty : before.store.rows = []) : Regular (before.store.append entry).rows := by
    rw [MemoryLedger.append, empty]
    exact .singleton fun unversioned => by simp [Entry.atRank, versioned] at unversioned
  cases outcome with
  | untouched => exact regular
  | baselined empty => exact first rfl empty
  | initialized empty => exact first rfl empty
  | initializerFailed empty => exact first rfl empty
  | rolledOut catalog loaded _ clear =>
    exact regular_rolledOut _ (native.plain _ (Engine.provider_of_loadCatalog_eq_ok loaded)) clear
      regular
  | repaired catalog => exact regular.settledRows catalog
  | imported _ importing => simp [native.native] at importing

theorem regular_performAll (table : String) (native : ∀ step ∈ steps, step.IsNative) :
    (performAll steps (.new table)).store.Ranked ∧
      Regular (performAll steps (.new table)).store.rows :=
  performAll_induction
    (motive := fun reached => reached.store.Ranked ∧ Regular reached.store.rows)
    ⟨(MemoryLedger.consistent_empty table).ranked, .nil⟩
    fun step member _ _ _ outcome kept =>
      ⟨outcome.ranked kept.1, outcome.regular (native step member) kept.2⟩

/-- The ledger is consistent, or an undo is its only row. -/
def MemoryLedger.ConsistentOrUndo (ledger : MemoryLedger) : Prop :=
  ledger.Consistent ∨ ∃ row, ledger.rows = [row] ∧ row.kind.isUndo = true

/-- Whoever reads the rows finds them consistent or stops. -/
theorem MemoryLedger.ConsistentOrUndo.consistent (sound : ledger.ConsistentOrUndo)
    (checked : checkConsistent ledger.rows = .ok ()) : ledger.Consistent := by
  rcases sound with consistent | ⟨row, rows, undo⟩
  · exact consistent
  · have native := (checkConsistent_eq_ok_iff.mp checked).2 row (by simp [rows])
    exact absurd (native.symm.trans undo) (by decide)

/-- A native step writes an undo only as the initializer of a baseline, to a ledger without rows. -/
theorem Outcome.consistentOrUndo (outcome : Outcome step.engine step.operation before result after)
    (native : step.IsNative) (sound : before.store.ConsistentOrUndo) :
    after.store.ConsistentOrUndo := by
  have first (entry : Entry) (empty : before.store.rows = []) :
      (before.store.append entry).ConsistentOrUndo := by
    cases undo : entry.kind.isUndo with
    | false => exact .inl ((MemoryLedger.consistent_of_vacant empty).append undo)
    | true =>
      have lone : (before.store.append entry).rows = [entry.atRank before.store.nextRank] := by
        simp [MemoryLedger.append, empty]
      exact .inr ⟨_, lone, undo⟩
  cases outcome with
  | untouched => exact sound
  | baselined empty => exact first _ empty
  | initialized empty => exact first _ empty
  | initializerFailed empty => exact first _ empty
  | rolledOut catalog loaded _ _ checked =>
    exact .inl (Rollout.consistent_rolledOut _ _ _
      (native.plain _ (Engine.provider_of_loadCatalog_eq_ok loaded)) (sound.consistent checked))
  | repaired catalog checked =>
    exact .inl (RepairReport.consistent_settledRows catalog (sound.consistent checked))
  | imported _ importing => simp [native.native] at importing

/-- What native steps make of an empty ledger is consistent, unless an initializer was an undo; then
nothing else was ever recorded. -/
theorem consistentOrUndo_performAll (table : String) (native : ∀ step ∈ steps, step.IsNative) :
    (performAll steps (.new table)).store.ConsistentOrUndo :=
  performAll_induction (motive := fun reached => reached.store.ConsistentOrUndo)
    (.inl (MemoryLedger.consistent_empty table))
    fun step member _ _ _ outcome => outcome.consistentOrUndo (native step member)

end Outcomes

section Withdrawal

private def addPrices : Migration := .ofProcedure (.versioned (.ofMajor 2) "add prices") {} none

private def refreshViews : Migration := .ofProcedure (.repeatable "refresh views") {} none

/-- An engine that executes the given units, each in 5 ms. -/
def priceEngine (units : List Migration) : Engine where
  provider := .ok units
  executor := fun _ => .ok ()
  clock := { Clock.still ⟨0, 0⟩ with timing := fun _ => 5 }

/-- A repeatable unit is executed on a baselined ledger, withdrawn, and brought back. -/
def withdrawal : List Step :=
  [ ⟨priceEngine [], .baseline⟩,
    ⟨priceEngine [addPrices, refreshViews], .migrate⟩,
    ⟨priceEngine [addPrices], .repair⟩,
    ⟨priceEngine [addPrices, refreshViews], .migrate⟩ ]

/-- The ledger that the withdrawal leaves. -/
def withdrawnLedger : MemoryLedger := (performAll withdrawal (.new defaultTable)).store

theorem isNative_of_mem_withdrawal : ∀ step ∈ withdrawal, step.IsNative := by
  intro step member
  have shape : (step.engine.provider = .ok [] ∨ step.engine.provider = .ok [addPrices] ∨
      step.engine.provider = .ok [addPrices, refreshViews]) ∧
      step.operation.isLiberate = false := by
    revert step
    simp [withdrawal, priceEngine, Operation.isLiberate]
  refine ⟨fun units offered => ?_, shape.2⟩
  rcases shape.1 with same | same | same <;>
  · cases same.symm.trans offered
    decide

end Withdrawal

end SchemaLedger
