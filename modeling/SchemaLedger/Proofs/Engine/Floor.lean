import SchemaLedger.Proofs.Engine.History
import SchemaLedger.Proofs.Engine.Outcome

/-!
# The baseline floor is permanent

Once a ledger has a baseline floor, no operation moves it. Rows that establish a baseline are
written to empty ledgers only, and a repair neither drops nor retags one. A unit at or below the
floor is never due, so none is ever executed again.
-/

namespace SchemaLedger

/-- Discovery offers plain units, if it offers any. -/
def Engine.OffersPlain (engine : Engine) : Prop :=
  ∀ units, engine.provider = .ok units → ∀ unit ∈ units, unit.isPlain = true

/-- A unit that is due is above the floor, if it has a version. -/
theorem Migration.lt_of_isDue {rows : List Row} {unit : Migration} {floor version : Version}
    (due : unit.isDue rows = true) (found : baselineFloor? rows = some floor)
    (known : unit.version = some version) : floor < version := by
  have uncovered := (unit.unapplied_of_isDue due known).2
  simpa [found, isCovered, Std.not_le] using uncovered

namespace Rollout

variable {catalog : Catalog} {executor : Executor} {config : Config} {clock : Clock}
  {ledger : MemoryLedger}

/-- A rollout of plain units establishes no baseline after it has planned. -/
theorem baselineVersions_rolledOut (plain : ∀ unit ∈ catalog.migrations, unit.isPlain = true) :
    baselineVersions (rolledOut catalog executor config clock ledger).rows =
      baselineVersions (seeded config clock ledger).rows := by
  have nothing : baselineVersions (Entry.ranked (seeded config clock ledger).nextRank
      (entries executor config clock (executedOn catalog executor config clock ledger))) = [] := by
    apply baselineVersions_eq_nil
    intro row member
    obtain ⟨unit, offered, _, entry⟩ := exists_unit_of_mem_entries member
    have kind := Migration.kind_of_isPlain (plain unit offered)
    simp [entry, Entry.isEffectiveBaseline, Entry.ofExecution, kind.2.1]
  rw [rolledOut, MemoryLedger.rows_appendAll, baselineVersions_append, nothing, List.append_nil]

theorem baselineFloor?_rolledOut (plain : ∀ unit ∈ catalog.migrations, unit.isPlain = true) :
    baselineFloor? (rolledOut catalog executor config clock ledger).rows =
      baselineFloor? (seeded config clock ledger).rows := by
  rw [baselineFloor?_eq_highest?, baselineVersions_rolledOut plain, ← baselineFloor?_eq_highest?]

end Rollout

/-- From one deployment to another the floor has stayed, and what was executed is above it. -/
structure KeepsFloor (floor : Version) (before after : Deployment MemoryLedger) : Prop where
  found : baselineFloor? after.store.rows = some floor
  above : ∃ ran, after.executed = before.executed ++ ran ∧
    ∀ unit ∈ ran, ∀ version, unit.version = some version → floor < version

section Steps

variable {floor : Version} {before after last : Deployment MemoryLedger}

theorem KeepsFloor.refl (found : baselineFloor? before.store.rows = some floor) :
    KeepsFloor floor before before :=
  ⟨found, [], (List.append_nil _).symm, fun _ absurdity => absurd absurdity List.not_mem_nil⟩

theorem KeepsFloor.trans (first : KeepsFloor floor before after)
    (second : KeepsFloor floor after last) : KeepsFloor floor before last := by
  obtain ⟨_, ran, grown, above⟩ := first
  obtain ⟨found, more, further, higher⟩ := second
  refine ⟨found, ran ++ more, by rw [further, grown, List.append_assoc], ?_⟩
  intro unit member
  rcases List.mem_append.mp member with earlier | later
  · exact above unit earlier
  · exact higher unit later

/-- No operation moves a floor or executes a unit that is not above it. -/
theorem Outcome.keepsFloor {engine : Engine} {operation : Operation} {result : Except Error Unit}
    (outcome : Outcome engine operation before result after) (plain : engine.OffersPlain)
    (found : baselineFloor? before.store.rows = some floor) : KeepsFloor floor before after := by
  -- a floor is the version of a row, so nothing applies that asks for an empty ledger
  have history : before.store.rows ≠ [] := by
    intro empty
    rw [empty] at found
    cases found
  cases outcome with
  | untouched => exact .refl found
  | baselined empty => exact absurd empty history
  | initialized empty => exact absurd empty history
  | initializerFailed empty => exact absurd empty history
  | rolledOut catalog loaded =>
    have unseeded : Rollout.seeded engine.config engine.clock before.store = before.store :=
      (Rollout.seeded_cases engine.config engine.clock before.store).resolve_right
        fun begins => absurd begins.1 history
    have offered := plain _ (Engine.provider_of_loadCatalog_eq_ok loaded)
    refine ⟨?_, _, rfl, ?_⟩
    · rw [Rollout.baselineFloor?_rolledOut offered, unseeded, found]
    · intro unit executed version known
      have due := (Rollout.isDue_of_executed executed).2
      rw [unseeded] at due
      exact unit.lt_of_isDue due found known
  | repaired catalog =>
    refine ⟨?_, (KeepsFloor.refl found).above⟩
    rw [RepairReport.baselineFloor?_settledRows, found]
  | imported empty => exact absurd empty history

theorem keepsFloor_performAll {steps : List Step}
    (plain : ∀ step ∈ steps, step.engine.OffersPlain)
    (found : baselineFloor? before.store.rows = some floor) :
    KeepsFloor floor before (performAll steps before) :=
  performAll_induction (KeepsFloor.refl found) fun step member _ _ _ outcome kept =>
    kept.trans (outcome.keepsFloor (plain step member) kept.found)

/-- Whatever is done to a ledger with a floor, the floor stays as it is after every step, and no
unit at or below it is executed. -/
theorem floor_permanent (steps : List Step) (plain : ∀ step ∈ steps, step.engine.OffersPlain)
    (found : baselineFloor? before.store.rows = some floor) :
    (∀ earlier later, steps = earlier ++ later →
      baselineFloor? (performAll earlier before).store.rows = some floor) ∧
    ∃ ran, (performAll steps before).executed = before.executed ++ ran ∧
      ∀ unit ∈ ran, ∀ version, unit.version = some version → ¬version ≤ floor := by
  refine ⟨?_, ?_⟩
  · rintro earlier later rfl
    have first : ∀ step ∈ earlier, step.engine.OffersPlain := fun step member =>
      plain step (List.mem_append_left _ member)
    exact (keepsFloor_performAll first found).found
  · obtain ⟨ran, executed, above⟩ := (keepsFloor_performAll plain found).above
    exact ⟨ran, executed, fun unit member version known =>
      Std.not_le.mpr (above unit member version known)⟩

end Steps

section Takeover

private def legacySchema : Migration :=
  .ofProcedure (.versioned (.ofMajor 3) "legacy schema") {} none

private def addRegions : Migration := .ofProcedure (.versioned (.ofMajor 7) "add regions") {} none

private def addCities : Migration := .ofProcedure (.versioned (.ofMajor 9) "add cities") {} none

/-- An engine that takes a schema over at version 5, with the given units. -/
def takeoverEngine (units : List Migration) : Engine where
  config := { baselineVersion := .ofMajor 5 }
  provider := .ok units
  executor := fun _ => .ok ()
  clock := .still ⟨0, 0⟩

/-- A ledger that was baselined when the schema was taken over. -/
def takenOver : Deployment MemoryLedger :=
  performAll [⟨takeoverEngine [], .baseline⟩] (.new defaultTable)

/-- A migrate, a repair without the unit that it executed, and another migrate. -/
def takeover : List Step :=
  [ ⟨takeoverEngine [addRegions, legacySchema], .migrate⟩,
    ⟨takeoverEngine [addCities], .repair⟩,
    ⟨takeoverEngine [legacySchema, addRegions], .migrate⟩ ]

theorem offersPlain_of_mem_takeover : ∀ step ∈ takeover, step.engine.OffersPlain := by
  intro step member units offered
  have provided : step.engine.provider = .ok [addRegions, legacySchema] ∨
      step.engine.provider = .ok [addCities] ∨
      step.engine.provider = .ok [legacySchema, addRegions] := by
    revert step
    simp [takeover, takeoverEngine]
  rcases provided with same | same | same <;>
  · cases same.symm.trans offered
    decide

theorem floor_permanent_takeover :
    baselineFloor? takenOver.store.rows = some (.ofMajor 5) ∧
      baselineFloor? (performAll (takeover.take 2) takenOver).store.rows = some (.ofMajor 5) ∧
      (performAll takeover takenOver).executed.map (·.version) =
        [some (.ofMajor 7), some (.ofMajor 7)] ∧
      ∃ ran, (performAll takeover takenOver).executed = takenOver.executed ++ ran ∧
        ∀ unit ∈ ran, ∀ version, unit.version = some version → ¬version ≤ Version.ofMajor 5 := by
  have found : baselineFloor? takenOver.store.rows = some (.ofMajor 5) := by cbv
  obtain ⟨stays, executed⟩ := floor_permanent takeover offersPlain_of_mem_takeover found
  exact ⟨found, stays (takeover.take 2) _ rfl, by cbv, executed⟩

end Takeover

end SchemaLedger
