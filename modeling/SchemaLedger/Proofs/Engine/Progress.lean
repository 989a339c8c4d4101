import SchemaLedger.Proofs.Engine.Plan
import SchemaLedger.Proofs.Info.Highest
import SchemaLedger.Proofs.Ledger.Memory
import SchemaLedger.Proofs.Validation.Blocking

/-!
# What executed units leave to do

The rows of executed units are the last of their identities, raise the highest applied version and
move no floor. If the units were the first ones of a plan, the rest of the plan is what is planned
afterwards, and nothing blocks it: what is still to come has no lower version, and a unit that is
held back by the target is above all that the target lets through.
-/

namespace SchemaLedger

/-- The rows of units that have been executed in order. -/
def recorded (rank : Int) (installedBy : String) (clock : Clock) (units : List Migration) :
    List Row :=
  Entry.ranked rank (units.map fun unit => .ofExecution unit installedBy clock true)

section Recorded

variable {rank : Int} {installedBy : String} {clock : Clock} {units : List Migration}
  {rows : List Row} {row : Row} {unit : Migration} {identity : Identity}

theorem exists_unit_of_mem_recorded (member : row ∈ recorded rank installedBy clock units) :
    ∃ unit ∈ units, row.toEntry = .ofExecution unit installedBy clock true := by
  obtain ⟨unit, present, same⟩ := List.mem_map.mp (Entry.toEntry_mem_of_mem_ranked member)
  exact ⟨unit, present, same.symm⟩

theorem exists_row_mem_recorded (rank : Int) (installedBy : String) (clock : Clock)
    (member : unit ∈ units) :
    ∃ row ∈ recorded rank installedBy clock units,
      row.toEntry = .ofExecution unit installedBy clock true := by
  have listed := List.mem_map_of_mem (f := fun unit =>
    Entry.ofExecution unit installedBy clock true) member
  rw [← Entry.map_toEntry_ranked rank (units.map _)] at listed
  exact List.mem_map.mp listed

theorem lastVisible?_append_recorded_of_ne
    (other : ∀ unit ∈ units, unit.identity.key ≠ identity.key) :
    lastVisible? (rows ++ recorded rank installedBy clock units) identity =
      lastVisible? rows identity := by
  have absent : lastVisible? (recorded rank installedBy clock units) identity = none := by
    apply lastVisible?_eq_none_iff.mpr
    intro row member _
    obtain ⟨unit, present, entry⟩ := exists_unit_of_mem_recorded member
    rw [entry]
    exact other unit present
  rw [lastVisible?_append, absent, Option.none_or]

/-- The row of an executed unit is the last of its identity. -/
theorem lastVisible?_append_recorded_of_mem (rows : List Row) (rank : Int) (installedBy : String)
    (clock : Clock) (plain : unit.isPlain = true) (member : unit ∈ units)
    (unique : ∀ other ∈ units, other.identity.key = unit.identity.key → other = unit) :
    ∃ row, lastVisible? (rows ++ recorded rank installedBy clock units) unit.identity = some row ∧
      row.toEntry = .ofExecution unit installedBy clock true := by
  cases last : lastVisible? (recorded rank installedBy clock units) unit.identity with
  | none =>
    obtain ⟨row, present, entry⟩ := exists_row_mem_recorded rank installedBy clock member
    have visible : row.isVisible = true := by
      simp [entry, Entry.isVisible, Entry.ofExecution, (Migration.kind_of_isPlain plain).1]
    have differs := lastVisible?_eq_none_iff.mp last row present visible
    rw [entry] at differs
    exact absurd rfl differs
  | some row =>
    obtain ⟨other, present, entry⟩ := exists_unit_of_mem_recorded (mem_of_lastVisible?_eq_some last)
    have same := key_eq_of_lastVisible?_eq_some last
    rw [entry, Entry.identity_ofExecution] at same
    rw [unique other present same] at entry
    exact ⟨row, by rw [lastVisible?_append, last, Option.some_or], entry⟩

theorem baselineFloor?_append_recorded (plain : ∀ unit ∈ units, unit.isPlain = true) :
    baselineFloor? (rows ++ recorded rank installedBy clock units) = baselineFloor? rows := by
  apply baselineFloor?_append
  intro row member
  obtain ⟨unit, present, entry⟩ := exists_unit_of_mem_recorded member
  simp [entry, Entry.isEffectiveBaseline, Entry.ofExecution,
    (Migration.kind_of_isPlain (plain unit present)).2.1]

/-- The highest applied version is no higher than before, or the version of an executed unit. -/
theorem highestApplied?_append_recorded {version : Version}
    (found : highestApplied? (rows ++ recorded rank installedBy clock units) = some version) :
    (∃ highest, highestApplied? rows = some highest ∧ version ≤ highest) ∨
      ∃ unit ∈ units, unit.version = some version := by
  obtain ⟨row, member, success, visible, same⟩ := exists_row_of_highestApplied?_eq_some found
  rcases List.mem_append.mp member with before | added
  · exact .inl (exists_le_highestApplied? before success visible same)
  · obtain ⟨unit, present, entry⟩ := exists_unit_of_mem_recorded added
    rw [entry] at same
    exact .inr ⟨unit, present, same⟩

end Recorded

section Progress

variable {catalog : Catalog} {config : Config} {rows : List Row} {done rest : List Migration}
  (rank : Int) (installedBy : String) (clock : Clock)

/-- Either a unit of the catalog was executed and its row is the last of its identity, or its last
row is what it was. -/
theorem lastVisible?_append_recorded_cases (rows : List Row)
    (plain : ∀ unit ∈ catalog.migrations, unit.isPlain = true)
    (offered : ∀ unit ∈ done, unit ∈ catalog.migrations)
    {unit : Migration} (member : unit ∈ catalog.migrations) :
    (unit ∈ done ∧
      ∃ row, lastVisible? (rows ++ recorded rank installedBy clock done) unit.identity = some row ∧
        row.toEntry = .ofExecution unit installedBy clock true) ∨
    (∀ other ∈ done, other.identity.key ≠ unit.identity.key) ∧
      lastVisible? (rows ++ recorded rank installedBy clock done) unit.identity =
        lastVisible? rows unit.identity := by
  have shared {other : Migration} (executed : other ∈ done)
      (same : other.identity.key = unit.identity.key) : other = unit :=
    Catalog.eq_of_key_eq (offered other executed) member same
  by_cases executed : ∃ other ∈ done, other.identity.key = unit.identity.key
  · obtain ⟨other, present, same⟩ := executed
    cases shared present same
    exact .inl ⟨present, lastVisible?_append_recorded_of_mem rows rank installedBy clock
      (plain unit member) present fun _ => shared⟩
  · have others : ∀ other ∈ done, other.identity.key ≠ unit.identity.key := by simpa using executed
    exact .inr ⟨others, lastVisible?_append_recorded_of_ne others⟩

/-- An executed unit is not due any more, and for the other units nothing changes. -/
theorem isDue_append_recorded (rows : List Row)
    (plain : ∀ unit ∈ catalog.migrations, unit.isPlain = true)
    (offered : ∀ unit ∈ done, unit ∈ catalog.migrations) {unit : Migration}
    (member : unit ∈ catalog.migrations) :
    (unit ∈ done ∧ unit.isDue (rows ++ recorded rank installedBy clock done) = false) ∨
      (∀ other ∈ done, other.identity.key ≠ unit.identity.key) ∧
        unit.isDue (rows ++ recorded rank installedBy clock done) = unit.isDue rows := by
  rcases lastVisible?_append_recorded_cases rank installedBy clock rows plain offered member with
    ⟨executed, row, last, entry⟩ | ⟨others, unchanged⟩
  · refine .inl ⟨executed, ?_⟩
    simp [Migration.isDue, last, Info.drifted, entry, Entry.ofExecution]
  · refine .inr ⟨others, ?_⟩
    rw [Migration.isDue, Migration.isDue, unchanged,
      baselineFloor?_append_recorded fun other present => plain other (offered other present)]

variable (planned : Rollout.plan config (Overview.of catalog rows) = done ++ rest)

include planned in
theorem mem_catalog_of_planned {unit : Migration} (member : unit ∈ done ++ rest) :
    unit ∈ catalog.migrations ∧ Rollout.isWithinTarget config unit = true ∧
      unit.isDue rows = true := by
  rw [← planned] at member
  exact Rollout.mem_plan_iff.mp member

include planned in
/-- After the first units of a plan have been executed, the rest of it is planned. -/
theorem plan_append_recorded (plain : ∀ unit ∈ catalog.migrations, unit.isPlain = true) :
    Rollout.plan config (Overview.of catalog (rows ++ recorded rank installedBy clock done)) =
      rest := by
  have offered (unit : Migration) (member : unit ∈ done) : unit ∈ catalog.migrations :=
    (mem_catalog_of_planned planned (List.mem_append_left _ member)).1
  have fewer : ∀ unit ∈ catalog.migrations,
      unit.isDue (rows ++ recorded rank installedBy clock done) = true →
        unit.isDue rows = true := by
    intro unit member due
    rcases isDue_append_recorded rank installedBy clock rows plain offered member with
      ⟨_, ended⟩ | ⟨_, same⟩
    · simp [ended] at due
    · rwa [same] at due
  -- No two planned units share a key, so executing one settles no other.
  have distinct := Rollout.nodup_keys_plan catalog config rows
  rw [planned, List.map_append, List.nodup_append] at distinct
  rw [Rollout.plan_eq_filter fewer, planned, List.filter_append]
  have finished : done.filter (·.isDue (rows ++ recorded rank installedBy clock done)) = [] := by
    apply List.filter_eq_nil_iff.mpr
    intro unit member
    rcases isDue_append_recorded rank installedBy clock rows plain offered
        (offered unit member) with
      ⟨_, ended⟩ | ⟨others, _⟩
    · simp [ended]
    · exact absurd rfl (others unit member)
  have left : rest.filter (·.isDue (rows ++ recorded rank installedBy clock done)) = rest := by
    apply List.filter_eq_self.mpr
    intro unit member
    obtain ⟨present, _, due⟩ := mem_catalog_of_planned planned (List.mem_append_right _ member)
    rcases isDue_append_recorded rank installedBy clock rows plain offered present with
      ⟨executed, _⟩ | ⟨_, same⟩
    · exact absurd rfl
        (distinct.2.2 _ (List.mem_map_of_mem executed) _ (List.mem_map_of_mem member))
    · rwa [same]
  rw [finished, left, List.nil_append]

include planned in
/-- A unit that has not run yet is not below one that has: either the plan puts it later, or it is
above the target. -/
theorem not_lt_of_planned {unit executed : Migration} {version applied : Version}
    (member : unit ∈ catalog.migrations) (due : unit.isDue rows = true)
    (known : unit.version = some version)
    (present : executed ∈ done) (ran : executed.version = some applied)
    (others : ∀ other ∈ done, other.identity.key ≠ unit.identity.key) : ¬ version < applied := by
  have within := (mem_catalog_of_planned planned (List.mem_append_left rest present)).2.1
  cases mine : Rollout.isWithinTarget config unit with
  | true =>
    have listed : unit ∈ done ++ rest := planned ▸ Rollout.mem_plan_iff.mpr ⟨member, mine, due⟩
    rcases List.mem_append.mp listed with early | late
    · exact absurd rfl (others unit early)
    · have ordered := Rollout.plan_pairwise catalog config rows
      rw [planned] at ordered
      have below := (List.pairwise_append.mp ordered).2.2 executed present unit late
        applied version ran known
      exact Std.not_lt.mpr below
  | false =>
    cases limit : config.target with
    | none => simp [Rollout.isWithinTarget, Rollout.isWithinTarget.isAboveTarget, limit,
        known] at mine
    | some target =>
      simp only [Rollout.isWithinTarget, Rollout.isWithinTarget.isAboveTarget, limit, known, ran,
        Bool.not_eq_true', Bool.not_eq_false', decide_eq_true_eq,
        decide_eq_false_iff_not] at mine within
      grind

include planned in
/-- After the first units of a plan have been executed, nothing blocks the rest. -/
theorem Clear.append_recorded (clear : Clear catalog config rows)
    (plain : ∀ unit ∈ catalog.migrations, unit.isPlain = true) :
    Clear catalog config (rows ++ recorded rank installedBy clock done) := by
  have offered (unit : Migration) (member : unit ∈ done) : unit ∈ catalog.migrations :=
    (mem_catalog_of_planned planned (List.mem_append_left _ member)).1
  have floor :
      baselineFloor? (rows ++ recorded rank installedBy clock done) = baselineFloor? rows :=
    baselineFloor?_append_recorded fun unit member => plain unit (offered unit member)
  refine ⟨?_, ?_, ?_⟩
  · intro unit member absent
    rcases lastVisible?_append_recorded_cases rank installedBy clock rows plain offered member with
      ⟨_, row, last, _⟩ | ⟨others, unchanged⟩
    · simp [absent] at last
    rw [unchanged] at absent
    rw [floor]
    cases covered : isCovered (baselineFloor? rows) unit.version with
    | true => exact .inl rfl
    | false =>
      have due : unit.isDue rows = true := by simp [Migration.isDue, absent, covered]
      have before := (clear.unapplied unit member absent).resolve_left (by simp [covered])
      rcases before with free | ordered
      · exact .inr (.inl free)
      refine .inr (.inr ?_)
      intro version applied known raised
      rcases highestApplied?_append_recorded raised with
        ⟨highest, found, below⟩ | ⟨executed, present, ran⟩
      · have above := ordered version highest known found
        grind
      · exact not_lt_of_planned planned member due known present ran others
  · intro unit member row last
    rcases lastVisible?_append_recorded_cases rank installedBy clock rows plain offered member with
      ⟨_, other, found, entry⟩ | ⟨_, unchanged⟩
    · cases found.symm.trans last
      simp [entry, Info.agrees, Info.drifted, Entry.ofExecution, Kind.isCompatibleWith]
    · rw [unchanged] at last
      exact clear.applied unit member row last
  · intro row last gone
    have others : ∀ other ∈ done, other.identity.key ≠ row.identity.key := fun other executed =>
      Catalog.find?_eq_none_iff.mp gone other (offered other executed)
    rw [lastVisible?_append_recorded_of_ne others] at last
    rw [floor]
    exact clear.unresolved row last gone

end Progress

end SchemaLedger
