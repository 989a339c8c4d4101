import SchemaLedger.Proofs.Engine.Clearance
import SchemaLedger.Proofs.Engine.Plan

/-!
# What a repair keeps of a clear ledger

A repair of a ledger on which nothing blocks may drop failed attempts of the past, align checksums
and mark rows as deleted, but it takes no unit's last success away, so the ledger stays clear and
the same units are planned in the same order.
-/

namespace SchemaLedger

namespace RepairReport

variable {catalog : Catalog} {config : Config} {rows : List Row} {unit : Migration} {row : Row}

/-- The last row of a unit stays the last if it has succeeded, and takes at most the checksum of a
versioned unit. -/
theorem lastVisible?_settledRows_of_success (member : unit ∈ catalog.migrations)
    (last : lastVisible? rows unit.identity = some row) (success : row.success = true) :
    ∃ left, lastVisible? (settledRows catalog rows) unit.identity = some left ∧
      left.success = true ∧ left.kind = row.kind ∧
      (left = row ∨ unit.isVersioned = true ∧ left.checksum = unit.checksum) := by
  have visible := isVisible_of_lastVisible?_eq_some last
  have key := key_eq_of_lastVisible?_eq_some last
  have found : catalog.find? row.identity = some unit :=
    Catalog.find?_eq_some_iff.mpr ⟨member, key.symm⟩
  obtain ⟨left, stays⟩ := exists_apply_of_success catalog success
  have settled := Disposition.settled_apply catalog row
  rw [stays] at settled
  cases settled with
  | versioned before _ other same versioned =>
    cases found.symm.trans same
    refine ⟨_, lastVisible?_settledRows_eq_some last stays visible, success, rfl, .inr ⟨?_, rfl⟩⟩
    exact (Migration.isVersioned_eq_of_key_eq key.symm).trans versioned
  | deleted _ _ gone => simp [found] at gone
  | _ => exact ⟨row, lastVisible?_settledRows_eq_some last stays visible, success, rfl, .inl rfl⟩

/-- A row that establishes a baseline stays the last of its identity. -/
theorem lastVisible?_settledRows_of_isEffectiveBaseline (catalog : Catalog) {identity : Identity}
    (last : lastVisible? rows identity = some row) (establishes : row.isEffectiveBaseline = true) :
    ∃ left, lastVisible? (settledRows catalog rows) identity = some left ∧
      left.isEffectiveBaseline = true := by
  obtain ⟨left, stays⟩ := exists_apply_of_success catalog (Bool.and_eq_true_iff.mp establishes).1
  have establishing : left.isEffectiveBaseline = true := by
    rw [isEffectiveBaseline_of_apply stays, establishes]
  have visible := Entry.isVisible_of_isEffectiveBaseline establishing
  exact ⟨left, lastVisible?_settledRows_eq_some last stays visible, establishing⟩

/-- The same units are due on a clear ledger before and after a repair. -/
theorem isDue_settledRows (clear : Clear catalog config rows) (member : unit ∈ catalog.migrations) :
    unit.isDue (settledRows catalog rows) = unit.isDue rows := by
  cases last : lastVisible? rows unit.identity with
  | none =>
    simp only [Migration.isDue, last, lastVisible?_settledRows_eq_none last,
      baselineFloor?_settledRows]
  | some row =>
    have success := (clear.applied unit member row last).1
    obtain ⟨left, found, successful, _, rfl | ⟨versioned, _⟩⟩ :=
      lastVisible?_settledRows_of_success member last success
    · simp only [Migration.isDue, last, found]
    · have once : unit.isRepeatable = false := by
        simpa [Migration.isRepeatable, Migration.isVersioned] using versioned
      simp [Migration.isDue, last, found, once]

theorem plan_settledRows (clear : Clear catalog config rows) :
    Rollout.plan config (Overview.of catalog (settledRows catalog rows)) =
      Rollout.plan config (Overview.of catalog rows) := by
  rw [Rollout.plan_eq, Rollout.plan_eq]
  congr 1
  apply List.filter_congr
  intro unit member
  rw [isDue_settledRows clear member]

theorem clear_settledRows (clear : Clear catalog config rows) :
    Clear catalog config (settledRows catalog rows) := by
  refine ⟨?_, ?_, ?_⟩
  · intro unit member absent
    cases last : lastVisible? rows unit.identity with
    | some row =>
      obtain ⟨left, found, _⟩ :=
        lastVisible?_settledRows_of_success member last (clear.applied unit member row last).1
      simp [absent] at found
    | none =>
      rw [baselineFloor?_settledRows]
      rcases clear.unapplied unit member last with covered | free | ordered
      · exact .inl covered
      · exact .inr (.inl free)
      refine .inr (.inr ?_)
      intro version applied known raised
      obtain ⟨highest, before, below⟩ := highestApplied?_settledRows raised
      have above := ordered version highest known before
      grind
  · intro unit member left found
    cases last : lastVisible? rows unit.identity with
    | none => simp [lastVisible?_settledRows_eq_none last] at found
    | some row =>
      obtain ⟨success, aligned⟩ := clear.applied unit member row last
      obtain ⟨other, same, successful, kind, unchanged⟩ :=
        lastVisible?_settledRows_of_success member last success
      cases found.symm.trans same
      refine ⟨successful, ?_⟩
      intro validates
      obtain ⟨agrees, drift⟩ := aligned validates
      refine ⟨by rwa [Info.agrees, kind], ?_⟩
      rcases unchanged with rfl | ⟨_, checksum⟩
      · exact drift
      · simp [Info.drifted, checksum]
  · intro left found gone
    have stays := mem_of_lastVisible?_eq_some found
    have visible := isVisible_of_lastVisible?_eq_some found
    rw [baselineFloor?_settledRows]
    cases plain : left.isEffectiveBaseline with
    | true => exact .inl rfl
    | false =>
      obtain ⟨success, above⟩ := isAbove_of_settledRows stays visible gone plain
      cases last : lastVisible? rows left.identity with
      | none => simp [lastVisible?_settledRows_eq_none last] at found
      | some row =>
        have key := key_eq_of_lastVisible?_eq_some last
        have versions := Identity.significant_eq_of_key_eq key
        simp only [Entry.identity, Identity.version?_of] at versions
        have known : lastVisible? rows row.identity = some row := by rwa [lastVisible?_congr key]
        rcases clear.unresolved row known (by rwa [Catalog.find?_congr key]) with
          establishes | covered | ⟨_, overlooked⟩
        · have same := lastVisible?_settledRows_of_isEffectiveBaseline catalog known establishes
          rw [lastVisible?_congr key, found] at same
          simp [plain] at same
        · exact .inr (.inl (by rwa [← isCovered_congr _ versions]))
        · rw [isAbove_congr _ versions] at overlooked
          exact .inr (.inr ⟨success, overlooked⟩)

theorem settledRows_ne_nil (clear : Clear catalog config rows) (history : rows ≠ []) :
    settledRows catalog rows ≠ [] := by
  intro nothing
  -- Only failed rows can be removed, and no floor is left, so the last of them would block.
  have fails (row : Row) (member : row ∈ rows) : row.isVisible = true ∧ row.success = false := by
    have settled := Disposition.settled_apply catalog row
    rw [List.filterMap_eq_nil_iff.mp nothing row member] at settled
    cases settled with
    | failed visible failure => exact ⟨visible, failure⟩
  have noFloor : baselineFloor? rows = none := by
    rw [← baselineFloor?_settledRows catalog, nothing]
    rfl
  obtain ⟨first, present⟩ := List.exists_mem_of_ne_nil rows history
  obtain ⟨row, last⟩ := exists_lastVisible? present (fails first present).1
  have failure := (fails row (mem_of_lastVisible?_eq_some last)).2
  have known : lastVisible? rows row.identity = some row := by
    rwa [lastVisible?_congr (key_eq_of_lastVisible?_eq_some last)]
  cases found : catalog.find? row.identity with
  | some unit =>
    obtain ⟨member, same⟩ := Catalog.find?_eq_some_iff.mp found
    have success := (clear.applied unit member row (by rwa [lastVisible?_congr same])).1
    simp [failure] at success
  | none =>
    rcases clear.unresolved row known found with establishes | covered | ⟨success, _⟩
    · simp [Entry.isEffectiveBaseline, failure] at establishes
    · simp [noFloor, isCovered] at covered
    · simp [failure] at success

end RepairReport

end SchemaLedger
