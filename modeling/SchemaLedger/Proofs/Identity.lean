import SchemaLedger.Info.Reconciliation
import SchemaLedger.Proofs.Version.Order

/-!
# Equal identities

Identities are equal exactly if their keys are the same, so equality of identities is an
equivalence, and whatever looks at a version only through the order of versions cannot tell equal
identities apart.
-/

namespace SchemaLedger

namespace Identity

@[simp]
theorem versioned_beq_versioned (version other : Version) (description words : String) :
    (versioned version description == versioned other words) =
      (version == other && description == words) := rfl

@[simp]
theorem versioned_beq_repeatable (version : Version) (description words : String) :
    (versioned version description == repeatable words) = false := rfl

@[simp]
theorem repeatable_beq_versioned (other : Version) (description words : String) :
    (repeatable description == versioned other words) = false := rfl

@[simp]
theorem repeatable_beq_repeatable (description words : String) :
    (repeatable description == repeatable words) = (description == words) := rfl

theorem beq_iff_key_eq {first second : Identity} :
    (first == second) = true ↔ first.key = second.key := by
  cases first <;> cases second <;>
    simp [key, version?, description, Version.beq_iff_significant_eq]

theorem beq_eq_false_iff_key_ne {first second : Identity} :
    (first == second) = false ↔ first.key ≠ second.key := by
  rw [← Bool.not_eq_true, beq_iff_key_eq]

instance : EquivBEq Identity where
  rfl := beq_iff_key_eq.mpr rfl
  symm same := beq_iff_key_eq.mpr (beq_iff_key_eq.mp same).symm
  trans first second :=
    beq_iff_key_eq.mpr ((beq_iff_key_eq.mp first).trans (beq_iff_key_eq.mp second))

instance : LawfulHashable Identity where
  hash_eq first second same := by
    cases first with
    | versioned version description =>
      cases second with
      | versioned other words =>
        obtain ⟨versions, rfl⟩ : (version == other) = true ∧ description = words := by
          simpa using same
        change mixHash (mixHash 0 (hash version)) _ = mixHash (mixHash 0 (hash other)) _
        rw [hash_eq versions]
      | repeatable words => simp at same
    | repeatable description =>
      cases second with
      | versioned other words => simp at same
      | repeatable words => rw [show description = words by simpa using same]

theorem beq_congr_right {first second : Identity} (same : first.key = second.key)
    (identity : Identity) : (identity == first) = (identity == second) := by
  rw [Bool.eq_iff_iff, beq_iff_key_eq, beq_iff_key_eq, same]

theorem significant_eq_of_key_eq {first second : Identity} (same : first.key = second.key) :
    first.version?.map Version.significant = second.version?.map Version.significant :=
  congrArg Prod.fst same

/-- Equal identities have versions that are not above each other. -/
theorem exists_le_of_key_eq {first second : Identity} {version : Version}
    (same : first.key = second.key) (known : first.version? = some version) :
    ∃ other, second.version? = some other ∧ version ≤ other := by
  have versions := significant_eq_of_key_eq same
  rw [known] at versions
  cases found : second.version? with
  | none => simp [found] at versions
  | some other =>
    have equal : version.significant = other.significant := by simpa [found] using versions
    exact ⟨other, rfl, (Std.beq_iff_le_and_ge.mp (Version.beq_iff_significant_eq.mpr equal)).1⟩

/-- Versioned identities come before repeatable ones, in ascending order of their versions;
repeatable ones come in strictly ascending order of their descriptions. -/
def ComesBefore (first second : Identity) : Prop :=
  match first.version?, second.version? with
  | some version, some other => version ≤ other
  | some _, none => True
  | none, some _ => False
  | none, none => first.description < second.description

end Identity

namespace Migration

@[simp]
theorem version?_identity (migration : Migration) :
    migration.identity.version? = migration.version :=
  Identity.version?_of _ _

/-- A unit is versioned exactly if the entries of its identity are. -/
theorem isVersioned_eq_of_key_eq {migration : Migration} {entry : Entry}
    (same : migration.identity.key = entry.identity.key) :
    migration.isVersioned = entry.isVersioned := by
  have versions := congrArg Option.isSome (Identity.significant_eq_of_key_eq same)
  simpa [Entry.identity, isVersioned, Entry.isVersioned] using versions

end Migration

/-- Entries of one identity are versioned or repeatable together. -/
theorem Entry.isVersioned_eq_of_key_eq {entry other : Entry}
    (same : entry.identity.key = other.identity.key) : entry.isVersioned = other.isVersioned := by
  have versions := congrArg Option.isSome (Identity.significant_eq_of_key_eq same)
  simpa [Entry.identity, Entry.isVersioned] using versions

section Bounds

variable {version other : Option Version}

private theorem beq_of_map_eq {version other : Version}
    (same : (some version).map Version.significant = (some other).map Version.significant) :
    version ≤ other ∧ other ≤ version :=
  Std.beq_iff_le_and_ge.mp (Version.beq_iff_significant_eq.mpr (Option.some.inj same))

theorem isCovered_congr (floor : Option Version)
    (same : version.map Version.significant = other.map Version.significant) :
    isCovered floor version = isCovered floor other := by
  cases floor with
  | none => simp [isCovered]
  | some floor =>
    cases version with
    | none => cases other <;> simp_all [isCovered]
    | some version =>
      cases other with
      | none => simp at same
      | some other =>
        obtain ⟨below, above⟩ := beq_of_map_eq same
        simp only [isCovered, decide_eq_decide]
        exact ⟨Std.le_trans above, Std.le_trans below⟩

theorem isAbove_congr (ceiling : Option Version)
    (same : version.map Version.significant = other.map Version.significant) :
    isAbove ceiling version = isAbove ceiling other := by
  cases version with
  | none => cases other <;> simp_all [isAbove]
  | some version =>
    cases other with
    | none => simp at same
    | some other =>
      cases ceiling with
      | none => rfl
      | some ceiling =>
        obtain ⟨below, above⟩ := beq_of_map_eq same
        simp only [isAbove, decide_eq_decide]
        exact ⟨fun strict => Std.lt_of_lt_of_le strict below,
          fun strict => Std.lt_of_lt_of_le strict above⟩

end Bounds

end SchemaLedger
