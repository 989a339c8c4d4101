import Mathlib.Data.List.Nodup
import SchemaLedger.Catalog
import SchemaLedger.Proofs.Identity

/-!
# Units and catalogs

The constructors of units make scripts and coded units and no other kinds. The units of a catalog
have pairwise different keys, so an identity finds the one unit that bears it, however the identity
spells its version.
-/

namespace SchemaLedger

namespace Migration

/-- The unit is a script or a coded unit, as the constructors make it. -/
def isPlain (migration : Migration) : Bool := migration.kind == .script || migration.kind == .code

/-- A plain unit is recorded as history, establishes no baseline, and is no undo. -/
theorem kind_of_isPlain {migration : Migration} (plain : migration.isPlain = true) :
    migration.kind.isMarker = false ∧ migration.kind.isBaseline = false ∧
      migration.kind.isUndo = false := by
  simp only [isPlain, Bool.or_eq_true, beq_iff_eq] at plain
  rcases plain with kind | kind <;> rw [kind] <;> decide

end Migration

namespace Catalog

theorem nodup_keys (catalog : Catalog) : (catalog.migrations.map (·.identity.key)).Nodup :=
  List.pairwise_map.mpr (catalog.distinct.imp Identity.beq_eq_false_iff_key_ne.mp)

/-- Units of a catalog with one key are the same unit. -/
theorem eq_of_key_eq {catalog : Catalog} {first second : Migration}
    (member : first ∈ catalog.migrations) (other : second ∈ catalog.migrations)
    (same : first.identity.key = second.identity.key) : first = second :=
  List.inj_on_of_nodup_map catalog.nodup_keys member other same

theorem find?_eq_some_iff {catalog : Catalog} {identity : Identity} {unit : Migration} :
    catalog.find? identity = some unit ↔
      unit ∈ catalog.migrations ∧ unit.identity.key = identity.key := by
  constructor
  · intro found
    exact ⟨mem_of_find?_eq_some found,
      Identity.beq_iff_key_eq.mp (identity_beq_of_find?_eq_some found)⟩
  · rintro ⟨member, same⟩
    cases found : catalog.find? identity with
    | none =>
      have absent := List.find?_eq_none.mp found unit member
      exact absurd (Identity.beq_iff_key_eq.mpr same) absent
    | some other =>
      have key := Identity.beq_iff_key_eq.mp (identity_beq_of_find?_eq_some found)
      rw [eq_of_key_eq (mem_of_find?_eq_some found) member (key.trans same.symm)]

theorem find?_eq_none_iff {catalog : Catalog} {identity : Identity} :
    catalog.find? identity = none ↔
      ∀ unit ∈ catalog.migrations, unit.identity.key ≠ identity.key := by
  simp [find?, Identity.beq_eq_false_iff_key_ne]

theorem find?_perm {catalog permuted : Catalog} (perm : catalog.migrations.Perm permuted.migrations)
    (identity : Identity) : permuted.find? identity = catalog.find? identity := by
  ext unit
  rw [find?_eq_some_iff, find?_eq_some_iff, perm.mem_iff]

theorem firstNamesake?_eq_none_of_pairwise {known units : List Migration}
    (distinct : (known ++ units).Pairwise fun first second =>
      (first.identity == second.identity) = false) : firstNamesake? known units = none := by
  induction units generalizing known with
  | nil => rfl
  | cons unit rest ih =>
    have fresh : known.find? (·.identity == unit.identity) = none := by
      refine List.find?_eq_none.mpr fun first member => ?_
      rw [(List.pairwise_append.mp distinct).2.2 first member unit List.mem_cons_self]
      exact Bool.false_ne_true
    rw [firstNamesake?, fresh]
    exact ih (by rwa [List.append_assoc, List.singleton_append])

/-- The units of a catalog make up that catalog. -/
theorem ofList?_migrations (catalog : Catalog) : ofList? catalog.migrations = .ok catalog := by
  have absent : firstNamesake? [] catalog.migrations = none :=
    firstNamesake?_eq_none_of_pairwise catalog.distinct
  unfold ofList?
  split
  · rename_i namesakes
    cases absent.symm.trans namesakes
  · rfl

theorem migrations_of_ofList?_eq_ok {units : List Migration} {catalog : Catalog}
    (made : ofList? units = .ok catalog) : catalog.migrations = units := by
  unfold ofList? at made
  split at made
  · cases made
  · cases made
    rfl

/-- Units of equal identities do not make up a catalog. -/
theorem exists_error_of_namesakes {before between after : List Migration} {unit other : Migration}
    (same : (unit.identity == other.identity) = true) :
    ∃ error, ofList? (before ++ unit :: (between ++ other :: after)) = .error error := by
  cases made : ofList? (before ++ unit :: (between ++ other :: after)) with
  | error error => exact ⟨error, rfl⟩
  | ok catalog =>
    have distinct := catalog.distinct
    rw [migrations_of_ofList?_eq_ok made] at distinct
    have apart := (List.pairwise_cons.mp (List.pairwise_append.mp distinct).2.1).1 other
      (List.mem_append_right _ List.mem_cons_self)
    cases same.symm.trans apart

theorem find?_congr {catalog : Catalog} {first second : Identity} (same : first.key = second.key) :
    catalog.find? first = catalog.find? second := by
  unfold find?
  congr 1
  funext unit
  exact Identity.beq_congr_right same _

end Catalog

end SchemaLedger
