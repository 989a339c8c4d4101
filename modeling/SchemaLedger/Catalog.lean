import SchemaLedger.Migration

/-!
# Catalogs

A catalog is a list of units, in the order of their discovery, no two of which have the same
identity. `ofList?` refuses any other list and names the first unit whose identity has occurred
before, together with the unit that bears it already.
-/

namespace SchemaLedger

/-- Units in discovery order with pairwise different identities. -/
structure Catalog where
  migrations : List Migration
  distinct : migrations.Pairwise fun first second => (first.identity == second.identity) = false

namespace Catalog

/-- Looks for a unit whose identity a known or an earlier unit bears, and for that unit. -/
def firstNamesake? (known : List Migration) : List Migration → Option (Migration × Migration)
  | [] => none
  | migration :: rest =>
      match known.find? (·.identity == migration.identity) with
      | some namesake => some (namesake, migration)
      | none => firstNamesake? (known ++ [migration]) rest

/-- A unit without a namesake among different units is different from all of them. -/
theorem pairwise_concat {known : List Migration} {unit : Migration}
    (distinct : known.Pairwise fun first second => (first.identity == second.identity) = false)
    (fresh : known.find? (·.identity == unit.identity) = none) :
    (known ++ [unit]).Pairwise fun first second => (first.identity == second.identity) = false := by
  rw [List.pairwise_append]
  refine ⟨distinct, List.pairwise_singleton _ _, fun first member second last => ?_⟩
  rw [List.mem_singleton] at last
  subst last
  simpa using List.find?_eq_none.mp fresh first member

theorem pairwise_of_firstNamesake?_eq_none {known units : List Migration}
    (distinct : known.Pairwise fun first second => (first.identity == second.identity) = false)
    (absent : firstNamesake? known units = none) :
    (known ++ units).Pairwise fun first second =>
      (first.identity == second.identity) = false := by
  induction units generalizing known with
  | nil => simpa using distinct
  | cons unit rest ih =>
    unfold firstNamesake? at absent
    cases found : known.find? (·.identity == unit.identity) with
    | some namesake => simp [found] at absent
    | none =>
      simp only [found] at absent
      simpa using ih (pairwise_concat distinct found) absent

/-- The catalog of some units, unless two of them have the same identity. -/
def ofList? (migrations : List Migration) : Except Error Catalog :=
  match absent : firstNamesake? [] migrations with
  | some (first, second) =>
      .error (.validation (.duplicate first.identity first.script second.script))
  | none => .ok ⟨migrations, pairwise_of_firstNamesake?_eq_none .nil absent⟩

def empty : Catalog := ⟨[], .nil⟩

/-- The versioned units in discovery order. -/
def versioned (catalog : Catalog) : List Migration := catalog.migrations.filter (·.isVersioned)

def repeatable (catalog : Catalog) : List Migration := catalog.migrations.filter (·.isRepeatable)

/-- The highest version of a unit, the last spelling of it. -/
def highestVersion? (catalog : Catalog) : Option Version :=
  Version.highest? (catalog.migrations.filterMap (·.version))

def find? (catalog : Catalog) (identity : Identity) : Option Migration :=
  catalog.migrations.find? (·.identity == identity)

theorem mem_of_find?_eq_some {catalog : Catalog} {identity : Identity} {migration : Migration}
    (found : catalog.find? identity = some migration) : migration ∈ catalog.migrations :=
  List.mem_of_find?_eq_some found

theorem identity_beq_of_find?_eq_some {catalog : Catalog} {identity : Identity}
    {migration : Migration} (found : catalog.find? identity = some migration) :
    (migration.identity == identity) = true := by
  unfold find? at found
  exact List.find?_some (p := fun unit : Migration => unit.identity == identity) found

def size (catalog : Catalog) : Nat := catalog.migrations.length

def isEmpty (catalog : Catalog) : Bool := catalog.migrations.isEmpty

end Catalog

end SchemaLedger
