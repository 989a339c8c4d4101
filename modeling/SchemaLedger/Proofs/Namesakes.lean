import SchemaLedger.Proofs.Version.Laws

/-!
# Namesakes

Two units are namesakes if their identities match: both are repeatable or both are versioned, with
versions that differ in zeros at the end only, and they have one description. A list of units makes
up a catalog exactly if it holds no namesakes, and then each identity finds the one unit that bears
it. A list with namesakes is refused: the first unit of the list that has a namesake before it is
named together with that namesake, which is the only one.

The search for namesakes looks through the units that it has passed. `mappedNamesake?` asks a hash
map over identities instead, and both give the same answer, since matching identities are one key.
-/

namespace SchemaLedger

/-- Neither identity has a version, or the versions are the same up to zeros at the end; and the
descriptions are the same. -/
inductive Identity.Matches : Identity → Identity → Prop where
  | repeatable (description : String) : Matches (.repeatable description) (.repeatable description)
  | versioned {version other : Version} (trimmed : version.trimmed = other.trimmed)
      (description : String) :
      Matches (.versioned version description) (.versioned other description)

theorem Identity.matches_iff_key_eq {first second : Identity} :
    first.Matches second ↔ first.key = second.key := by
  constructor
  · rintro (_ | ⟨trimmed, _⟩)
    · rfl
    · simpa [key, version?, description, Version.significant_eq_trimmed] using trimmed
  · intro same
    cases first with
    | versioned version words =>
      cases second with
      | versioned other others =>
        obtain ⟨significant, rfl⟩ : version.significant = other.significant ∧ words = others := by
          simpa [key, version?, description] using same
        rw [Version.significant_eq_trimmed, Version.significant_eq_trimmed] at significant
        exact .versioned significant _
      | repeatable others => simp [key, version?] at same
    | repeatable words =>
      cases second with
      | versioned other others => simp [key, version?] at same
      | repeatable others =>
        obtain rfl : words = others := by simpa [key, version?, description] using same
        exact .repeatable _

def HasNoNamesakes (units : List Migration) : Prop :=
  units.Pairwise fun first second => ¬ first.identity.Matches second.identity

/-- An identity finds the only unit whose identity matches it, or nothing if there is none. -/
inductive Finds (units : List Migration) (identity : Identity) : Option Migration → Prop where
  | unit {unit : Migration} {before after : List Migration}
      (split : units = before ++ unit :: after)
      (same : unit.identity.Matches identity)
      (only : ∀ other ∈ before ++ after, ¬ other.identity.Matches identity) :
      Finds units identity (some unit)
  | nothing (strange : ∀ unit ∈ units, ¬ unit.identity.Matches identity) :
      Finds units identity none

/-- The second unit is the first one of the list that has a namesake before it, and the first unit
is this namesake, of which there is no other. -/
inductive FirstNamesakes (units : List Migration) (first second : Migration) : Prop where
  | intro {before between after : List Migration}
      (split : units = before ++ first :: (between ++ second :: after))
      (earlier : HasNoNamesakes (before ++ first :: between))
      (same : first.identity.Matches second.identity)
      (only : ∀ other ∈ before ++ between, ¬ other.identity.Matches second.identity)

section Units

variable {units before after : List Migration} {unit first second : Migration} {identity : Identity}

theorem hasNoNamesakes_iff :
    HasNoNamesakes units ↔
      units.Pairwise fun first second => (first.identity == second.identity) = false := by
  simp only [HasNoNamesakes, Identity.matches_iff_key_eq, Identity.beq_eq_false_iff_key_ne, ne_eq]

/-- Where there are no namesakes, only one unit matches an identity. -/
theorem HasNoNamesakes.only (distinct : HasNoNamesakes (before ++ unit :: after))
    (same : unit.identity.Matches identity) :
    ∀ other ∈ before ++ after, ¬ other.identity.Matches identity := by
  intro other member too
  rw [Identity.matches_iff_key_eq] at same too
  obtain ⟨_, rest, across⟩ := List.pairwise_append.mp distinct
  rcases List.mem_append.mp member with earlier | later
  · exact across other earlier unit List.mem_cons_self
      (Identity.matches_iff_key_eq.mpr (too.trans same.symm))
  · exact (List.pairwise_cons.mp rest).1 other later
      (Identity.matches_iff_key_eq.mpr (same.trans too.symm))

theorem Catalog.finds (catalog : Catalog) (identity : Identity) :
    Finds catalog.migrations identity (catalog.find? identity) := by
  cases found : catalog.find? identity with
  | none =>
    refine .nothing fun unit member same => ?_
    exact find?_eq_none_iff.mp found unit member (Identity.matches_iff_key_eq.mp same)
  | some unit =>
    obtain ⟨member, key⟩ := find?_eq_some_iff.mp found
    obtain ⟨before, after, split⟩ := List.append_of_mem member
    have same := Identity.matches_iff_key_eq.mpr key
    have distinct := hasNoNamesakes_iff.mpr catalog.distinct
    exact .unit split same (HasNoNamesakes.only (split ▸ distinct) same)

end Units

namespace Catalog

variable {known units : List Migration} {first second : Migration}

/-- The search ends at the first unit with a namesake among the known units or before it. -/
theorem exists_of_firstNamesake?_eq_some
    (distinct : known.Pairwise fun first second => (first.identity == second.identity) = false)
    (found : firstNamesake? known units = some (first, second)) :
    ∃ earlier after, known ++ units = earlier ++ second :: after ∧ HasNoNamesakes earlier ∧
      earlier.find? (·.identity == second.identity) = some first := by
  induction units generalizing known with
  | nil => cases found
  | cons unit rest ih =>
    rw [firstNamesake?] at found
    cases here : known.find? (·.identity == unit.identity) with
    | some namesake =>
      simp only [here, Option.some.injEq, Prod.mk.injEq] at found
      obtain ⟨rfl, rfl⟩ := found
      exact ⟨known, rest, rfl, hasNoNamesakes_iff.mpr distinct, here⟩
    | none =>
      rw [here] at found
      obtain ⟨earlier, after, split, rest⟩ := ih (pairwise_concat distinct here) found
      exact ⟨earlier, after, by rw [← split, List.append_assoc, List.singleton_append], rest⟩

/-- The units that a search names are the first namesakes of the list. -/
theorem firstNamesakes_of_eq_some (found : firstNamesake? [] units = some (first, second)) :
    FirstNamesakes units first second := by
  obtain ⟨earlier, after, split, distinct, namesake⟩ := exists_of_firstNamesake?_eq_some .nil found
  obtain ⟨same, before, between, rfl, _⟩ := List.find?_eq_some_iff_append.mp namesake
  have same := Identity.matches_iff_key_eq.mpr (Identity.beq_iff_key_eq.mp same)
  exact .intro (by simpa using split) distinct same (distinct.only same)

/-- Looks for a unit whose identity a hash map knows, adding the units that it passes. -/
def mappedNamesake? (seen : Std.HashMap Identity Migration) :
    List Migration → Option (Migration × Migration)
  | [] => none
  | migration :: rest =>
      match seen[migration.identity]? with
      | some namesake => some (namesake, migration)
      | none => mappedNamesake? (seen.insert migration.identity migration) rest

/-- A hash map that knows the same units leads to the same namesakes. -/
theorem mappedNamesake?_eq_firstNamesake? {seen : Std.HashMap Identity Migration}
    (agree : ∀ identity, seen[identity]? = known.find? (·.identity == identity)) :
    mappedNamesake? seen units = firstNamesake? known units := by
  induction units generalizing known seen with
  | nil => rfl
  | cons unit rest ih =>
    rw [mappedNamesake?, firstNamesake?, agree]
    cases here : known.find? (·.identity == unit.identity) with
    | some namesake => rfl
    | none =>
      refine ih fun identity => ?_
      rw [Std.HashMap.getElem?_insert, agree, List.find?_append]
      by_cases same : (unit.identity == identity) = true
      · have absent : known.find? (·.identity == identity) = none := by
          simpa only [Identity.beq_congr_right (Identity.beq_iff_key_eq.mp same)] using here
        simp [same, absent]
      · simp [same]

/-- A list of units makes up a catalog exactly if it holds no namesakes. The catalog keeps the list
and finds each unit by its identity; a list with namesakes is refused by naming the first of them.
Namesakes are the same for a hash map over identities. -/
theorem ofList?_lawful (units : List Migration) :
    ((∃ catalog, ofList? units = .ok catalog) ↔ HasNoNamesakes units) ∧
      (∀ catalog, ofList? units = .ok catalog →
        catalog.migrations = units ∧
          ∀ identity, Finds units identity (catalog.find? identity)) ∧
      (∀ error, ofList? units = .error error →
        ∃ first second, FirstNamesakes units first second ∧
          error = .validation (.duplicate first.identity first.script second.script)) ∧
      firstNamesake? [] units = mappedNamesake? ∅ units := by
  refine ⟨⟨?_, ?_⟩, ?_, ?_, ?_⟩
  · rintro ⟨catalog, made⟩
    rw [← migrations_of_ofList?_eq_ok made]
    exact hasNoNamesakes_iff.mpr catalog.distinct
  · intro distinct
    exact ⟨_, ofList?_migrations ⟨units, hasNoNamesakes_iff.mp distinct⟩⟩
  · intro catalog made
    have kept := migrations_of_ofList?_eq_ok made
    exact ⟨kept, fun identity => kept ▸ catalog.finds identity⟩
  · intro error refused
    unfold ofList? at refused
    split at refused
    · rename_i first second found
      cases refused
      exact ⟨first, second, firstNamesakes_of_eq_some found, rfl⟩
    · cases refused
  · exact (mappedNamesake?_eq_firstNamesake? fun identity => by simp).symm

example :
    (firstNamesake? []
      [.ofScript (.versioned (.ofMajor 1) "init") "", .ofScript (.repeatable "init") "",
        .ofScript (.versioned ⟨[1, 0], List.cons_ne_nil _ _⟩ "init") ""]).map
        (fun (first, second) => (first.script, second.script)) =
      some ("V1__init.sql", "V1.0__init.sql") := by cbv

end Catalog

end SchemaLedger
