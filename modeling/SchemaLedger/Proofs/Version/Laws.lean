import SchemaLedger.Proofs.Catalog
import SchemaLedger.Proofs.Info.LatestRows

/-!
# The laws of versions

Order, equality and hashing of versions are three definitions over lists of components of any
lengths. `Version.Lawful` says how they agree with each other and with what can be said without
them: the order is the lexicographic one, zeros standing for what is not written or being left out
at the end, equality is that of the components without trailing zeros, and these are what is hashed.
So versions that are equal cannot be told apart by comparing, and identities that differ in the
spelling of their version are one key: of a hash map, of a catalog, and of the latest rows.
-/

namespace SchemaLedger

/-- The identities are one key wherever something is kept for each identity. -/
structure Identity.OneKey (first second : Identity) : Prop where
  equal : (first == second) = true
  hashed : hash first = hash second
  /-- A hash map has the same under both. -/
  mapped : ∀ (α : Type) (map : Std.HashMap Identity α), map[first]? = map[second]?
  /-- No catalog has a unit of either. -/
  unshared : ∀ (before between after : List Migration) (unit other : Migration),
    unit.identity = first → other.identity = second →
      ∃ error, Catalog.ofList? (before ++ unit :: (between ++ other :: after)) = .error error
  /-- A catalog has the same unit for both. -/
  resolved : ∀ catalog : Catalog, catalog.find? first = catalog.find? second
  /-- Rows of both have one place among the latest rows, and the later one takes it. -/
  replaced : ∀ (row other : Row) (latest : List Row), row.identity = first →
    other.identity = second → putLatest other (putLatest row latest) = putLatest other latest
  /-- The latest rows have the same row for both. -/
  applied : ∀ rows, (latestRows rows).find? (·.identity == first) =
    (latestRows rows).find? (·.identity == second)

namespace Version

/-- The components, with zeros at the end up to a width. -/
def padded (version : Version) (width : Nat) : List UInt64 := version.parts.rightpad width 0

def trimmed (version : Version) : List UInt64 := version.parts.rdropWhile (· == 0)

theorem significant_eq_trimmed (version : Version) : version.significant = version.trimmed :=
  version.significant_eq_rdropWhile

/-- How order, equality and hashing of versions agree. -/
structure Lawful (first second third : Version) : Prop where
  /-- Components are compared one after the other, zeros standing for what is not written. -/
  padded : compare first second =
    List.compareLex compare
      (first.padded (max first.parts.length second.parts.length))
      (second.padded (max first.parts.length second.parts.length))
  /-- The order is the lexicographic one of the components without zeros at the end. -/
  trimmed : compare first second = List.compareLex compare first.trimmed second.trimmed
  swapped : compare second first = (compare first second).swap
  total : first ≤ second ∨ second ≤ first
  antisymm : first ≤ second → second ≤ first → (first == second) = true
  trans : first ≤ second → second ≤ third → first ≤ third
  equivalence : Equivalence fun version other : Version => (version == other) = true
  /-- Equal versions have the same components without zeros at the end. -/
  equal : (first == second) = true ↔ first.trimmed = second.trimmed
  /-- These components are what is hashed. -/
  hashed : hash first = hash first.trimmed
  /-- Equal versions compare alike with any other. -/
  alike : (first == second) = true →
    compare first third = compare second third ∧ compare third first = compare third second
  /-- Equal versions make one key with the same description. -/
  oneKey : (first == second) = true → ∀ description,
    (Identity.versioned first description).OneKey (.versioned second description)

end Version

theorem Identity.oneKey_of_beq {first second : Identity} (same : (first == second) = true) :
    first.OneKey second where
  equal := same
  hashed := hash_eq same
  mapped _ _ := Std.HashMap.getElem?_congr same
  unshared _ _ _ _ _ here there := Catalog.exists_error_of_namesakes (by rwa [here, there])
  resolved _ := Catalog.find?_congr (beq_iff_key_eq.mp same)
  replaced _ _ _ here there := putLatest_putLatest (by rwa [here, there]) _
  applied rows := by
    rw [find?_latestRows, find?_latestRows, lastVisible?_congr (beq_iff_key_eq.mp same)]

/-- Order, equality and hashing of versions agree, and equal versions make one key. -/
theorem Version.lawful (first second third : Version) : Lawful first second third := by
  have significant (version : Version) : version.significant = version.trimmed :=
    version.significant_eq_rdropWhile
  refine ⟨?_, ?_, Std.OrientedCmp.eq_swap, Std.le_total, ?_, Std.le_trans, ⟨?_, ?_, ?_⟩, ?_, ?_, ?_,
    ?_⟩
  · exact compareParts_eq_padded (Nat.le_max_left _ _) (Nat.le_max_right _ _)
  · rw [compare_eq_compare_significant, significant, significant]
    rfl
  · exact fun lower upper => Std.beq_iff_le_and_ge.mpr ⟨lower, upper⟩
  · exact fun version => BEq.rfl
  · exact BEq.symm
  · exact BEq.trans
  · rw [beq_iff_significant_eq, significant, significant]
  · rw [← significant]
    rfl
  · intro same
    have shared := beq_iff_significant_eq.mp same
    simp only [compare_eq_compare_significant, shared, and_self]
  · intro same description
    exact Identity.oneKey_of_beq (by simpa using same)

end SchemaLedger
