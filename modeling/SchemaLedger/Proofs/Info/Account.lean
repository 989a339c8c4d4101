import Mathlib.Data.List.Nodup
import SchemaLedger.Proofs.Catalog
import SchemaLedger.Proofs.Info.Highest
import SchemaLedger.Proofs.Info.Reconciliation

/-!
# The account that a reconciliation gives

`Account` says which infos a catalog and the rows of a ledger call for and in which order, in terms
of last visible rows, of baselines and of first appearances, and without a word about how the infos
are found. It leaves no choice, and a reconciliation meets it: `eq_reconcile_iff` says that a list
of infos is the reconciliation exactly if it is such an account.
-/

namespace SchemaLedger

/-- What the rows say about a unit. -/
inductive UnitInfo (rows : List Row) (unit : Migration) : Info → Prop where
  /-- The unit has no row and never runs, because a baseline covers it. -/
  | ignored (absent : lastVisible? rows unit.identity = none)
      (covered : Covered rows unit.version) :
      UnitInfo rows unit { subject := .unapplied unit, status := .ignored }
  /-- The unit has no row. -/
  | pending (absent : lastVisible? rows unit.identity = none)
      (uncovered : ¬ Covered rows unit.version) :
      UnitInfo rows unit { subject := .unapplied unit, status := .pending }
  /-- The last row of the unit records a failure. -/
  | failed {row : Row} (last : lastVisible? rows unit.identity = some row)
      (failure : row.success = false) :
      UnitInfo rows unit { subject := .applied unit row, status := .failed }
  /-- The unit succeeded and has not changed, or its row is a baseline without an initializer. -/
  | success {row : Row} (last : lastVisible? rows unit.identity = some row)
      (success : row.success = true) (same : row.kind = .baseline ∨ row.checksum = unit.checksum) :
      UnitInfo rows unit { subject := .applied unit row, status := .success }
  /-- The unit is repeatable and has changed since it succeeded. -/
  | outdated {row : Row} (last : lastVisible? rows unit.identity = some row)
      (success : row.success = true) (kind : row.kind ≠ .baseline)
      (changed : row.checksum ≠ unit.checksum) (repeatable : unit.version = none) :
      UnitInfo rows unit { subject := .applied unit row, status := .outdated }
  /-- The unit is versioned and has changed since it succeeded. -/
  | mismatched {row : Row} {version : Version} (last : lastVisible? rows unit.identity = some row)
      (success : row.success = true) (kind : row.kind ≠ .baseline)
      (changed : row.checksum ≠ unit.checksum) (versioned : unit.version = some version) :
      UnitInfo rows unit
        { subject := .applied unit row, status := .success, checksumMismatch := true }

/-- What is said about the last row of an identity that the catalog does not have. -/
inductive RowInfo (catalog : Catalog) (rows : List Row) (row : Row) : Info → Prop where
  /-- The row establishes a baseline. -/
  | baseline (establishes : row.isEffectiveBaseline = true) :
      RowInfo catalog rows row { subject := .unresolved row, status := .success }
  /-- The unit of the row is gone, or is yet to come if the row is above the catalog. -/
  | missing {future : Bool} (plain : row.isEffectiveBaseline = false)
      (uncovered : ¬ Covered rows row.version)
      (above : future = true ↔ AboveCatalog catalog row.version) :
      RowInfo catalog rows row { subject := .unresolved row, status := .missing, future := future }

/-- The row is the last visible one of an identity that the catalog does not have. -/
structure IsLeftover (catalog : Catalog) (rows : List Row) (identity : Identity) (row : Row) :
    Prop where
  last : lastVisible? rows identity = some row
  gone : catalog.find? identity = none

/-- Nothing is said about a leftover row that establishes no baseline and is covered by one. -/
def IsOmitted (rows : List Row) (row : Row) : Prop :=
  row.isEffectiveBaseline = false ∧ Covered rows row.version

/-- Where an identity first appears, in the catalog and then in the visible rows. -/
def firstSeen (catalog : Catalog) (rows : List Row) (identity : Identity) : Nat :=
  (catalog.migrations.map (·.identity.key) ++ visibleKeys rows).idxOf identity.key

/-- The infos are those that the catalog and the rows call for, in order. -/
structure Account (catalog : Catalog) (rows : List Row) (infos : List Info) : Prop where
  /-- No two infos are on the same identity. -/
  distinct : infos.Pairwise fun first second => (first.identity == second.identity) = false
  /-- Every unit has one info. -/
  units : ∀ unit ∈ catalog.migrations, ∃ info, UnitInfo rows unit info ∧
    infos.filter (·.identity == unit.identity) = [info]
  /-- Every leftover row has one info. -/
  leftovers : ∀ identity row, IsLeftover catalog rows identity row → ¬ IsOmitted rows row →
    ∃ info, RowInfo catalog rows row info ∧ infos.filter (·.identity == identity) = [info]
  /-- Omitted rows have none. -/
  omitted : ∀ identity row, IsLeftover catalog rows identity row → IsOmitted rows row →
    infos.filter (·.identity == identity) = []
  /-- There are no other infos. -/
  others : ∀ info ∈ infos, (catalog.find? info.identity).isSome = true ∨
    (lastVisible? rows info.identity).isSome = true
  /-- Infos come in the order of their identities, ties in the order of first appearance. -/
  ordered : infos.Pairwise fun first second => first.identity.ComesBefore second.identity ∧
    (second.identity.ComesBefore first.identity →
      firstSeen catalog rows first.identity < firstSeen catalog rows second.identity)

variable {catalog : Catalog} {rows : List Row} {infos others : List Info} {info : Info}
  {identity : Identity} {unit : Migration} {row : Row}

section Entries

theorem Info.drifted_eq_false_iff :
    drifted unit row = false ↔ row.kind = .baseline ∨ row.checksum = unit.checksum := by
  simp [drifted, or_iff_not_imp_left]

/-- Something is said about every unit. -/
theorem exists_unitInfo (rows : List Row) (unit : Migration) :
    ∃ info, UnitInfo rows unit info := by
  cases last : lastVisible? rows unit.identity with
  | none =>
    by_cases covered : Covered rows unit.version
    · exact ⟨_, .ignored last covered⟩
    · exact ⟨_, .pending last covered⟩
  | some row =>
    cases success : row.success with
    | false => exact ⟨_, .failed last success⟩
    | true =>
      by_cases same : row.kind = .baseline ∨ row.checksum = unit.checksum
      · exact ⟨_, .success last success same⟩
      · obtain ⟨kind, changed⟩ := not_or.mp same
        cases known : unit.version with
        | none => exact ⟨_, .outdated last success kind changed known⟩
        | some version => exact ⟨_, .mismatched last success kind changed known⟩

theorem unitInfo_iff : UnitInfo rows unit info ↔
    info = Info.ofMigration (baselineFloor? rows) (latestRows rows) unit := by
  have same {info : Info} (entry : UnitInfo rows unit info) :
      info = Info.ofMigration (baselineFloor? rows) (latestRows rows) unit := by
    rw [Info.ofMigration_latestRows]
    cases entry with
    | ignored absent covered =>
      simp only [absent, Info.ofUnapplied, isCovered_iff.mpr covered, if_true]
    | pending absent uncovered =>
      simp [absent, Info.ofUnapplied, isCovered_eq_false_iff.mpr uncovered]
    | failed last failure => simp [last, Info.ofApplied, failure]
    | success last success same =>
      simp [last, Info.ofApplied, success, Info.drifted_eq_false_iff.mpr same]
    | outdated last success kind changed repeatable =>
      simp [last, Info.ofApplied, success, Info.drifted, kind, changed, Migration.isRepeatable,
        repeatable]
    | mismatched last success kind changed versioned =>
      simp [last, Info.ofApplied, success, Info.drifted, kind, changed, Migration.isRepeatable,
        versioned]
  constructor
  · exact same
  · rintro rfl
    obtain ⟨info, entry⟩ := exists_unitInfo rows unit
    exact same entry ▸ entry

theorem rowInfo_iff : RowInfo catalog rows row info ↔
    Info.ofUnresolved? (baselineFloor? rows) catalog.highestVersion? row = some info := by
  constructor
  · intro entry
    cases entry with
    | baseline establishes => simp [Info.ofUnresolved?, establishes]
    | missing plain uncovered above =>
      have future := Bool.eq_iff_iff.mpr (isAbove_iff.trans above.symm)
      simp [Info.ofUnresolved?, plain, isCovered_eq_false_iff.mpr uncovered, future]
  · intro listed
    simp only [Info.ofUnresolved?] at listed
    split at listed
    · cases listed
      exact .baseline ‹_›
    · split at listed
      · cases listed
      · cases listed
        exact .missing (Bool.eq_false_iff.mpr ‹_›)
          (isCovered_eq_false_iff.mp (Bool.eq_false_iff.mpr ‹_›)) isAbove_iff

/-- Something is said about a leftover row that is not omitted. -/
theorem exists_rowInfo (catalog : Catalog) (kept : ¬ IsOmitted rows row) :
    ∃ info, RowInfo catalog rows row info := by
  cases establishes : row.isEffectiveBaseline with
  | true => exact ⟨_, .baseline establishes⟩
  | false =>
    have uncovered : ¬ Covered rows row.version := fun covered => kept ⟨establishes, covered⟩
    exact ⟨_, .missing establishes uncovered isAbove_iff⟩

theorem RowInfo.not_isOmitted (entry : RowInfo catalog rows row info) : ¬ IsOmitted rows row := by
  rintro ⟨plain, covered⟩
  cases entry with
  | baseline establishes => exact absurd (plain.symm.trans establishes) Bool.false_ne_true
  | missing _ uncovered => exact uncovered covered

/-- A leftover row is the last visible row of its own identity. -/
theorem IsLeftover.own (leftover : IsLeftover catalog rows identity row) :
    IsLeftover catalog rows row.identity row := by
  have same := key_eq_of_lastVisible?_eq_some leftover.last
  exact ⟨(lastVisible?_congr same).trans leftover.last,
    (Catalog.find?_congr same).trans leftover.gone⟩

end Entries

section Membership

/-- The only info on an identity is all that there is on it. -/
theorem filter_eq_singleton
    (distinct : infos.Pairwise fun first second => (first.identity == second.identity) = false)
    (member : info ∈ infos) (same : (info.identity == identity) = true) :
    infos.filter (·.identity == identity) = [info] := by
  obtain ⟨before, after, rfl⟩ := List.append_of_mem member
  obtain ⟨_, rest, apart⟩ := List.pairwise_append.mp distinct
  have behind := (List.pairwise_cons.mp rest).1
  have none_before : before.filter (·.identity == identity) = [] := by
    refine List.filter_eq_nil_iff.mpr fun other present found => ?_
    have differs := apart other present info List.mem_cons_self
    rw [BEq.trans found (BEq.symm same)] at differs
    cases differs
  have none_after : after.filter (·.identity == identity) = [] := by
    refine List.filter_eq_nil_iff.mpr fun other present found => ?_
    have differs := behind other present
    rw [BEq.trans same (BEq.symm found)] at differs
    cases differs
  simp only [List.filter_append, List.filter_cons, none_before, none_after, same, if_true,
    List.nil_append]

/-- An account has the infos on the units and on the leftover rows, and no others. -/
theorem Account.mem_iff (account : Account catalog rows infos) :
    info ∈ infos ↔ (∃ unit ∈ catalog.migrations, UnitInfo rows unit info) ∨
      ∃ row, IsLeftover catalog rows row.identity row ∧ RowInfo catalog rows row info := by
  constructor
  · intro member
    have own : info ∈ infos.filter (·.identity == info.identity) :=
      List.mem_filter.mpr ⟨member, BEq.rfl⟩
    cases found : catalog.find? info.identity with
    | some unit =>
      obtain ⟨present, same⟩ := Catalog.find?_eq_some_iff.mp found
      obtain ⟨only, entry, all⟩ := account.units unit present
      have listed : info ∈ infos.filter (·.identity == unit.identity) :=
        List.mem_filter.mpr ⟨member, Identity.beq_iff_key_eq.mpr same.symm⟩
      rw [all, List.mem_singleton] at listed
      exact .inl ⟨unit, present, listed ▸ entry⟩
    | none =>
      have visible := (account.others info member).resolve_left (by simp [found])
      obtain ⟨row, last⟩ := Option.isSome_iff_exists.mp visible
      have leftover : IsLeftover catalog rows info.identity row := ⟨last, found⟩
      by_cases skipped : IsOmitted rows row
      · rw [account.omitted _ row leftover skipped] at own
        cases own
      · obtain ⟨only, entry, all⟩ := account.leftovers _ row leftover skipped
        rw [all, List.mem_singleton] at own
        exact .inr ⟨row, leftover.own, own ▸ entry⟩
  · rintro (⟨unit, present, entry⟩ | ⟨row, leftover, entry⟩)
    · obtain ⟨only, here, all⟩ := account.units unit present
      rw [unitInfo_iff.mp entry, ← unitInfo_iff.mp here]
      exact (List.mem_filter.mp (all ▸ List.mem_singleton_self only)).1
    · obtain ⟨only, here, all⟩ := account.leftovers _ row leftover entry.not_isOmitted
      have same : only = info :=
        Option.some.inj ((rowInfo_iff.mp here).symm.trans (rowInfo_iff.mp entry))
      exact same ▸ (List.mem_filter.mp (all ▸ List.mem_singleton_self only)).1

/-- The order of the identities, and of first appearance among ties, leaves no choice. -/
theorem eq_of_perm_of_ordered {place : Identity → Nat} (perm : infos.Perm others)
    (ordered : infos.Pairwise fun first second =>
      first.identity.ComesBefore second.identity ∧
        (second.identity.ComesBefore first.identity → place first.identity < place second.identity))
    (reordered : others.Pairwise fun first second =>
      first.identity.ComesBefore second.identity ∧
        (second.identity.ComesBefore first.identity →
          place first.identity < place second.identity)) : infos = others := by
  refine perm.eq_of_pairwise (fun first second _ _ before after => ?_) ordered reordered
  exact absurd (before.2 after.1) (Nat.lt_asymm (after.2 before.1))

theorem Account.unique (account : Account catalog rows infos)
    (other : Account catalog rows others) : infos = others := by
  have nodup {listed : List Info} (given : Account catalog rows listed) : listed.Nodup :=
    given.distinct.imp fun differs same => by simp [same] at differs
  have perm : infos.Perm others :=
    (List.perm_ext_iff_of_nodup (nodup account) (nodup other)).mpr fun info => by
      rw [account.mem_iff, other.mem_iff]
  exact eq_of_perm_of_ordered perm account.ordered other.ordered

end Membership

section Order

/-- The infos on the units and on the leftover rows, before they are put in order. -/
def listedInfos (catalog : Catalog) (rows : List Row) : List Info :=
  catalog.migrations.map (Info.ofMigration (baselineFloor? rows) (latestRows rows)) ++
    (leftoverRows catalog (latestRows rows)).filterMap
      (Info.ofUnresolved? (baselineFloor? rows) catalog.highestVersion?)

/-- What the catalog has appears before anything that only the rows have. -/
theorem firstSeen_lt_size (rows : List Row) (member : unit ∈ catalog.migrations)
    (same : unit.identity.key = identity.key) : firstSeen catalog rows identity < catalog.size := by
  have listed : identity.key ∈ catalog.migrations.map (·.identity.key) :=
    same ▸ List.mem_map_of_mem member
  have bound := List.idxOf_lt_length_of_mem listed
  rwa [List.length_map, ← List.idxOf_append_of_mem listed] at bound

/-- What the catalog does not have appears after it, in the order of the rows. -/
theorem firstSeen_of_gone (rows : List Row) (gone : catalog.find? identity = none) :
    firstSeen catalog rows identity = catalog.size + (visibleKeys rows).idxOf identity.key := by
  have absent : identity.key ∉ catalog.migrations.map (·.identity.key) := by
    intro listed
    obtain ⟨unit, member, same⟩ := List.mem_map.mp listed
    exact Catalog.find?_eq_none_iff.mp gone unit member same
  rw [firstSeen, List.idxOf_append_of_notMem absent, List.length_map, Catalog.size]

/-- Before they are put in order infos are in the order of first appearance. -/
theorem listedInfos_pairwise (catalog : Catalog) (rows : List Row) :
    (listedInfos catalog rows).Pairwise fun first second =>
      firstSeen catalog rows first.identity < firstSeen catalog rows second.identity := by
  have gone {row : Row} (member : row ∈ leftoverRows catalog (latestRows rows)) :
      catalog.find? row.identity = none :=
    Option.isNone_iff_eq_none.mp (List.mem_filter.mp member).2
  refine List.pairwise_append.mpr ⟨?_, ?_, ?_⟩
  · rw [List.pairwise_map, List.pairwise_iff_getElem]
    intro first second here there before
    have place (index : Nat) (bound : index < catalog.migrations.length) :
        firstSeen catalog rows catalog.migrations[index].identity = index := by
      have listed : catalog.migrations[index].identity.key ∈
          catalog.migrations.map (·.identity.key) :=
        List.mem_map_of_mem (List.getElem_mem bound)
      rw [firstSeen, List.idxOf_append_of_mem listed]
      have found := catalog.nodup_keys.idxOf_getElem index (by rwa [List.length_map])
      rwa [List.getElem_map] at found
    rw [Info.identity_ofMigration, Info.identity_ofMigration, place, place]
    exact before
  · refine List.pairwise_filterMap.mpr (((pairwise_latestRows rows).filter _).imp_of_mem ?_)
    intro first second here there before info listed other given
    rw [Info.identity_of_ofUnresolved? listed, Info.identity_of_ofUnresolved? given,
      firstSeen_of_gone rows (gone here), firstSeen_of_gone rows (gone there)]
    exact Nat.add_lt_add_left before _
  · intro first here second there
    obtain ⟨unit, member, rfl⟩ := List.mem_map.mp here
    obtain ⟨row, leftover, listed⟩ := List.mem_filterMap.mp there
    rw [Info.identity_ofMigration, Info.identity_of_ofUnresolved? listed,
      firstSeen_of_gone rows (gone leftover)]
    exact Nat.lt_add_right _ (firstSeen_lt_size rows member rfl)

theorem listedInfos_distinct (catalog : Catalog) (rows : List Row) :
    (listedInfos catalog rows).Pairwise fun first second =>
      first.identity.key ≠ second.identity.key := by
  refine (listedInfos_pairwise catalog rows).imp fun before same => ?_
  rw [firstSeen, firstSeen, same] at before
  exact Nat.lt_irrefl _ before

/-- A reconciliation gives the account that the catalog and the rows call for. -/
theorem account_reconcile (catalog : Catalog) (rows : List Row) :
    Account catalog rows (reconcile catalog rows) := by
  have distinct : (reconcile catalog rows).Pairwise fun first second =>
      (first.identity == second.identity) = false := by
    have keys : ((reconcile catalog rows).map (·.identity.key)).Nodup := by
      refine (((Info.arrange_perm _).map _).nodup_iff).mpr ?_
      exact List.pairwise_map.mpr (listedInfos_distinct catalog rows)
    exact (List.pairwise_map.mp keys).imp Identity.beq_eq_false_iff_key_ne.mpr
  refine ⟨distinct, ?_, ?_, ?_, ?_, ?_⟩
  · intro unit member
    refine ⟨_, unitInfo_iff.mpr rfl, filter_eq_singleton distinct ?_ ?_⟩
    · exact mem_reconcile_iff.mpr (.inl ⟨unit, member, rfl⟩)
    · rw [Info.identity_ofMigration]
      exact BEq.rfl
  · intro identity row leftover kept
    obtain ⟨info, entry⟩ := exists_rowInfo catalog kept
    have listed := rowInfo_iff.mp entry
    refine ⟨info, entry, filter_eq_singleton distinct ?_ ?_⟩
    · exact mem_reconcile_iff.mpr (.inr ⟨row, leftover.own.last, leftover.own.gone, listed⟩)
    · rw [Info.identity_of_ofUnresolved? listed]
      exact Identity.beq_iff_key_eq.mpr (key_eq_of_lastVisible?_eq_some leftover.last)
  · intro identity row leftover skipped
    refine List.filter_eq_nil_iff.mpr fun info member same => ?_
    have key := Identity.beq_iff_key_eq.mp same
    rcases mem_reconcile_iff.mp member with ⟨unit, present, rfl⟩ | ⟨other, last, gone, listed⟩
    · rw [Info.identity_ofMigration] at key
      exact Catalog.find?_eq_none_iff.mp leftover.gone unit present key
    · rw [Info.identity_of_ofUnresolved? listed] at key
      rw [lastVisible?_congr key, leftover.last] at last
      cases last
      exact (rowInfo_iff.mpr listed).not_isOmitted skipped
  · intro info member
    rcases mem_reconcile_iff.mp member with ⟨unit, present, rfl⟩ | ⟨row, last, _, listed⟩
    · rw [Info.identity_ofMigration, Catalog.find?_eq_some_iff.mpr ⟨present, rfl⟩]
      exact .inl rfl
    · rw [Info.identity_of_ofUnresolved? listed, last]
      exact .inr rfl
  · exact Info.arrange_pairwise (listedInfos_distinct catalog rows)
      (listedInfos_pairwise catalog rows)

/-- A list of infos is the reconciliation of a catalog and the rows of a ledger exactly if it is the
account that they call for. -/
theorem eq_reconcile_iff (catalog : Catalog) (rows : List Row) (infos : List Info) :
    infos = reconcile catalog rows ↔ Account catalog rows infos := by
  constructor
  · rintro rfl
    exact account_reconcile catalog rows
  · intro account
    exact account.unique (account_reconcile catalog rows)

end Order

end SchemaLedger
