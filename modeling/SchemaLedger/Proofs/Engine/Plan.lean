import SchemaLedger.Engine.Rollout
import SchemaLedger.Proofs.Catalog
import SchemaLedger.Proofs.Info.Reconciliation

/-!
# The plan of a rollout

A unit is due when it has no visible row and no baseline covers it, or when it is repeatable and
its last visible row succeeded with another checksum. `plan_eq` says that a rollout plans the due
units within the target, versioned ones by version and then repeatable ones by description, where
ties keep the order of the catalog. Rows whose units are gone have no part in a plan.
-/

namespace SchemaLedger

namespace Migration

/-- Versioned units come before repeatable ones and run in the order of their versions. -/
def versionLe (first second : Migration) : Bool :=
  Info.versionLe (.ofUnapplied none first) (.ofUnapplied none second)

/-- Repeatable units run in the order of their descriptions. -/
def descriptionLe (first second : Migration) : Bool :=
  Info.descriptionLe (.ofUnapplied none first) (.ofUnapplied none second)

/-- Versioned units by version, then repeatable ones by description; ties stay as they are. -/
def inOrder (units : List Migration) : List Migration :=
  (units.filter (·.isVersioned)).mergeSort versionLe
    ++ (units.filter (!·.isVersioned)).mergeSort descriptionLe

/-- The unit is to run on a ledger with the given rows. -/
def isDue (rows : List Row) (migration : Migration) : Bool :=
  match lastVisible? rows migration.identity with
  | none => !isCovered (baselineFloor? rows) migration.version
  | some row => row.success && migration.isRepeatable && Info.drifted migration row

/-- A versioned unit that is due has no visible row, and no baseline covers it. -/
theorem unapplied_of_isDue {rows : List Row} {unit : Migration} {version : Version}
    (due : unit.isDue rows = true) (known : unit.version = some version) :
    lastVisible? rows unit.identity = none ∧
      isCovered (baselineFloor? rows) (some version) = false := by
  rw [isDue] at due
  cases last : lastVisible? rows unit.identity with
  | none => simpa [last, known] using due
  | some row => simp [last, isRepeatable, known] at due

theorem versionLe_trans (first second third : Migration) (below : versionLe first second = true)
    (above : versionLe second third = true) : versionLe first third = true :=
  Info.versionLe_trans _ _ _ below above

theorem versionLe_total (first second : Migration) :
    (versionLe first second || versionLe second first) = true :=
  Info.versionLe_total _ _

theorem descriptionLe_trans (first second third : Migration)
    (below : descriptionLe first second = true) (above : descriptionLe second third = true) :
    descriptionLe first third = true :=
  Info.descriptionLe_trans _ _ _ below above

theorem descriptionLe_total (first second : Migration) :
    (descriptionLe first second || descriptionLe second first) = true :=
  Info.descriptionLe_total _ _

/-- Of two versioned units that are in order the first has no higher version. -/
theorem le_of_versionLe {first second : Migration} {version other : Version}
    (ordered : versionLe first second = true) (here : first.version = some version)
    (there : second.version = some other) : version ≤ other := by
  have identity (unit : Migration) : (Info.ofUnapplied none unit).version? = unit.version :=
    unit.version?_identity
  simpa [versionLe, Info.versionLe, identity, here, there] using ordered

/-- Units are ordered as any infos on them are. -/
theorem arrange_map {infoOn : Migration → Info}
    (about : ∀ migration, (infoOn migration).identity = migration.identity)
    (units : List Migration) : Info.arrange (units.map infoOn) = (inOrder units).map infoOn := by
  have unapplied (unit : Migration) : (Info.ofUnapplied none unit).identity = unit.identity := rfl
  have versioned (unit : Migration) : (infoOn unit).isVersioned = unit.isVersioned := by
    simp [Info.isVersioned, Info.version?, about, isVersioned]
  have byVersion (first second : Migration) :
      versionLe first second = Info.versionLe (infoOn first) (infoOn second) := by
    simp only [versionLe, Info.versionLe, Info.version?, about, unapplied]
  have byDescription (first second : Migration) :
      descriptionLe first second = Info.descriptionLe (infoOn first) (infoOn second) := by
    simp only [descriptionLe, Info.descriptionLe, Info.description, about, unapplied]
  simp only [Info.arrange, inOrder, List.map_append, List.filter_map, Function.comp_def, versioned]
  rw [List.map_mergeSort fun first _ second _ => byVersion first second,
    List.map_mergeSort fun first _ second _ => byDescription first second]

theorem filter_inOrder (keep : Migration → Bool) (units : List Migration) :
    (inOrder units).filter keep = inOrder (units.filter keep) := by
  simp only [inOrder, List.filter_append, filter_mergeSort versionLe_trans versionLe_total,
    filter_mergeSort descriptionLe_trans descriptionLe_total, List.filter_filter, Bool.and_comm]

theorem inOrder_perm (units : List Migration) : (inOrder units).Perm units :=
  ((List.mergeSort_perm _ _).append (List.mergeSort_perm _ _)).trans
    (List.filter_append_perm _ units)

/-- Versions do not decrease in the order in which units run. -/
theorem inOrder_pairwise (units : List Migration) :
    (inOrder units).Pairwise fun first second => ∀ version other,
      first.version = some version → second.version = some other → version ≤ other := by
  have versioned : ((units.filter (·.isVersioned)).mergeSort versionLe).Pairwise
      fun first second => ∀ version other,
        first.version = some version → second.version = some other → version ≤ other :=
    (List.pairwise_mergeSort versionLe_trans versionLe_total _).imp
      fun ordered _ _ here there => le_of_versionLe ordered here there
  have unversioned : ∀ unit ∈ (units.filter (!·.isVersioned)).mergeSort descriptionLe,
      unit.version = none := by
    intro unit member
    simpa [isVersioned] using (List.mem_filter.mp (List.mem_mergeSort.mp member)).2
  refine List.pairwise_append.mpr ⟨versioned, ?_, ?_⟩
  · apply List.pairwise_of_forall_mem_list
    intro first _ second member version other _ there
    simp [unversioned second member] at there
  · intro first _ second member version other _ there
    simp [unversioned second member] at there

/-- Different units run in the order of their identities. -/
theorem inOrder_comesBefore {units : List Migration}
    (distinct : units.Pairwise fun first second => first.identity.key ≠ second.identity.key) :
    (inOrder units).Pairwise fun first second => first.identity.ComesBefore second.identity := by
  have about (unit : Migration) : (Info.ofUnapplied none unit).identity = unit.identity := rfl
  have infos : (units.map (Info.ofUnapplied none)).Pairwise fun first second =>
      first.identity.key ≠ second.identity.key := List.pairwise_map.mpr distinct
  have arranged := Info.arrange_pairwise infos infos
  rw [arrange_map about, List.pairwise_map] at arranged
  exact arranged.imp fun ordered => ordered.1

end Migration

namespace Rollout

/-- Whether a unit is due can be read off the info on it. -/
theorem isDue_ofMigration (rows : List Row) (migration : Migration) :
    Overview.isDue (Info.ofMigration (baselineFloor? rows) (latestRows rows) migration) =
      migration.isDue rows := by
  rw [Info.ofMigration_latestRows, Migration.isDue]
  cases lastVisible? rows migration.identity with
  | none =>
    simp only [Info.ofUnapplied]
    cases isCovered (baselineFloor? rows) migration.version <;> rfl
  | some row =>
    have repeatable : migration.isRepeatable = !migration.isVersioned := by
      simp [Migration.isRepeatable, Migration.isVersioned]
    simp only [Info.ofApplied]
    cases row.success <;> cases Info.drifted migration row <;>
      cases unversioned : migration.isRepeatable <;>
        simp_all [Overview.isDue, Info.isVersioned, Info.version?, Info.identity, Subject.identity,
          Migration.isVersioned]

/-- A row whose unit is gone is never due. -/
theorem isDue_ofUnresolved {floor ceiling : Option Version} {row : Row} {info : Info}
    (listed : Info.ofUnresolved? floor ceiling row = some info) : Overview.isDue info = false := by
  unfold Info.ofUnresolved? at listed
  split at listed
  · cases listed
    rfl
  · split at listed
    · cases listed
    · cases listed
      rfl

/-- What a migrate would run without a target are the infos on the due units, in order. -/
theorem pending_eq (catalog : Catalog) (rows : List Row) :
    (Overview.of catalog rows).pending =
      (Migration.inOrder (catalog.migrations.filter (·.isDue rows))).map
        (Info.ofMigration (baselineFloor? rows) (latestRows rows)) := by
  have noLeftover : ((leftoverRows catalog (latestRows rows)).filterMap
      (Info.ofUnresolved? (baselineFloor? rows) catalog.highestVersion?)).filter
        Overview.isDue = [] := by
    rw [List.filter_eq_nil_iff]
    intro info member
    obtain ⟨row, _, listed⟩ := List.mem_filterMap.mp member
    simp [isDue_ofUnresolved listed]
  rw [Overview.pending, Overview.of, reconcile, Info.filter_arrange, List.filter_append, noLeftover,
    List.append_nil, List.filter_map, ← Migration.arrange_map (Info.identity_ofMigration _ _)]
  simp only [Function.comp_def, isDue_ofMigration]

/-- A rollout plans the due units within the target, in order. -/
theorem plan_eq (catalog : Catalog) (config : Config) (rows : List Row) :
    plan config (Overview.of catalog rows) =
      Migration.inOrder (catalog.migrations.filter fun unit =>
        isWithinTarget config unit && unit.isDue rows) := by
  rw [plan, pending_eq, List.filterMap_map]
  simp only [Function.comp_def, Info.migration?_ofMigration, List.filterMap_some,
    Migration.filter_inOrder, List.filter_filter]

section Planned

variable {catalog : Catalog} {config : Config} {rows : List Row}

theorem mem_plan_iff {unit : Migration} :
    unit ∈ plan config (Overview.of catalog rows) ↔
      unit ∈ catalog.migrations ∧ isWithinTarget config unit = true ∧ unit.isDue rows = true := by
  rw [plan_eq, (Migration.inOrder_perm _).mem_iff, List.mem_filter, Bool.and_eq_true]

/-- No more units are planned than the catalog has. -/
theorem length_plan_le (catalog : Catalog) (config : Config) (rows : List Row) :
    (plan config (Overview.of catalog rows)).length ≤ catalog.size := by
  rw [plan_eq, (Migration.inOrder_perm _).length_eq]
  exact List.length_filter_le ..

theorem nodup_keys_plan (catalog : Catalog) (config : Config) (rows : List Row) :
    ((plan config (Overview.of catalog rows)).map (·.identity.key)).Nodup := by
  rw [plan_eq, ((Migration.inOrder_perm _).map _).nodup_iff]
  exact catalog.nodup_keys.sublist (List.filter_sublist.map _)

theorem plan_pairwise (catalog : Catalog) (config : Config) (rows : List Row) :
    (plan config (Overview.of catalog rows)).Pairwise fun first second => ∀ version other,
      first.version = some version → second.version = some other → version ≤ other := by
  rw [plan_eq]
  exact Migration.inOrder_pairwise _

/-- A plan is in the order of the identities of its units. -/
theorem plan_comesBefore (catalog : Catalog) (config : Config) (rows : List Row) :
    (plan config (Overview.of catalog rows)).Pairwise fun first second =>
      first.identity.ComesBefore second.identity := by
  rw [plan_eq]
  exact Migration.inOrder_comesBefore
    ((List.pairwise_map.mp catalog.nodup_keys).sublist List.filter_sublist)

/-- If fewer units are due on other rows, the plan on them is what is left of the plan. -/
theorem plan_eq_filter {other : List Row}
    (fewer : ∀ unit ∈ catalog.migrations, unit.isDue other = true → unit.isDue rows = true) :
    plan config (Overview.of catalog other) =
      (plan config (Overview.of catalog rows)).filter (·.isDue other) := by
  rw [plan_eq, plan_eq, Migration.filter_inOrder, List.filter_filter]
  congr 1
  apply List.filter_congr
  intro unit member
  cases due : unit.isDue other with
  | false => simp
  | true => simp [fewer unit member due]

end Planned

end Rollout

end SchemaLedger
