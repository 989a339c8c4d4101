import SchemaLedger.Proofs.Catalog
import SchemaLedger.Proofs.Info.Highest
import SchemaLedger.Proofs.Info.Reconciliation
import SchemaLedger.Validation

/-!
# What a reconciliation does not look at

A reconciliation looks at the version, the description, the kind, the checksum and the success of
visible rows, and at the order in which they stand. A view of rows that keeps these can be taken
before or after it, markers can be left out, and the rows of resolved units can change places as
long as no two of them have the same identity. `unranked` and `undated` are the views that matter:
a row without its rank, and a row without anything that depends on when it was written.
-/

namespace SchemaLedger

namespace Row

def unranked (row : Row) : Row := { row with rank := 0 }

def undated (row : Row) : Row := { row with rank := 0, elapsed := 0, installedOn := ⟨0, 0⟩ }

/-- The view keeps what a reconciliation looks at. -/
structure Faithful (view : Row → Row) : Prop where
  version : ∀ row, (view row).version = row.version
  description : ∀ row, (view row).description = row.description
  kind : ∀ row, (view row).kind = row.kind
  checksum : ∀ row, (view row).checksum = row.checksum
  success : ∀ row, (view row).success = row.success

theorem faithful_unranked : Faithful unranked :=
  ⟨fun _ => rfl, fun _ => rfl, fun _ => rfl, fun _ => rfl, fun _ => rfl⟩

theorem faithful_undated : Faithful undated :=
  ⟨fun _ => rfl, fun _ => rfl, fun _ => rfl, fun _ => rfl, fun _ => rfl⟩

theorem map_unranked_congr {rows other : List Row}
    (same : rows.map toEntry = other.map toEntry) : rows.map unranked = other.map unranked := by
  have throughEntry : unranked = (fun entry : Entry => entry.atRank 0) ∘ toEntry := rfl
  rw [throughEntry, ← List.map_map, same, List.map_map]

namespace Faithful

variable {view : Row → Row} (faithful : Faithful view)
include faithful

theorem identity (row : Row) : (view row).identity = row.identity := by
  rw [Entry.identity, Entry.identity, faithful.version, faithful.description]

theorem isVisible (row : Row) : (view row).isVisible = row.isVisible := by
  rw [Entry.isVisible, Entry.isVisible, faithful.kind]

theorem isEffectiveBaseline (row : Row) :
    (view row).isEffectiveBaseline = row.isEffectiveBaseline := by
  rw [Entry.isEffectiveBaseline, Entry.isEffectiveBaseline, faithful.success, faithful.kind]

end Faithful

end Row

def Subject.mapRow (view : Row → Row) : Subject → Subject
  | unapplied migration => unapplied migration
  | applied migration row => applied migration (view row)
  | unresolved row => unresolved (view row)

def Info.mapRow (view : Row → Row) (info : Info) : Info :=
  { info with subject := info.subject.mapRow view }

section Viewed

variable {view : Row → Row} (faithful : Row.Faithful view)
include faithful

theorem versionsWhere_map {condition : Row → Bool}
    (blind : ∀ row, condition (view row) = condition row) (rows : List Row) :
    versionsWhere condition (rows.map view) = versionsWhere condition rows := by
  simp only [versionsWhere, List.filter_map, List.filterMap_map, Function.comp_def, blind,
    faithful.version]

theorem baselineFloor?_map (rows : List Row) :
    baselineFloor? (rows.map view) = baselineFloor? rows := by
  rw [baselineFloor?, baselineFloor?, versionsWhere_map faithful faithful.isEffectiveBaseline]

theorem highestApplied?_map (rows : List Row) :
    highestApplied? (rows.map view) = highestApplied? rows := by
  rw [highestApplied?, highestApplied?,
    versionsWhere_map faithful fun row => by rw [faithful.success, faithful.isVisible]]

theorem putLatest_map (row : Row) (latest : List Row) :
    putLatest (view row) (latest.map view) = (putLatest row latest).map view := by
  induction latest with
  | nil => rfl
  | cons other rest ih =>
    rw [List.map_cons, putLatest, putLatest, faithful.identity, faithful.identity, ih]
    split <;> rfl

theorem latestRows_map (rows : List Row) :
    latestRows (rows.map view) = (latestRows rows).map view := by
  have folded (visible latest : List Row) :
      (visible.map view).foldl (fun latest row => putLatest row latest) (latest.map view) =
        (visible.foldl (fun latest row => putLatest row latest) latest).map view := by
    induction visible generalizing latest with
    | nil => rfl
    | cons row rest ih => rw [List.map_cons, List.foldl_cons, putLatest_map faithful, ih,
        List.foldl_cons]
  simp only [latestRows, List.filter_map, Function.comp_def, faithful.isVisible]
  exact folded _ []

theorem leftoverRows_map (catalog : Catalog) (latest : List Row) :
    leftoverRows catalog (latest.map view) = (leftoverRows catalog latest).map view := by
  simp only [leftoverRows, List.filter_map, Function.comp_def, faithful.identity]

namespace Info

theorem ofApplied_map (migration : Migration) (row : Row) :
    ofApplied migration (view row) = (ofApplied migration row).mapRow view := by
  have same : drifted migration (view row) = drifted migration row := by
    rw [drifted, drifted, faithful.kind, faithful.checksum]
  rw [ofApplied, ofApplied, faithful.success, same]
  cases row.success <;> cases drifted migration row <;> cases migration.isRepeatable <;> rfl

theorem ofMigration_map (floor : Option Version) (latest : List Row) (migration : Migration) :
    ofMigration floor (latest.map view) migration =
      (ofMigration floor latest migration).mapRow view := by
  have found : (latest.map view).find? (·.identity == migration.identity) =
      (latest.find? (·.identity == migration.identity)).map view := by
    simp only [List.find?_map, Function.comp_def, faithful.identity]
  rw [ofMigration, ofMigration, found]
  cases latest.find? (·.identity == migration.identity) with
  | none => rfl
  | some row => exact ofApplied_map faithful migration row

theorem ofUnresolved?_map (floor ceiling : Option Version) (row : Row) :
    ofUnresolved? floor ceiling (view row) =
      (ofUnresolved? floor ceiling row).map (mapRow view) := by
  simp only [ofUnresolved?, faithful.isEffectiveBaseline, faithful.version]
  repeat' split
  all_goals rfl

theorem identity_mapRow (info : Info) : (info.mapRow view).identity = info.identity := by
  obtain ⟨subject, status, future, mismatch⟩ := info
  cases subject with
  | unresolved row => exact faithful.identity row
  | _ => rfl

theorem arrange_mapRow (infos : List Info) :
    arrange (infos.map (mapRow view)) = (arrange infos).map (mapRow view) := by
  have versioned (info : Info) : (info.mapRow view).isVersioned = info.isVersioned := by
    rw [isVersioned, isVersioned, version?, version?, identity_mapRow faithful]
  have byVersion (first second : Info) :
      versionLe first second = versionLe (first.mapRow view) (second.mapRow view) := by
    simp only [versionLe, version?, identity_mapRow faithful]
  have byDescription (first second : Info) :
      descriptionLe first second = descriptionLe (first.mapRow view) (second.mapRow view) := by
    rw [descriptionLe, descriptionLe, description, description, description, description,
      identity_mapRow faithful, identity_mapRow faithful]
  simp only [arrange, List.map_append, List.filter_map, Function.comp_def, versioned]
  rw [List.map_mergeSort fun first _ second _ => byVersion first second,
    List.map_mergeSort fun first _ second _ => byDescription first second]

end Info

/-- A faithful view of the rows can be taken before or after a reconciliation. -/
theorem reconcile_map (catalog : Catalog) (rows : List Row) :
    reconcile catalog (rows.map view) = (reconcile catalog rows).map (Info.mapRow view) := by
  have resolved (latest : List Row) (floor : Option Version) :
      Info.ofMigration floor (latest.map view) = Info.mapRow view ∘ Info.ofMigration floor latest :=
    funext fun migration => Info.ofMigration_map faithful floor latest migration
  simp only [reconcile, baselineFloor?_map faithful, latestRows_map faithful, resolved,
    leftoverRows_map faithful, List.filterMap_map, Function.comp_def,
    Info.ofUnresolved?_map faithful, ← Info.arrange_mapRow faithful, List.map_append, List.map_map,
    List.map_filterMap]

/-- The issue of an info does not depend on the view of its row. -/
theorem Issue.ofInfo?_mapRow (config : Config) (highest : Option Version) (info : Info) :
    Issue.ofInfo? config highest (info.mapRow view) = Issue.ofInfo? config highest info := by
  have identity := Info.identity_mapRow faithful info
  have failed : (info.mapRow view).hasFailed = info.hasFailed := by
    obtain ⟨subject, status, future, mismatch⟩ := info
    cases subject <;>
      simp [Info.hasFailed, Info.mapRow, Info.row?, Subject.mapRow, Subject.row?, faithful.success]
  have between (migration : Migration) (row : Row) :
      betweenRowAndUnit? (info.mapRow view) migration (view row) =
        betweenRowAndUnit? info migration row := by
    simp only [betweenRowAndUnit?, identity, faithful.kind, faithful.checksum]
    rfl
  have status : (info.mapRow view).status = info.status := rfl
  have subject : (info.mapRow view).subject = info.subject.mapRow view := rfl
  have missing : ofMissing? config (info.mapRow view) = ofMissing? config info := by
    simp only [ofMissing?, identity]
    rfl
  have pending : ofPending? config highest (info.mapRow view) =
      ofPending? config highest info := by
    simp only [ofPending?, Info.version?, identity]
  simp only [ofInfo?, failed, identity, status, missing, pending, subject]
  cases info.subject <;> simp only [Subject.mapRow, between]

/-- Validation finds the same in a faithful view of the rows. -/
theorem Validation.of_map (catalog : Catalog) (rows : List Row) (config : Config) :
    Validation.of catalog (rows.map view) config = Validation.of catalog rows config := by
  simp only [Validation.of, reconcile_map faithful, highestApplied?_map faithful, List.length_map,
    List.filterMap_map, Function.comp_def, Issue.ofInfo?_mapRow faithful]

end Viewed

section Markers

theorem versionsWhere_filter_isVisible {condition : Row → Bool}
    (visible : ∀ row, condition row = true → row.isVisible = true) (rows : List Row) :
    versionsWhere condition (rows.filter (·.isVisible)) = versionsWhere condition rows := by
  have kept : (rows.filter (·.isVisible)).filter condition = rows.filter condition := by
    rw [List.filter_filter]
    refine List.filter_congr fun row _ => ?_
    cases counts : condition row with
    | false => rfl
    | true => exact visible row counts
  rw [versionsWhere, versionsWhere, kept]

theorem highestApplied?_filter_isVisible (rows : List Row) :
    highestApplied? (rows.filter (·.isVisible)) = highestApplied? rows := by
  rw [highestApplied?, highestApplied?,
    versionsWhere_filter_isVisible fun _ counts => (Bool.and_eq_true_iff.mp counts).2]

/-- A reconciliation passes over markers. -/
theorem reconcile_filter_isVisible (catalog : Catalog) (rows : List Row) :
    reconcile catalog (rows.filter (·.isVisible)) = reconcile catalog rows := by
  have floor : baselineFloor? (rows.filter (·.isVisible)) = baselineFloor? rows := by
    rw [baselineFloor?, baselineFloor?,
      versionsWhere_filter_isVisible fun _ => Entry.isVisible_of_isEffectiveBaseline]
  have latest : latestRows (rows.filter (·.isVisible)) = latestRows rows := by
    simp only [latestRows, List.filter_filter, Bool.and_self]
  simp only [reconcile, floor, latest]

theorem Validation.of_filter_isVisible (catalog : Catalog) (rows : List Row) (config : Config) :
    Validation.of catalog (rows.filter (·.isVisible)) config =
      Validation.of catalog rows config := by
  simp only [Validation.of, reconcile_filter_isVisible, highestApplied?_filter_isVisible]

end Markers

section Resolved

variable {catalog : Catalog} {later : List Row}

theorem leftoverRows_putLatest {row : Row} (resolved : (catalog.find? row.identity).isSome = true)
    (latest : List Row) :
    leftoverRows catalog (putLatest row latest) = leftoverRows catalog latest := by
  have hidden : (catalog.find? row.identity).isNone = false := by
    rw [← Option.not_isSome, resolved]
    rfl
  induction latest with
  | nil => simp [putLatest, leftoverRows, hidden]
  | cons other rest ih =>
    rw [putLatest]
    split
    · rename_i same
      have found : catalog.find? other.identity = catalog.find? row.identity :=
        Catalog.find?_congr (Identity.beq_iff_key_eq.mp same)
      simp [leftoverRows, found, hidden]
    · simp only [leftoverRows] at ih
      simp only [leftoverRows, List.filter_cons, ih]

/-- Rows of units leave the rows whose units are gone as they are. -/
theorem leftoverRows_append_resolved (rows : List Row)
    (resolved : ∀ row ∈ later, (catalog.find? row.identity).isSome = true) :
    leftoverRows catalog (latestRows (rows ++ later)) = leftoverRows catalog (latestRows rows) := by
  induction later generalizing rows with
  | nil => rw [List.append_nil]
  | cons row rest ih =>
    obtain ⟨here, others⟩ := List.forall_mem_cons.mp resolved
    rw [← List.singleton_append, ← List.append_assoc, ih _ others]
    cases visible : row.isVisible with
    | true => rw [latestRows_append_visible visible, leftoverRows_putLatest here]
    | false => rw [latestRows_append_marker visible]

/-- The order in which units were recorded does not matter if none was recorded twice. -/
theorem reconcile_append_perm (rows : List Row) {other : List Row} (perm : later.Perm other)
    (distinct : (later.map (·.identity.key)).Nodup)
    (resolved : ∀ row ∈ later, (catalog.find? row.identity).isSome = true)
    (plain : ∀ row ∈ later, row.isEffectiveBaseline = false) :
    reconcile catalog (rows ++ later) = reconcile catalog (rows ++ other) := by
  have listed {property : Row → Prop} (holds : ∀ row ∈ later, property row) :
      ∀ row ∈ other, property row := fun row member => holds row (perm.mem_iff.mpr member)
  have units (floor : Option Version) : Info.ofMigration floor (latestRows (rows ++ later)) =
      Info.ofMigration floor (latestRows (rows ++ other)) := by
    funext migration
    rw [Info.ofMigration_latestRows, Info.ofMigration_latestRows, lastVisible?_append,
      lastVisible?_append, lastVisible?_perm perm distinct]
  simp only [reconcile, baselineFloor?_append plain, baselineFloor?_append (listed plain),
    leftoverRows_append_resolved rows resolved,
    leftoverRows_append_resolved rows (listed resolved), units]

end Resolved

end SchemaLedger
