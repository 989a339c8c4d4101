import SchemaLedger.Catalog
import SchemaLedger.Info.Basic

/-!
# Reconciliation

`reconcile` compares a catalog with the rows of a ledger. Markers are invisible. Of the visible
rows with one identity only the last counts. Every unit of the catalog gets an info; so does every
last row whose unit is gone, unless a baseline covers it. A successful row of a baseline kind
raises the baseline floor, at or below which units without rows are ignored for ever.
-/

namespace SchemaLedger

def versionsWhere (condition : Row → Bool) (rows : List Row) : List Version :=
  (rows.filter condition).filterMap (·.version)

/-- The highest version among the successful visible rows. -/
def highestApplied? (rows : List Row) : Option Version :=
  Version.highest? (versionsWhere (fun row => row.success && row.isVisible) rows)

/-- The highest version among the successful rows of baseline kinds. -/
def baselineFloor? (rows : List Row) : Option Version :=
  Version.highest? (versionsWhere (·.isEffectiveBaseline) rows)

/-- Puts a row in the place of the row with its identity, or at the end. -/
def putLatest (row : Row) : List Row → List Row
  | [] => [row]
  | other :: rest =>
      if other.identity == row.identity then row :: rest else other :: putLatest row rest

/-- The last visible row of each identity, in the order in which the identities first appear. -/
def latestRows (rows : List Row) : List Row :=
  (rows.filter (·.isVisible)).foldl (fun latest row => putLatest row latest) []

/-- One more visible row takes the place of the row with its identity. -/
theorem latestRows_append_visible {rows : List Row} {row : Row}
    (visible : row.isVisible = true) :
    latestRows (rows ++ [row]) = putLatest row (latestRows rows) := by
  simp [latestRows, List.filter_append, visible]

theorem latestRows_append_marker {rows : List Row} {row : Row}
    (marker : row.isVisible = false) : latestRows (rows ++ [row]) = latestRows rows := by
  simp [latestRows, List.filter_append, marker]

/-- There is a floor, and a version at or below it. -/
def isCovered (floor version : Option Version) : Bool :=
  match floor, version with
  | some floor, some version => version ≤ floor
  | _, _ => false

/-- There is a version, and no ceiling or one below it. -/
def isAbove (ceiling version : Option Version) : Bool :=
  match version, ceiling with
  | some version, some ceiling => ceiling < version
  | some _, none => true
  | none, _ => false

namespace Info

/-- The info on a unit without a row. -/
def ofUnapplied (floor : Option Version) (migration : Migration) : Info where
  subject := .unapplied migration
  status := if isCovered floor migration.version then .ignored else .pending

/-- A row disagrees with its unit when their checksums differ; a pure baseline never does. -/
def drifted (migration : Migration) (row : Row) : Bool :=
  row.kind != .baseline && row.checksum != migration.checksum

/-- The info on a unit with its latest row. -/
def ofApplied (migration : Migration) (row : Row) : Info :=
  let subject := .applied migration row
  if !row.success then { subject, status := .failed }
  else if !drifted migration row then { subject, status := .success }
  else if migration.isRepeatable then { subject, status := .outdated }
  else { subject, status := .success, checksumMismatch := true }

/-- The info on a row without a unit, unless a baseline covers it. -/
def ofUnresolved? (floor ceiling : Option Version) (row : Row) : Option Info :=
  let subject := .unresolved row
  if row.isEffectiveBaseline then some { subject, status := .success }
  else if isCovered floor row.version then none
  else some { subject, status := .missing, future := isAbove ceiling row.version }

/-- The info on a unit of the catalog, given the latest rows. -/
def ofMigration (floor : Option Version) (latest : List Row) (migration : Migration) : Info :=
  match latest.find? (·.identity == migration.identity) with
  | none => ofUnapplied floor migration
  | some row => ofApplied migration row

def versionLe (first second : Info) : Bool :=
  match first.version?, second.version? with
  | none, _ => true
  | some _, none => false
  | some version, some other => version ≤ other

/-- The order of repeatable infos: by description, code point by code point. -/
def descriptionLe (first second : Info) : Bool := first.description ≤ second.description

/-- Versioned infos by version, then repeatable ones by description; ties stay as they are. -/
def arrange (infos : List Info) : List Info :=
  (infos.filter (·.isVersioned)).mergeSort versionLe
    ++ (infos.filter (!·.isVersioned)).mergeSort descriptionLe

end Info

/-- The last visible rows whose units are gone. -/
def leftoverRows (catalog : Catalog) (latest : List Row) : List Row :=
  latest.filter fun row => (catalog.find? row.identity).isNone

/-- Where every unit of the catalog and every unmatched row stands. -/
def reconcile (catalog : Catalog) (rows : List Row) : List Info :=
  let floor := baselineFloor? rows
  let latest := latestRows rows
  let resolved := catalog.migrations.map (Info.ofMigration floor latest)
  let unresolved :=
    (leftoverRows catalog latest).filterMap (Info.ofUnresolved? floor catalog.highestVersion?)
  Info.arrange (resolved ++ unresolved)

end SchemaLedger
