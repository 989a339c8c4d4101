import SchemaLedger.Row

/-!
# Infos

An info puts a unit of the catalog and the latest visible ledger row of the same identity side by
side, or one of the two where the other is absent, and adds the status that follows from them.
-/

namespace SchemaLedger

/-- Where a unit stands. -/
inductive Status where
  /-- Not applied yet. -/
  | pending
  /-- Applied successfully. -/
  | success
  /-- The latest attempt failed. -/
  | failed
  /-- A repeatable unit whose content has changed since it ran. -/
  | outdated
  /-- Applied, but gone from the catalog. -/
  | missing
  /-- Not applied, and never to run, because a baseline covers it. -/
  | ignored
  deriving DecidableEq

namespace Status

def all : List Status := [pending, success, failed, outdated, missing, ignored]

def text : Status → String
  | pending => "Pending"
  | success => "Success"
  | failed => "Failed"
  | outdated => "Outdated"
  | missing => "Missing"
  | ignored => "Ignored"

def tag : Status → String
  | pending => "PENDING"
  | success => "SUCCESS"
  | failed => "FAILED"
  | outdated => "OUTDATED"
  | missing => "MISSING"
  | ignored => "IGNORED"

def ofTag? (tag : String) : Option Status := all.find? (·.tag == tag)

/-- A status that a ledger row backs. -/
def isApplied : Status → Bool
  | success | failed | outdated | missing => true
  | pending | ignored => false

theorem ofTag?_tag (status : Status) : ofTag? status.tag = some status := by
  cases status <;> rfl

end Status

/-- A unit, its latest row, or both. -/
inductive Subject where
  /-- A unit without a row. -/
  | unapplied (migration : Migration)
  /-- A unit with its latest row. -/
  | applied (migration : Migration) (row : Row)
  /-- A row without a unit. -/
  | unresolved (row : Row)

namespace Subject

def migration? : Subject → Option Migration
  | unapplied migration => some migration
  | applied migration _ => some migration
  | unresolved _ => none

def row? : Subject → Option Row
  | unapplied _ => none
  | applied _ row => some row
  | unresolved row => some row

/-- The identity, in the unit's spelling if there is a unit. -/
def identity : Subject → Identity
  | unapplied migration => migration.identity
  | applied migration _ => migration.identity
  | unresolved row => row.identity

/-- The kind of the row, or of the unit if there is no row. -/
def kind : Subject → Kind
  | unapplied migration => migration.kind
  | applied _ row => row.kind
  | unresolved row => row.kind

end Subject

/-- Where a unit or an unmatched row stands. -/
structure Info where
  subject : Subject
  status : Status
  /-- An unmatched row above every version of the catalog. -/
  future : Bool := false
  /-- A successful versioned row whose checksum is not its unit's. -/
  checksumMismatch : Bool := false

namespace Info

def migration? (info : Info) : Option Migration := info.subject.migration?

def row? (info : Info) : Option Row := info.subject.row?

def identity (info : Info) : Identity := info.subject.identity

def kind (info : Info) : Kind := info.subject.kind

def version? (info : Info) : Option Version := info.identity.version?

def description (info : Info) : String := info.identity.description

def isVersioned (info : Info) : Bool := info.version?.isSome

/-- The latest row records a failure. -/
def hasFailed (info : Info) : Bool := info.row?.any (!·.success)

/-- The latest row records a success. -/
def hasSucceeded (info : Info) : Bool := info.row?.any (·.success)

/-- The identity and the status. -/
def text (info : Info) : String := info.identity.text ++ " [" ++ info.status.text ++ "]"

end Info

end SchemaLedger
