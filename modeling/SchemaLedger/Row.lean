import SchemaLedger.Instant.Basic
import SchemaLedger.Migration

/-!
# Ledger rows

An entry is what a ledger records of one application; a row is an entry at the rank that the store
gave it. Ranks order the rows by application; a store counts them in 32 bits. An update sets a row's
checksum, its kind, both or neither, and nothing else.

What an entry says of the time is read off the clocks of the machine, which `Clock` stands for.
-/

namespace SchemaLedger

/-- What the clocks show during one operation, in which no unit is executed twice. -/
structure Clock where
  /-- When a row is made that records no execution. -/
  now : Instant
  /-- When the row of a unit is made. -/
  finished : Migration → Instant
  /-- How long the execution of a unit takes, in milliseconds. -/
  timing : Migration → Int
  /-- How long a rollout takes, in milliseconds. -/
  total : Int

/-- Clocks that stand still. -/
def Clock.still (now : Instant) : Clock where
  now
  finished _ := now
  timing _ := 0
  total := 0

/-- The record of one application, before a store has given it a rank. -/
structure Entry where
  /-- The version, none for a repeatable unit. -/
  version : Option Version
  description : String
  kind : Kind
  /-- The file name or location of the unit. -/
  script : String
  /-- The checksum of the unit when it was applied. -/
  checksum : Option Checksum
  /-- How long the application took, in milliseconds. -/
  elapsed : Int
  success : Bool
  installedBy : String
  installedOn : Instant
  deriving BEq

/-- An entry at its rank. -/
structure Row extends Entry where
  rank : Int
  deriving BEq

namespace Entry

def identity (entry : Entry) : Identity := .of entry.version entry.description

def isVersioned (entry : Entry) : Bool := entry.version.isSome

def isRepeatable (entry : Entry) : Bool := entry.version.isNone

/-- The entry counts as history, which markers do not. -/
def isVisible (entry : Entry) : Bool := !entry.kind.isMarker

/-- The entry establishes a baseline. -/
def isEffectiveBaseline (entry : Entry) : Bool := entry.success && entry.kind.isBaseline

def atRank (entry : Entry) (rank : Int) : Row := ⟨entry, rank⟩

/-- The record of an execution of a unit. -/
def ofExecution (migration : Migration) (installedBy : String) (clock : Clock)
    (success : Bool) : Entry where
  version := migration.version
  description := migration.description
  kind := migration.kind
  script := migration.script
  checksum := migration.checksum
  elapsed := clock.timing migration
  success := success
  installedBy := installedBy
  installedOn := clock.finished migration

@[simp]
theorem identity_ofExecution (migration : Migration) (installedBy : String) (clock : Clock)
    (success : Bool) :
    (ofExecution migration installedBy clock success).identity = migration.identity := rfl

end Entry

/-- Fields of a row to be set. -/
structure Update where
  /-- The checksum to set, which may be none, if it is to be set. -/
  checksum : Option (Option Checksum) := none
  /-- The kind to set, if it is to be set. -/
  kind : Option Kind := none

namespace Update

def ofChecksum (checksum : Option Checksum) : Update := { checksum := some checksum }

def markDeleted : Update := { kind := some .deleted }

def isEmpty (update : Update) : Bool := update.checksum.isNone && update.kind.isNone

def apply (update : Update) (row : Row) : Row :=
  { row with
    checksum := update.checksum.getD row.checksum
    kind := update.kind.getD row.kind }

end Update

end SchemaLedger
