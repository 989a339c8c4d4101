import SchemaLedger.Error

/-!
# Migrations

A migration is a unit that discovery offers for application: an identity, what the ledger is to
record of it, and a body that can be executed. The constructors record a script under the name of
the file it would have, and a script's checksum is that of its text.
-/

namespace SchemaLedger

/-- A coded unit: statements in order, and a failure of its own raised after them, if any. -/
structure Procedure where
  statements : List String := []
  failure : Option Error := none

/-- What is executed. -/
inductive Body where
  | script (sql : String)
  | code (procedure : Procedure)

/-- A unit available for application. -/
structure Migration where
  /-- The version, none for a repeatable unit. -/
  version : Option Version
  /-- What the unit does. -/
  description : String
  /-- The file name or location that the ledger records. -/
  script : String
  /-- The checksum of the unit's content, if it tracks one. -/
  checksum : Option Checksum
  kind : Kind
  body : Body

namespace Identity

/-- The name of the file that a unit would have, without extension. -/
def fileStem (identity : Identity) : String :=
  let described := identity.description.map fun c => if c == ' ' then '_' else c
  match identity with
  | versioned version _ => "V" ++ version.text ++ "__" ++ described
  | repeatable _ => "R__" ++ described

end Identity

namespace Migration

def ofScript (identity : Identity) (sql : String) : Migration where
  version := identity.version?
  description := identity.description
  script := identity.fileStem ++ ".sql"
  checksum := some (scriptChecksum sql)
  kind := .script
  body := .script sql

/-- A coded unit, with the checksum that it reports. -/
def ofProcedure (identity : Identity) (procedure : Procedure) (checksum : Option Checksum) :
    Migration where
  version := identity.version?
  description := identity.description
  script := identity.fileStem
  checksum := checksum
  kind := .code
  body := .code procedure

def identity (migration : Migration) : Identity := .of migration.version migration.description

/-- The unit runs once, at its version. -/
def isVersioned (migration : Migration) : Bool := migration.version.isSome

/-- The unit runs again whenever its content changes. -/
def isRepeatable (migration : Migration) : Bool := migration.version.isNone

end Migration

end SchemaLedger
