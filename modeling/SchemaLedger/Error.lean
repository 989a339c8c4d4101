import SchemaLedger.Issue

/-!
# Errors

An error is a cause, and `Error.message` is the one place where causes are put into words. Every
family of causes has a constructor `reported` for what comes with words of its own: errors of a
database, of a file system, or of a unit's own code.
-/

namespace SchemaLedger

inductive StoreFault where
  /-- No row of the table has the rank. -/
  | noSuchRank (rank : Int) (table : String)
  /-- The database refused a statement. -/
  | refused (statement : String)
  | reported (text : String)

/-- Why a run is rejected before anything is written. -/
inductive Rejection where
  /-- Two units of the catalog have the same identity. -/
  | duplicate (identity : Identity) (firstScript secondScript : String)
  /-- Validation found issues that block the run. -/
  | issues (found : List Issue)
  /-- A baseline was asked for where there is a history. -/
  | baselineOverHistory (table : String) (rows : Nat)
  /-- An import was asked for where there is a history. -/
  | importOverHistory (table : String) (rows : Nat)
  | reported (text : String)

/-- How ledger rows contradict each other. -/
inductive Inconsistency where
  /-- A rank is not above the rank before it. -/
  | rankOrder (rank previous : Int)
  /-- A row was written by another tool. -/
  | foreignRow (rank : Int) (kind : Kind)
  | reported (text : String)

/-- Why the ledger lock was not obtained. -/
inductive LockFault where
  /-- Another holder kept the lock for as long as the caller would wait. -/
  | timedOut (seconds : UInt64) (table : String)
  | reported (text : String)

/-- What goes wrong with a configuration or its file. -/
inductive ConfigFault where
  | unparsable (detail : String)
  | unreadable (path detail : String)
  | noDirectory (detail : String)
  | unserializable (detail : String)
  | unwritable (path detail : String)
  | reported (text : String)

inductive Error where
  /-- A failure of the file system, in its own words. -/
  | io (text : String)
  | store (fault : StoreFault)
  | invalidVersion (input : String) (fault : VersionFault)
  | unknownKind (tag : String)
  | validation (rejection : Rejection)
  /-- A unit failed while it was executed. -/
  | migrationFailed (identity : Identity) (cause : Error)
  /-- A failure raised by a unit's own code, in its own words. -/
  | execution (text : String)
  | consistency (inconsistency : Inconsistency)
  | lockFailed (fault : LockFault)
  | config (fault : ConfigFault)

def StoreFault.text : StoreFault → String
  | noSuchRank rank table => "no row with installed rank " ++ toString rank ++ " in " ++ table
  | refused statement => "cannot execute: " ++ statement
  | reported text => text

def Rejection.text : Rejection → String
  | duplicate identity firstScript secondScript =>
      "found more than one migration with identity " ++ identity.text ++ " (" ++ firstScript
        ++ " and " ++ secondScript ++ ")"
  | issues found => "; ".intercalate (found.map Issue.text)
  | baselineOverHistory table rows =>
      "Ledger " ++ table ++ " already contains " ++ toString rows
        ++ " row(s); baseline only applies to an empty ledger"
  | importOverHistory table rows =>
      "Ledger " ++ table ++ " already contains " ++ toString rows
        ++ " row(s); liberate only writes to an empty ledger"
  | reported text => text

def Inconsistency.text : Inconsistency → String
  | rankOrder rank previous =>
      "installed rank " ++ toString rank ++ " follows rank " ++ toString previous
  | foreignRow rank kind =>
      "rank " ++ toString rank ++ " holds a foreign " ++ kind.tag
        ++ " row; liberate the ledger first"
  | reported text => text

def LockFault.text : LockFault → String
  | timedOut seconds table =>
      "Timed out after " ++ toString seconds.toNat ++ "s waiting for the lock on " ++ table
  | reported text => text

/-- The fault in words, ending in the detail that its reporter gives. -/
def ConfigFault.text : ConfigFault → String
  | unparsable detail => "Failed to parse configuration: " ++ detail
  | unreadable path detail => "Failed to read " ++ path ++ ": " ++ detail
  | noDirectory detail => "Failed to create directory: " ++ detail
  | unserializable detail => "Failed to serialize configuration: " ++ detail
  | unwritable path detail => "Failed to write " ++ path ++ ": " ++ detail
  | reported text => text

/-- How an error names a unit that failed: by its version, or `R` for what is repeatable, and by its
description. -/
def failedUnitText (version : Option Version) (description : String) : String :=
  match version with
  | some version => version.text ++ " - " ++ description
  | none => "R - " ++ description

namespace Error

/-- The failure of a unit with the given version, if any, and description. -/
def unitFailed (version : Option Version) (description : String) (cause : Error) : Error :=
  migrationFailed (.of version description) cause

/-- The text by which an error names the unit that failed. -/
def unitText? : Error → Option String
  | migrationFailed identity _ => some (failedUnitText identity.version? identity.description)
  | _ => none

def message : Error → String
  | io text => "I/O error: " ++ text
  | store fault => "Database error: " ++ fault.text
  | invalidVersion input fault => "Invalid version '" ++ input ++ "': " ++ fault.reason
  | unknownKind tag => "Unknown migration type '" ++ tag ++ "'"
  | validation rejection => "Validation failed: " ++ rejection.text
  | migrationFailed identity cause =>
      "Migration " ++ failedUnitText identity.version? identity.description ++ " failed: "
        ++ cause.message
  | execution text => "Execution error: " ++ text
  | consistency inconsistency => "Ledger consistency error: " ++ inconsistency.text
  | lockFailed fault => "Failed to acquire migration lock: " ++ fault.text
  | config fault => "Configuration error: " ++ fault.text

/-- The run was rejected before anything was written. -/
def isValidation : Error → Bool
  | validation _ => true
  | _ => false

/-- A unit failed while it was executed. -/
def isMigrationFailure : Error → Bool
  | migrationFailed _ _ => true
  | _ => false

/-- Trying again may help: the other holder of the lock will be done some time. -/
def isRecoverable : Error → Bool
  | lockFailed _ => true
  | _ => false

end Error

/-- Reads a version, with the error that names the text. -/
def Version.read (text : String) : Except Error Version :=
  (Version.ofText text).mapError (.invalidVersion text)

/-- Reads a kind from its tag, with the error that names the tag. -/
def Kind.read (tag : String) : Except Error Kind :=
  match Kind.ofTag? tag with
  | some kind => .ok kind
  | none => .error (.unknownKind tag)

end SchemaLedger
