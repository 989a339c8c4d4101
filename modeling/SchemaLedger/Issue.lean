import SchemaLedger.Checksum
import SchemaLedger.Identity
import SchemaLedger.Kind

/-!
# Issues

An issue is one problem that validation finds between the ledger and the catalog. Every issue
blocks a migrate that validates; some block any migrate.
-/

namespace SchemaLedger

/-- A problem between the ledger and the catalog. -/
inductive Issue where
  /-- A successful versioned row disagrees with its unit's checksum. -/
  | checksumMismatch (identity : Identity) (applied resolved : Option Checksum)
  /-- A row was applied whose unit is gone. -/
  | missing (identity : Identity)
  /-- A row was applied above every version of the catalog. -/
  | future (identity : Identity)
  /-- The latest attempt failed and was not cleaned up. -/
  | failed (identity : Identity)
  /-- A unit is pending below the highest applied version. -/
  | outOfOrder (identity : Identity) (highestApplied : Version)
  /-- Ledger and catalog disagree on how the unit executes. -/
  | typeMismatch (identity : Identity) (applied resolved : Kind)
  deriving BEq

namespace Issue

def identity : Issue → Identity
  | checksumMismatch identity _ _ => identity
  | missing identity => identity
  | future identity => identity
  | failed identity => identity
  | outOfOrder identity _ => identity
  | typeMismatch identity _ _ => identity

/-- Failed and out-of-order units block a migrate even when it does not validate. -/
def alwaysBlocks : Issue → Bool
  | failed _ => true
  | outOfOrder _ _ => true
  | _ => false

/-- A checksum as it is shown in an issue. -/
def checksumText : Option Checksum → String
  | some checksum => "Some(" ++ toString checksum.toInt ++ ")"
  | none => "None"

def text : Issue → String
  | checksumMismatch identity applied resolved =>
      "checksum mismatch for migration " ++ identity.text ++ ": applied " ++ checksumText applied
        ++ ", resolved " ++ checksumText resolved
  | missing identity => "applied migration " ++ identity.text ++ " is not resolved locally"
  | future identity =>
      "applied migration " ++ identity.text ++ " is newer than any resolved migration"
  | failed identity =>
      "detected failed migration " ++ identity.text ++ "; clean up its changes and run repair"
  | outOfOrder identity highestApplied =>
      "pending migration " ++ identity.text ++ " is below applied version " ++ highestApplied.text
        ++ "; enable out-of-order to run it"
  | typeMismatch identity applied resolved =>
      "migration type mismatch for " ++ identity.text ++ ": applied " ++ applied.tag
        ++ ", resolved " ++ resolved.tag

end Issue

end SchemaLedger
