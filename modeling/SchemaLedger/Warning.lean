import SchemaLedger.Identity

/-!
# Warnings

What an operation finds worth saying although it succeeds.
-/

namespace SchemaLedger

inductive Warning where
  /-- The ledger has a baseline already, at another version than was asked for. -/
  | alreadyBaselined (table : String) (existing : Option Version) (requested : Version)
  /-- A row is above every version of the catalog. -/
  | newerThanCatalog (identity : Identity)
  /-- A row was copied whose unit the catalog does not have. -/
  | copiedUnresolved (identity : Identity)

def Warning.text : Warning → String
  | alreadyBaselined table existing requested =>
      "Ledger " ++ table ++ " is already baselined at version "
        ++ (existing.map Version.text).getD "" ++ "; requested version " ++ requested.text
        ++ " ignored"
  | newerThanCatalog identity =>
      "Schema has applied migration " ++ identity.text ++ " newer than any resolved migration"
  | copiedUnresolved identity =>
      "Copied migration " ++ identity.text
        ++ " is not resolved locally; run repair to reconcile"

end SchemaLedger
