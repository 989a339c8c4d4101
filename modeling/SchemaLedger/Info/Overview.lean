import SchemaLedger.Info.Reconciliation

/-!
# Overviews

Questions that are asked of reconciled infos: what a migrate would run, what has been applied, what
has failed, and which version is current.
-/

namespace SchemaLedger

/-- The infos of a catalog and a ledger, in the order of their reconciliation. -/
structure Overview where
  infos : List Info

namespace Overview

/-- The overview of a catalog and the rows of a ledger. -/
def of (catalog : Catalog) (rows : List Row) : Overview := ⟨reconcile catalog rows⟩

def withStatus (overview : Overview) (status : Status) : List Info :=
  overview.infos.filter (·.status == status)

/-- A unit runs when it is pending, or repeatable and outdated. -/
def isDue (info : Info) : Bool :=
  match info.status with
  | .pending => true
  | .outdated => !info.isVersioned
  | _ => false

/-- The infos on units that a migrate runs when there is no target. -/
def pending (overview : Overview) : List Info := overview.infos.filter isDue

/-- The infos with a row. -/
def applied (overview : Overview) : List Info := overview.infos.filter (·.row?.isSome)

def failed (overview : Overview) : List Info := overview.infos.filter (·.hasFailed)

/-- The last of the highest versioned infos whose latest row records a success. -/
def current? (overview : Overview) : Option Info :=
  lastGreatest? Info.versionLe
    (overview.infos.filter fun info => info.hasSucceeded && info.isVersioned)

def currentVersion? (overview : Overview) : Option Version :=
  overview.current?.bind (·.version?)

end Overview

end SchemaLedger
