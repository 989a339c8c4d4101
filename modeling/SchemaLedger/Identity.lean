import SchemaLedger.Version.Text

/-!
# Identities

Units and ledger rows belong together when they have the same identity: a version and a
description, or the description alone for what is repeatable. Identities are equal up to the
spelling of their versions; `key` is the form that equal identities share.
-/

namespace SchemaLedger

/-- What ledger rows and units are matched by. -/
inductive Identity where
  /-- A unit that runs once, at its version. -/
  | versioned (version : Version) (description : String)
  /-- A unit that runs again whenever its content changes. -/
  | repeatable (description : String)
  deriving BEq, Hashable

namespace Identity

/-- The identity of a unit with the given version, if any, and description. -/
def of (version : Option Version) (description : String) : Identity :=
  match version with
  | some version => versioned version description
  | none => repeatable description

def version? : Identity → Option Version
  | versioned version _ => some version
  | repeatable _ => none

def description : Identity → String
  | versioned _ description => description
  | repeatable description => description

@[simp]
theorem version?_of (version : Option Version) (description : String) :
    (of version description).version? = version := by
  cases version <;> rfl

@[simp]
theorem of_version?_description (identity : Identity) :
    of identity.version? identity.description = identity := by
  cases identity <;> rfl

/-- The version without its spelling, and the description. -/
def key (identity : Identity) : Option (List UInt64) × String :=
  (identity.version?.map Version.significant, identity.description)

def chars : Identity → List Char
  | versioned version description => version.chars ++ ' ' :: '-' :: ' ' :: description.toList
  | repeatable description => 'R' :: ' ' :: '-' :: ' ' :: description.toList

/-- The version, or `R` for what is repeatable, then the description. -/
def text (identity : Identity) : String := String.ofList identity.chars

@[simp]
theorem toList_text (identity : Identity) : identity.text.toList = identity.chars :=
  String.toList_ofList

end Identity

end SchemaLedger
