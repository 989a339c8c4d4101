/-!
# Kinds of units and rows

A kind says how a unit executes, or what a ledger row records. Baseline kinds declare that
everything up to their version counts as applied; markers record that an earlier row no longer
counts, and never count as history themselves.
-/

namespace SchemaLedger

/-- What a unit is, or what a ledger row records. -/
inductive Kind where
  /-- A script. -/
  | script
  /-- A coded unit. -/
  | code
  /-- A script that ran as the initializer of a baseline. -/
  | scriptBaseline
  /-- A coded unit that ran as the initializer of a baseline. -/
  | codeBaseline
  /-- A baseline without an initializer. -/
  | baseline
  /-- A row whose unit is gone, or another tool's deletion marker. -/
  | deleted
  /-- Another tool's record that a script was undone. -/
  | undoScript
  /-- Another tool's record that a coded unit was undone. -/
  | undoCode
  deriving DecidableEq

/-- How a kind is executed, initializers and undos being executed like what they belong to. -/
inductive Mechanism where
  | script
  | code
  | baseline
  | deletion
  deriving DecidableEq

namespace Kind

def all : List Kind :=
  [script, code, scriptBaseline, codeBaseline, baseline, deleted, undoScript, undoCode]

/-- The tag stored in the ledger. -/
def tag : Kind → String
  | script => "SCRIPT"
  | code => "CODE"
  | scriptBaseline => "SCRIPT_BASELINE"
  | codeBaseline => "CODE_BASELINE"
  | baseline => "BASELINE"
  | deleted => "DELETE"
  | undoScript => "UNDO_SCRIPT"
  | undoCode => "UNDO_CODE"

def ofTag? (tag : String) : Option Kind := all.find? (·.tag == tag)

/-- A baseline, with or without an initializer. -/
def isBaseline : Kind → Bool
  | baseline | scriptBaseline | codeBaseline => true
  | _ => false

/-- An undo that another tool recorded. -/
def isUndo : Kind → Bool
  | undoScript | undoCode => true
  | _ => false

/-- A marker is an undo or a deletion. -/
def isMarker (kind : Kind) : Bool := kind.isUndo || kind == deleted

/-- The kind under which a unit of this kind is recorded as the initializer of a baseline. -/
def asBaseline : Kind → Kind
  | script | scriptBaseline => scriptBaseline
  | code | codeBaseline => codeBaseline
  | other => other

def mechanism : Kind → Mechanism
  | script | scriptBaseline | undoScript => .script
  | code | codeBaseline | undoCode => .code
  | baseline => .baseline
  | deleted => .deletion

/-- Two kinds are compatible when they are executed by the same mechanism. -/
def isCompatibleWith (kind other : Kind) : Bool := kind.mechanism == other.mechanism

theorem ofTag?_tag (kind : Kind) : ofTag? kind.tag = some kind := by
  cases kind <;> rfl

end Kind

end SchemaLedger
