import SchemaLedger.Work

/-!
# File systems

The calls to a file system, as far as files are read and written whole, and what is asked of a path
without a call: its segments, set apart by slashes, and the path of its parent. A call that fails
says why, and may have changed the state before.
-/

namespace SchemaLedger

/-- The calls to a file system. -/
structure FileSystem (State : Type) where
  /-- Whether there is something at a path. -/
  isThere : String → State → Except String Bool
  /-- The text of the file at a path. -/
  readText : String → State → Except String String
  /-- Creates the directory at a path, and those that lead to it, where they are missing. -/
  createAll : String → State → Except String Unit × State
  /-- Writes the file at a path, over what it held. -/
  write : String → String → State → Except String Unit × State

namespace FileSystem

/-! ## Paths -/

/-- A segment leads nowhere else. -/
def isStay (segment : String) : Bool := segment == "" || segment == "."

/-- The segments of a path, set apart by slashes. -/
def segments (path : String) : List String :=
  (path.toList.splitOnP (· == '/')).map String.ofList

def trimEnd : List String → List String
  | [] => []
  | first :: rest => first :: (rest.reverse.dropWhile isStay).reverse

/-- The parent of a path: the path as it is spelled up to its last segment, with nothing at the end
that stays. The top has no parent, and no more has the empty path. -/
def parent? (path : String) : Option String :=
  match trimEnd (segments path) with
  | [] | [""] => none
  | trimmed =>
      match trimEnd trimmed.dropLast with
      | [""] => some "/"
      | above => some ("/".intercalate above)

/-! ## Calls as work -/

section Calls

variable {State : Type}

/-- A call as work, with a fault for its failure. -/
def perform (call : State → Except String Unit × State) (fault : String → ConfigFault) :
    Work State Unit := do
  let (result, after) := call (← get)
  set after
  match result with
  | .ok () => pure ()
  | .error detail => throw (.config (fault detail))

/-- Creates the parent directories of a path; the directory where paths begin is there. -/
def createParents (system : FileSystem State) (path : String) : Work State Unit :=
  match (parent? path).filter (· != "") with
  | none => pure ()
  | some directory => perform (system.createAll directory) .noDirectory

end Calls

end FileSystem

end SchemaLedger
