import SchemaLedger.Document.Toml.Term

/-!
# TOML texts

A text is a sequence of statements, one to a line: assignments to the current table, headers that
begin a table, and headers that begin one more table of an array. `document?` reads the statements
and carries them out. A byte-order mark at the start is skipped.
-/

namespace SchemaLedger.Document.Toml

/-- A line of a text that is not blank. -/
inductive Statement where
  /-- Assigns a value in the current table. -/
  | assign (assignment : Assignment)
  /-- Begins a table. -/
  | table (path : Path)
  /-- Begins one more table of an array. -/
  | element (path : Path)

/-! ## Reading -/

/-- Reads the statement at the start of a line, blanks skipped; the line may hold none. -/
def statement? (chars : List Char) : Option (Option Statement × List Char) :=
  match chars with
  | '[' :: '[' :: rest => do
      let (path, rest) ← path? rest
      return (some (.element path), ← expect? ']' (← expect? ']' rest))
  | '[' :: rest => do
      let (path, rest) ← path? rest
      return (some (.table path), ← expect? ']' rest)
  | _ =>
      match lineEnd? (skipComment chars) with
      | some _ => some (none, chars)
      | none =>
          (assignment? value? chars).map fun (assignment, rest) =>
            (some (.assign assignment), rest)

/-- Reads the statements of at most `fuel` lines. -/
def statements? : Nat → List Char → Option (List Statement)
  | 0, _ => none
  | _ + 1, [] => some []
  | fuel + 1, chars => do
      let (statement, rest) ← statement? (skipBlanks chars)
      let statements ← statements? fuel (← trailing? rest)
      return statement.toList ++ statements

/-! ## Carrying out -/

/-- The tables so far, and the path of the current one. -/
structure Construction where
  root : Entries := []
  current : List String := []

namespace Construction

def perform (construction : Construction) : Statement → Option Construction
  | .assign assignment => do
      let root ← construction.root.changeAt (·.assign assignment) construction.current
      return { construction with root }
  | .table path => do
      let root ← construction.root.changeAt (·.beginTable path.key) path.parents
      return { root, current := path.parents ++ [path.key] }
  | .element path => do
      let root ← construction.root.changeAt (·.beginElement path.key) path.parents
      return { root, current := path.parents ++ [path.key] }

end Construction

def build? (statements : List Statement) : Option Value := do
  let construction ← statements.foldlM Construction.perform {}
  return .table (Entries.toValues construction.root)

def skipMark : List Char → List Char
  | '\uFEFF' :: rest => rest
  | chars => chars

/-- Reads a text as a table. -/
def document? (text : String) : Option Value := do
  let chars := skipMark text.toList
  build? (← statements? (chars.length + 1) chars)

end SchemaLedger.Document.Toml
