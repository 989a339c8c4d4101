import SchemaLedger.Document.Value

/-!
# Tables under construction

A TOML text builds its tables piece by piece, and a table may be continued only in the way in which
it was begun: a header defines a table once, after which neither another header nor a dotted key
may define it again; a table that exists only because a header named one inside it may still get a
header of its own; a table begun by dotted keys is continued by dotted keys alone. Values, inline
tables included, are closed.
-/

namespace SchemaLedger.Document.Toml

/-- How a table came to exist. -/
inductive Origin where
  /-- Its own header defined it. -/
  | header
  /-- A header named a table inside it. -/
  | implied
  /-- A dotted key named something inside it. -/
  | dotted
  deriving DecidableEq

/-- What a key of a table under construction stands for. -/
inductive Node where
  /-- A value, which is closed. -/
  | leaf (value : Value)
  /-- A table with its entries. -/
  | table (origin : Origin) (entries : List (String × Node))
  /-- The tables of an array, each begun by a header. -/
  | tables (elements : List (List (String × Node)))

/-- The entries of a table under construction. -/
abbrev Entries := List (String × Node)

/-- Keys that lead to a key. -/
structure Path where
  parents : List String
  key : String

/-- A value for the key at the end of a path. -/
structure Assignment where
  path : Path
  value : Value

namespace Entries

/-- Puts a node at a key, in place of the one there or at the end. -/
def put (key : String) (node : Node) : Entries → Entries
  | [] => [(key, node)]
  | (other, old) :: rest =>
      if other == key then (key, node) :: rest else (other, old) :: put key node rest

/-- The entries inside a node on the way of a header, and how the node is put together again. The
last table of an array stands for the array. -/
def enterByHeader : Option Node → Option (Entries × (Entries → Node))
  | none => some ([], .table .implied)
  | some (.table origin entries) => some (entries, .table origin)
  | some (.tables elements) =>
      elements.getLast?.map fun last =>
        (last, fun entries => .tables (elements.dropLast ++ [entries]))
  | some (.leaf _) => none

/-- The entries inside a node on the way of a dotted key, whether such keys may add to them, and
how the node is put together again. -/
def enterByKey : Option Node → Option (Entries × Bool × (Entries → Node))
  | none => some ([], true, .table .dotted)
  | some (.table origin entries) =>
      if origin = .header then none else some (entries, origin == .dotted, .table origin)
  | some (.tables elements) =>
      elements.getLast?.map fun last =>
        (last, false, fun entries => .tables (elements.dropLast ++ [entries]))
  | some (.leaf _) => none

/-- Changes the entries of the table that a header's path leads to. -/
def changeAt (change : Entries → Option Entries) : List String → Entries → Option Entries
  | [], entries => change entries
  | key :: rest, entries => do
      let (inner, rebuild) ← enterByHeader (entries.lookup key)
      return entries.put key (rebuild (← changeAt change rest inner))

/-- Adds a value under a path of dotted keys; `open` tells whether keys may be added here. -/
def assignAt (key : String) (value : Value) (isOpen : Bool) :
    List String → Entries → Option Entries
  | [], entries =>
      if isOpen && (entries.lookup key).isNone then some (entries.put key (.leaf value)) else none
  | parent :: rest, entries => do
      let (inner, isOpen, rebuild) ← enterByKey (entries.lookup parent)
      return entries.put parent (rebuild (← assignAt key value isOpen rest inner))

def assign (assignment : Assignment) (entries : Entries) : Option Entries :=
  assignAt assignment.path.key assignment.value true assignment.path.parents entries

def beginTable (key : String) (entries : Entries) : Option Entries :=
  match entries.lookup key with
  | none => some (entries.put key (.table .header []))
  | some (.table .implied inner) => some (entries.put key (.table .header inner))
  | some _ => none

/-- Begins one more table of an array. -/
def beginElement (key : String) (entries : Entries) : Option Entries :=
  match entries.lookup key with
  | none => some (entries.put key (.tables [[]]))
  | some (.tables elements) => some (entries.put key (.tables (elements ++ [[]])))
  | some _ => none

end Entries

mutual

def Node.toValue : Node → Value
  | .leaf value => value
  | .table _ entries => .table (Entries.toValues entries)
  | .tables elements => .list (Entries.toTables elements)

/-- The finished values of entries. -/
def Entries.toValues : List (String × Node) → List (String × Value)
  | [] => []
  | (key, node) :: rest => (key, node.toValue) :: Entries.toValues rest

def Entries.toTables : List (List (String × Node)) → List Value
  | [] => []
  | entries :: rest => .table (Entries.toValues entries) :: Entries.toTables rest

end

/-- The table of some assignments, which nothing can add to. -/
def closedTable? (assignments : List Assignment) : Option Value := do
  let entries ← assignments.foldlM (fun entries assignment => Entries.assign assignment entries) []
  return .table (Entries.toValues entries)

end SchemaLedger.Document.Toml
