import SchemaLedger.Ledger.Store

/-!
# Ledgers in memory

A ledger in memory is a list of rows and the rank that the next row will get. Ranks are never given
twice, not even after the highest row has been removed. What addresses a row by a rank that is not
there fails and changes nothing.

The count of ranks is an integer here and has 32 bits where it is kept, so a ledger is good for what
is appended to it as long as the count stays within them (`MemoryLedger.HasRoom`).
-/

namespace SchemaLedger

def defaultTable : String := "tidemark_schema_history"

structure MemoryLedger where
  table : String := defaultTable
  rows : List Row := []
  nextRank : Int := 1
  locked : Bool := false

namespace MemoryLedger

def empty (table : String) : MemoryLedger := { table }

/-- The ledger with the given rows in the order of their ranks, equal ones as given. -/
def ofRows (table : String) (rows : List Row) : MemoryLedger :=
  let sorted := rows.mergeSort (·.rank ≤ ·.rank)
  { table, rows := sorted, nextRank := (sorted.getLast?.map (·.rank + 1)).getD 1 }

def size (ledger : MemoryLedger) : Nat := ledger.rows.length

def isEmpty (ledger : MemoryLedger) : Bool := ledger.rows.isEmpty

/-- The ledger after an entry has been added. -/
def append (ledger : MemoryLedger) (entry : Entry) : MemoryLedger :=
  { ledger with
    rows := ledger.rows ++ [entry.atRank ledger.nextRank]
    nextRank := ledger.nextRank + 1 }

/-- Replaces the first row with a rank, if there is one. -/
def replaceAt? (rank : Int) (replacement : Row → List Row) : List Row → Option (List Row)
  | [] => none
  | row :: rest =>
      if row.rank = rank then some (replacement row ++ rest)
      else (replaceAt? rank replacement rest).map (row :: ·)

theorem replaceAt?_eq_none_iff {rank : Int} {replacement : Row → List Row} {rows : List Row} :
    replaceAt? rank replacement rows = none ↔ ∀ row ∈ rows, row.rank ≠ rank := by
  induction rows with
  | nil => simp [replaceAt?]
  | cons row rest ih =>
    by_cases same : row.rank = rank
    · simp [replaceAt?, same]
    · simp [replaceAt?, same, ih]

/-- Replaces the first row with a rank, which has to be there. -/
def changeRow (rank : Int) (replacement : Row → List Row) : Work MemoryLedger Unit := do
  let ledger ← get
  match replaceAt? rank replacement ledger.rows with
  | some rows => set { ledger with rows }
  | none => throw (.store (.noSuchRank rank ledger.table))

instance : LedgerStore MemoryLedger where
  table := MemoryLedger.table
  prepare := pure ()
  readAll := return (← get).rows
  append entry := do
    let ledger ← get
    set (ledger.append entry)
    return ledger.nextRank
  update rank change := changeRow rank fun row => [change.apply row]
  remove rank := changeRow rank fun _ => []
  acquireLock := do
    let ledger ← get
    set { ledger with locked := true }
    return !ledger.locked
  releaseLock ledger := { ledger with locked := false }

end MemoryLedger

end SchemaLedger
