import SchemaLedger.Ledger.Consistency
import SchemaLedger.Work

/-!
# Ledger stores

A ledger store keeps rows in the order of their ranks, gives each new row a rank, and holds one
exclusive lock. Its operations are work on a state.
-/

namespace SchemaLedger

/-- The operations of a ledger store with states in `σ`. -/
class LedgerStore (σ : Type) where
  /-- The name of the ledger's table. -/
  table : σ → String
  /-- Creates the table unless it exists. -/
  prepare : Work σ Unit
  /-- All rows in the order of their ranks. -/
  readAll : Work σ (List Row)
  /-- Adds an entry and tells the rank that it got. -/
  append : Entry → Work σ Int
  /-- Changes fields of the row with a rank. -/
  update : Int → Update → Work σ Unit
  /-- Removes the row with a rank. -/
  remove : Int → Work σ Unit
  /-- Takes the lock if it is free, and tells whether it was. -/
  acquireLock : Work σ Bool
  /-- Gives the lock back. -/
  releaseLock : σ → σ

namespace LedgerStore

variable {σ : Type} [LedgerStore σ]

/-- Marks the row with a rank as deleted without removing it. -/
def markDeleted (rank : Int) : Work σ Unit := update rank .markDeleted

/-- Reads the rows and rejects an inconsistent ledger. -/
def readConsistent : Work σ (List Row) := do
  let rows ← readAll
  checkConsistent rows
  return rows

def currentTable : Work σ String := return table (← get)

end LedgerStore

/-- The number that stands for a table's lock. -/
def lockKey (table : String) : Int64 := nameKey table

end SchemaLedger
