import SchemaLedger.Proofs.Ledger.Memory

/-!
# Calls to a ledger in memory

A ledger store is called to append an entry or to change or remove the row with a rank.
`RowCall.perform_cases` says all that a call can come to while the ranks of a ledger in memory are
in order. From it follows what every sequence of calls keeps: the ranks stay in order, and the rank
that the ledger gives next is above every rank that it has held, those of removed rows included.
Hence what a rank addresses is one row or none, and no rank is ever given twice.
-/

namespace SchemaLedger

/-- What can be done to a row that is there. -/
inductive RowChange where
  | update (change : Update)
  | markDeleted
  | remove

/-- What is left of a row after a change. -/
def RowChange.leftOf : RowChange → Row → List Row
  | update change, row =>
      [{ row with
          checksum := change.checksum.getD row.checksum
          kind := change.kind.getD row.kind }]
  | markDeleted, row => [{ row with kind := .deleted }]
  | remove, _ => []

/-- A call to a ledger store that is about rows. -/
inductive RowCall where
  | append (entry : Entry)
  | modify (rank : Int) (change : RowChange)

namespace RowCall

def perform {σ : Type} [LedgerStore σ] : RowCall → Work σ (Option Int)
  | append entry => return some (← LedgerStore.append entry)
  | modify rank (.update change) => do
      LedgerStore.update rank change
      return none
  | modify rank .markDeleted => do
      LedgerStore.markDeleted rank
      return none
  | modify rank .remove => do
      LedgerStore.remove rank
      return none

end RowCall

/-- What a call comes to: its answer and the rows after it, given the rows before it and the ranks
that have been held. -/
inductive CallEffect (table : String) (held : List Int) :
    RowCall → List Row → Except Error (Option Int) → List Row → Prop where
  /-- The entry goes to the end, at a rank above all that have been held. -/
  | appended {entry : Entry} {rows : List Row} {rank : Int} (fresh : ∀ used ∈ held, used < rank) :
      CallEffect table held (.append entry) rows (.ok (some rank)) (rows ++ [entry.atRank rank])
  /-- The one row with the rank is changed or removed, and the others stay where they are. -/
  | changed {change : RowChange} {front back : List Row} {row : Row}
      (others : ∀ other ∈ front ++ back, other.rank ≠ row.rank) :
      CallEffect table held (.modify row.rank change) (front ++ row :: back) (.ok none)
        (front ++ change.leftOf row ++ back)
  /-- No row has the rank, and the rows stay as they are. -/
  | refused {rank : Int} {change : RowChange} {rows : List Row}
      (absent : ∀ row ∈ rows, row.rank ≠ rank) :
      CallEffect table held (.modify rank change) rows
        (.error (.store (.noSuchRank rank table))) rows

namespace MemoryLedger

/-- The ledger is new, or made from rows with pairwise different ranks. -/
inductive IsMade : MemoryLedger → Prop where
  | empty (table : String) : IsMade (.empty table)
  | ofRows (table : String) (rows : List Row) (distinct : (rows.map (·.rank)).Nodup) :
      IsMade (.ofRows table rows)

def afterCalls (ledger : MemoryLedger) (calls : List RowCall) : MemoryLedger :=
  calls.foldl (fun ledger call => (call.perform ledger).2) ledger

theorem afterCalls_concat (ledger : MemoryLedger) (calls : List RowCall) (call : RowCall) :
    ledger.afterCalls (calls ++ [call]) = (call.perform (ledger.afterCalls calls)).2 := by
  rw [afterCalls, List.foldl_append]
  rfl

/-- The ranks that the ledger holds before, between and after some calls. -/
def heldRanks (ledger : MemoryLedger) : List RowCall → List Int
  | [] => ledger.rows.map (·.rank)
  | call :: rest => ledger.rows.map (·.rank) ++ heldRanks (call.perform ledger).2 rest

end MemoryLedger

namespace RowCall

open MemoryLedger

variable {ledger : MemoryLedger}

theorem perform_modify (rank : Int) (change : RowChange) (ledger : MemoryLedger) :
    (RowCall.modify rank change).perform ledger =
      (do changeRow rank change.leftOf; return none : Work MemoryLedger (Option Int)) ledger := by
  cases change <;> rfl

/-- All that a call can come to while ranks are in order. -/
theorem perform_cases (call : RowCall) (ranked : ledger.Ranked) :
    (∃ entry, call = .append entry ∧
      call.perform ledger = (.ok (some ledger.nextRank), ledger.append entry)) ∨
    (∃ change front row back, call = .modify row.rank change ∧
      ledger.rows = front ++ row :: back ∧ (∀ other ∈ front ++ back, other.rank ≠ row.rank) ∧
      call.perform ledger =
        (.ok none, { ledger with rows := front ++ change.leftOf row ++ back })) ∨
    ∃ rank change, call = .modify rank change ∧ (∀ row ∈ ledger.rows, row.rank ≠ rank) ∧
      call.perform ledger = (.error (.store (.noSuchRank rank ledger.table)), ledger) := by
  cases call with
  | append entry => exact .inl ⟨entry, rfl, rfl⟩
  | modify rank change =>
    rw [perform_modify]
    by_cases present : ∃ row ∈ ledger.rows, row.rank = rank
    · obtain ⟨row, member, rfl⟩ := present
      obtain ⟨front, back, rows⟩ := List.append_of_mem member
      have increasing := ranked.increasing
      rw [rows] at increasing
      obtain ⟨_, behind, before⟩ := List.pairwise_append.mp increasing
      have differ (other : Row) (earlier : other ∈ front) : other.rank ≠ row.rank :=
        Int.ne_of_lt (before other earlier row List.mem_cons_self)
      refine .inr (.inl ⟨change, front, row, back, rfl, rows, ?_, ?_⟩)
      · intro other listed
        rcases List.mem_append.mp listed with earlier | later
        · exact differ other earlier
        · exact Int.ne_of_gt ((List.pairwise_cons.mp behind).1 other later)
      · rw [Work.bind_apply_of_ok (changeRow_append change.leftOf differ rows), Work.pure_apply,
          List.append_assoc]
    · have absent : ∀ row ∈ ledger.rows, row.rank ≠ rank :=
        fun row member same => present ⟨row, member, same⟩
      refine .inr (.inr ⟨rank, change, rfl, absent, ?_⟩)
      rw [Work.bind_apply, changeRow_of_absent change.leftOf absent]

/-- A call has the effect that it is to have if what has been held is below the next rank. -/
theorem effect_perform (call : RowCall) (ranked : ledger.Ranked) {held : List Int}
    (below : ∀ used ∈ held, used < ledger.nextRank) :
    CallEffect ledger.table held call ledger.rows (call.perform ledger).1
      (call.perform ledger).2.rows := by
  rcases call.perform_cases ranked with ⟨entry, rfl, done⟩ |
    ⟨change, front, row, back, rfl, rows, others, done⟩ | ⟨rank, change, rfl, absent, done⟩
  · rw [done]
    exact .appended below
  · rw [done, rows]
    exact .changed others
  · rw [done]
    exact .refused absent

theorem map_rank_leftOf_sublist (change : RowChange) (row : Row) :
    ((change.leftOf row).map (·.rank)).Sublist [row.rank] := by
  cases change with
  | update | markDeleted => exact List.Sublist.refl _
  | remove => exact List.nil_sublist _

/-- A call keeps the table and the order of ranks, and the next rank does not fall. -/
theorem ranked_perform (call : RowCall) (ranked : ledger.Ranked) :
    (call.perform ledger).2.Ranked ∧ (call.perform ledger).2.table = ledger.table ∧
      ledger.nextRank ≤ (call.perform ledger).2.nextRank := by
  rcases call.perform_cases ranked with ⟨entry, _, done⟩ |
    ⟨change, front, row, back, _, rows, _, done⟩ | ⟨_, _, _, _, done⟩
  · rw [done]
    exact ⟨ranked.append entry, rfl, Int.le_add_one (Int.le_refl _)⟩
  · rw [done]
    refine ⟨ranked.withRows ?_, rfl, Int.le_refl _⟩
    have left := ((map_rank_leftOf_sublist change row).append_left
      (front.map (·.rank))).append_right (back.map (·.rank))
    simpa [rows] using left
  · rw [done]
    exact ⟨ranked, rfl, Int.le_refl _⟩

end RowCall

namespace MemoryLedger

variable {ledger : MemoryLedger}

theorem IsMade.ranked (made : ledger.IsMade) : ledger.Ranked := by
  cases made with
  | empty table => exact (consistent_empty table).ranked
  | ofRows table rows distinct => exact ranked_ofRows table distinct

/-- Calls keep the table and the order of ranks, and what has been held is below the next rank. -/
theorem ranked_afterCalls (ranked : ledger.Ranked) (calls : List RowCall) :
    (ledger.afterCalls calls).Ranked ∧ (ledger.afterCalls calls).table = ledger.table ∧
      ledger.nextRank ≤ (ledger.afterCalls calls).nextRank ∧
      ∀ used ∈ ledger.heldRanks calls, used < (ledger.afterCalls calls).nextRank := by
  induction calls generalizing ledger with
  | nil => exact ⟨ranked, rfl, Int.le_refl _, fun _ held => ranked.lt_nextRank held⟩
  | cons call rest ih =>
    obtain ⟨next, table, raised⟩ := call.ranked_perform ranked
    obtain ⟨kept, named, further, below⟩ := ih next
    refine ⟨kept, named.trans table, Int.le_trans raised further, fun used held => ?_⟩
    rcases List.mem_append.mp held with here | later
    · exact Int.lt_of_lt_of_le (ranked.lt_nextRank here) (Int.le_trans raised further)
    · exact below used later

/-- However a ledger in memory is called after it was made, its ranks strictly increase, and the
next call has the effect that it is to have: what is appended gets a rank above all that have ever
been held, and another call changes or removes the one row with its rank or is refused. -/
theorem calls_lawful (made : ledger.IsMade) (calls : List RowCall) :
    ((ledger.afterCalls calls).rows.Pairwise fun first second => first.rank < second.rank) ∧
      ∀ call : RowCall,
        CallEffect ledger.table (ledger.heldRanks calls) call (ledger.afterCalls calls).rows
          (call.perform (ledger.afterCalls calls)).1
          (ledger.afterCalls (calls ++ [call])).rows := by
  obtain ⟨ranked, table, _, below⟩ := ranked_afterCalls made.ranked calls
  refine ⟨ranked.increasing, fun call => ?_⟩
  have effect := call.effect_perform ranked below
  rwa [table, ← afterCalls_concat] at effect

section Guests

private def guest (description : String) : Entry :=
  .ofExecution (.ofScript (.repeatable description) "") "host" (.still ⟨0, 0⟩) true

/-- A ledger made from rows that are not in the order of their ranks. -/
def guestLedger : MemoryLedger :=
  .ofRows defaultTable [(guest "late").atRank 7, (guest "early").atRank 3]

/-- The highest row leaves, another arrives, and the one that left is called again. -/
def guestCalls : List RowCall :=
  [.modify 7 .remove, .append (guest "new"), .modify 7 .markDeleted]

theorem calls_lawful_guestLedger :
    guestLedger.IsMade ∧
      ((guestLedger.afterCalls guestCalls).rows.Pairwise fun first second =>
        first.rank < second.rank) ∧
      ∀ call : RowCall,
        CallEffect guestLedger.table (guestLedger.heldRanks guestCalls) call
          (guestLedger.afterCalls guestCalls).rows
          (call.perform (guestLedger.afterCalls guestCalls)).1
          (guestLedger.afterCalls (guestCalls ++ [call])).rows := by
  have made : guestLedger.IsMade := .ofRows _ _ (by decide)
  exact ⟨made, calls_lawful made guestCalls⟩

example : guestLedger.heldRanks guestCalls = [3, 7, 3, 3, 8, 3, 8] := by cbv

end Guests

end MemoryLedger

end SchemaLedger
