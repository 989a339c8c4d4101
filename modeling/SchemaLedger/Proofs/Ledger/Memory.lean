import SchemaLedger.Ledger.Memory

/-!
# Consistent ledgers in memory

A consistent ledger in memory passes the check that every operation makes, and the rank that it will
give next is above all of its ranks. The second part is never checked: a ledger in memory is made
empty or from rows, and every operation keeps it. Under it the operations of the store have plain
results: what is appended goes to the end at consecutive ranks, and a rank names one row.

A rank has 32 bits, of which the integers of the model know nothing. `HasRoom` says that a ledger
can count on so far without an overflow; what is said of appended rows holds under it.
-/

namespace SchemaLedger

/-- Entries at consecutive ranks. -/
def Entry.ranked (rank : Int) : List Entry → List Row
  | [] => []
  | entry :: rest => entry.atRank rank :: ranked (rank + 1) rest

namespace Entry

@[simp]
theorem map_toEntry_ranked (rank : Int) (entries : List Entry) :
    (ranked rank entries).map Row.toEntry = entries := by
  induction entries generalizing rank with
  | nil => rfl
  | cons entry rest ih => rw [ranked, List.map_cons, ih]; rfl

theorem getElem?_ranked (rank : Int) (entries : List Entry) (index : Nat) :
    (ranked rank entries)[index]? = entries[index]?.map (·.atRank (rank + index)) := by
  induction entries generalizing rank index with
  | nil => rfl
  | cons entry rest ih =>
    cases index with
    | zero => simp [ranked]
    | succ index =>
      have shifted : rank + 1 + (index : Int) = rank + (index + 1 : Nat) := by omega
      rw [ranked, List.getElem?_cons_succ, List.getElem?_cons_succ, ih, shifted]

theorem rank_ranked {rank : Int} {entries : List Entry} {row : Row}
    (member : row ∈ ranked rank entries) :
    rank ≤ row.rank ∧ row.rank < rank + entries.length := by
  induction entries generalizing rank with
  | nil => cases member
  | cons entry rest ih =>
    rw [List.length_cons]
    rcases List.mem_cons.mp member with rfl | later
    · simp only [atRank]
      omega
    · have bounds := ih later
      omega

theorem toEntry_mem_of_mem_ranked {rank : Int} {entries : List Entry} {row : Row}
    (member : row ∈ ranked rank entries) : row.toEntry ∈ entries := by
  have listed := List.mem_map_of_mem (f := Row.toEntry) member
  rwa [map_toEntry_ranked] at listed

theorem ranked_pairwise (rank : Int) (entries : List Entry) :
    (ranked rank entries).Pairwise fun first second => first.rank < second.rank := by
  induction entries generalizing rank with
  | nil => exact .nil
  | cons entry rest ih =>
    refine List.pairwise_cons.mpr ⟨?_, ih _⟩
    intro row member
    have bound := (rank_ranked member).1
    simp only [atRank]
    omega

end Entry

namespace MemoryLedger

/-- Ranks increase, and the next rank is above every rank. -/
structure Ranked (ledger : MemoryLedger) : Prop where
  increasing : ledger.rows.Pairwise fun first second => first.rank < second.rank
  fresh : ∀ row ∈ ledger.rows, row.rank < ledger.nextRank

theorem Ranked.lt_nextRank {ledger : MemoryLedger} (ranked : ledger.Ranked) {rank : Int}
    (held : rank ∈ ledger.rows.map (·.rank)) : rank < ledger.nextRank := by
  obtain ⟨row, member, rfl⟩ := List.mem_map.mp held
  exact ranked.fresh row member

/-- The ledger passes the check, and the next rank is above every rank. -/
structure Consistent (ledger : MemoryLedger) : Prop where
  checked : checkConsistent ledger.rows = .ok ()
  fresh : ∀ row ∈ ledger.rows, row.rank < ledger.nextRank

theorem Consistent.increasing {ledger : MemoryLedger} (consistent : ledger.Consistent) :
    ledger.rows.Pairwise fun first second => first.rank < second.rank :=
  (checkConsistent_eq_ok_iff.mp consistent.checked).1

theorem Consistent.native {ledger : MemoryLedger} (consistent : ledger.Consistent) :
    ∀ row ∈ ledger.rows, row.kind.isUndo = false :=
  (checkConsistent_eq_ok_iff.mp consistent.checked).2

theorem Consistent.ranked {ledger : MemoryLedger} (consistent : ledger.Consistent) :
    ledger.Ranked :=
  ⟨consistent.increasing, consistent.fresh⟩

/-- A ledger with ranks in order and no undo is consistent. -/
theorem Ranked.consistent {ledger : MemoryLedger} (ranked : ledger.Ranked)
    (native : ∀ row ∈ ledger.rows, row.kind.isUndo = false) : ledger.Consistent :=
  ⟨checkConsistent_eq_ok_iff.mpr ⟨ranked.increasing, native⟩, ranked.fresh⟩

theorem consistent_empty (table : String) : (empty table).Consistent :=
  ⟨rfl, fun _ member => absurd member List.not_mem_nil⟩

theorem consistent_of_vacant {ledger : MemoryLedger} (vacant : ledger.rows = []) :
    ledger.Consistent := by
  refine ⟨by rw [vacant]; rfl, fun row member => ?_⟩
  rw [vacant] at member
  cases member

/-- A ledger made from rows with ranks in order gives higher ranks next. -/
theorem fresh_ofRows {table : String} {rows : List Row}
    (increasing : (ofRows table rows).rows.Pairwise fun first second => first.rank < second.rank) :
    ∀ row ∈ (ofRows table rows).rows, row.rank < (ofRows table rows).nextRank := by
  simp only [ofRows] at increasing ⊢
  generalize rows.mergeSort (fun first second => decide (first.rank ≤ second.rank)) = sorted
    at increasing
  intro row member
  cases reached : sorted.getLast? with
  | none => simp [List.getLast?_eq_none_iff.mp reached] at member
  | some last =>
    obtain ⟨earlier, rfl⟩ := List.getLast?_eq_some_iff.mp reached
    simp only [Option.map_some, Option.getD_some]
    rcases List.mem_append.mp member with before | here
    · have below := (List.pairwise_append.mp increasing).2.2 row before last List.mem_cons_self
      omega
    · rw [List.mem_singleton.mp here]
      omega

/-- A ledger made from rows with pairwise different ranks has them in order. -/
theorem ranked_ofRows (table : String) {rows : List Row}
    (distinct : (rows.map (·.rank)).Nodup) : (ofRows table rows).Ranked := by
  have sorted : (ofRows table rows).rows.Pairwise fun first second =>
      decide (first.rank ≤ second.rank) = true := by
    refine List.pairwise_mergeSort (fun first second third lower upper => ?_)
      (fun first second => ?_) rows
    · simp only [decide_eq_true_eq] at lower upper ⊢
      exact Int.le_trans lower upper
    · simpa using Int.le_total first.rank second.rank
  have differ : (ofRows table rows).rows.Pairwise fun first second =>
      first.rank ≠ second.rank :=
    List.pairwise_map.mp (((List.mergeSort_perm rows _).map _).nodup_iff.mpr distinct)
  have increasing := (sorted.and differ).imp fun {first second} ordered =>
    Int.lt_iff_le_and_ne.mpr ⟨of_decide_eq_true ordered.1, ordered.2⟩
  exact ⟨increasing, fresh_ofRows increasing⟩

def appendAll (ledger : MemoryLedger) (entries : List Entry) : MemoryLedger :=
  { ledger with
    rows := ledger.rows ++ Entry.ranked ledger.nextRank entries
    nextRank := ledger.nextRank + entries.length }

@[simp]
theorem rows_appendAll (ledger : MemoryLedger) (entries : List Entry) :
    (ledger.appendAll entries).rows = ledger.rows ++ Entry.ranked ledger.nextRank entries := rfl

@[simp]
theorem appendAll_nil (ledger : MemoryLedger) : ledger.appendAll [] = ledger := by
  simp [appendAll, Entry.ranked]

theorem appendAll_cons (ledger : MemoryLedger) (entry : Entry) (rest : List Entry) :
    ledger.appendAll (entry :: rest) = (ledger.append entry).appendAll rest := by
  simp only [appendAll, append, Entry.ranked, List.append_assoc, List.singleton_append,
    List.length_cons, MemoryLedger.mk.injEq, true_and, and_true]
  omega

theorem appendAll_append (ledger : MemoryLedger) (earlier later : List Entry) :
    ledger.appendAll (earlier ++ later) = (ledger.appendAll earlier).appendAll later := by
  induction earlier generalizing ledger with
  | nil => rw [List.nil_append, appendAll_nil]
  | cons entry rest ih => rw [List.cons_append, appendAll_cons, ih, appendAll_cons]

/-- Appended entries get ranks above all that are there. -/
theorem Ranked.appendAll {ledger : MemoryLedger} (ranked : ledger.Ranked) (entries : List Entry) :
    (ledger.appendAll entries).Ranked := by
  refine ⟨List.pairwise_append.mpr ⟨ranked.increasing, Entry.ranked_pairwise _ _, ?_⟩, ?_⟩
  · intro first member second added
    exact Int.lt_of_lt_of_le (ranked.fresh first member) (Entry.rank_ranked added).1
  · intro row member
    simp only [MemoryLedger.appendAll]
    rcases List.mem_append.mp member with before | added
    · have below := ranked.fresh row before
      omega
    · exact (Entry.rank_ranked added).2

theorem Ranked.append {ledger : MemoryLedger} (ranked : ledger.Ranked) (entry : Entry) :
    (ledger.append entry).Ranked := by
  rw [← appendAll_nil (ledger.append entry), ← appendAll_cons]
  exact ranked.appendAll [entry]

/-- Appending entries that no other tool records keeps a ledger consistent. -/
theorem Consistent.appendAll {ledger : MemoryLedger} (consistent : ledger.Consistent)
    {entries : List Entry} (native : ∀ entry ∈ entries, entry.kind.isUndo = false) :
    (ledger.appendAll entries).Consistent := by
  refine (consistent.ranked.appendAll entries).consistent ?_
  intro row member
  rcases List.mem_append.mp member with before | added
  · exact consistent.native row before
  · exact native _ (Entry.toEntry_mem_of_mem_ranked added)

theorem Consistent.append {ledger : MemoryLedger} (consistent : ledger.Consistent) {entry : Entry}
    (native : entry.kind.isUndo = false) : (ledger.append entry).Consistent := by
  rw [← appendAll_nil (ledger.append entry), ← appendAll_cons]
  exact consistent.appendAll fun other member => by rwa [List.mem_singleton.mp member]

section Room

variable {ledger : MemoryLedger} {count : Nat}

/-- So many more rows can be appended before the count of ranks leaves its 32 bits. -/
def HasRoom (ledger : MemoryLedger) (count : Nat) : Prop :=
  ledger.nextRank + count ≤ Int32.maxValue.toInt

instance (ledger : MemoryLedger) (count : Nat) : Decidable (ledger.HasRoom count) :=
  inferInstanceAs (Decidable (_ ≤ _))

theorem HasRoom.mono (room : ledger.HasRoom count) {fewer : Nat} (within : fewer ≤ count) :
    ledger.HasRoom fewer := by
  unfold HasRoom at room ⊢
  omega

theorem HasRoom.appendAll {entries : List Entry} (room : ledger.HasRoom (entries.length + count)) :
    (ledger.appendAll entries).HasRoom count := by
  unfold HasRoom at room ⊢
  simp only [MemoryLedger.appendAll]
  omega

theorem HasRoom.append {entry : Entry} (room : ledger.HasRoom (count + 1)) :
    (ledger.append entry).HasRoom count := by
  unfold HasRoom at room ⊢
  simp only [MemoryLedger.append]
  omega

/-- There is room for a row exactly if counting on in 32 bits does not wrap around. -/
theorem hasRoom_one_iff (held : Int32.minValue.toInt ≤ ledger.nextRank) :
    ledger.HasRoom 1 ↔ (Int32.ofInt ledger.nextRank + 1).toInt = ledger.nextRank + 1 := by
  have bounds : Int32.minValue.toInt = -2147483648 ∧ Int32.maxValue.toInt = 2147483647 := ⟨rfl, rfl⟩
  have counted : Int32.ofInt ledger.nextRank + 1 = Int32.ofInt (ledger.nextRank + 1) := by
    rw [Int32.ofInt_add]
    rfl
  rw [HasRoom, counted, bounds.2]
  rw [bounds.1] at held
  constructor
  · intro room
    exact Int32.toInt_ofInt_of_le (by omega) (by omega)
  · intro same
    have highest := Int32.toInt_le (Int32.ofInt (ledger.nextRank + 1))
    rwa [same, bounds.2] at highest

end Room

/-- Some of the ranks of a ledger are in order as all of them are. -/
theorem Ranked.withRows {ledger : MemoryLedger} (ranked : ledger.Ranked) {rows : List Row}
    (ranks : (rows.map (·.rank)).Sublist (ledger.rows.map (·.rank))) :
    { ledger with rows }.Ranked := by
  refine ⟨List.pairwise_map.mp ((List.pairwise_map.mpr ranked.increasing).sublist ranks), ?_⟩
  intro row member
  obtain ⟨old, present, same⟩ := List.mem_map.mp (ranks.subset (List.mem_map_of_mem member))
  have below := ranked.fresh old present
  simp only [same] at below
  exact below

/-- A row is replaced where it stands if no earlier row has its rank. -/
theorem replaceAt?_append {before rest : List Row} {row : Row} (replacement : Row → List Row)
    (differ : ∀ other ∈ before, other.rank ≠ row.rank) :
    replaceAt? row.rank replacement (before ++ row :: rest) =
      some (before ++ (replacement row ++ rest)) := by
  induction before with
  | nil => simp [replaceAt?]
  | cons other others ih =>
    have here := differ other List.mem_cons_self
    have later := ih fun element member => differ element (List.mem_cons_of_mem _ member)
    simp [replaceAt?, here, later]

/-- A ledger is read as it is, unless it is inconsistent. -/
theorem readConsistent_apply (ledger : MemoryLedger) :
    (LedgerStore.readConsistent : Work MemoryLedger (List Row)) ledger =
      ((checkConsistent ledger.rows).map fun _ => ledger.rows, ledger) := by
  have read : (LedgerStore.readAll : Work MemoryLedger (List Row)) ledger =
      (.ok ledger.rows, ledger) := rfl
  rw [LedgerStore.readConsistent, Work.bind_apply_of_ok read]
  change ((liftM (checkConsistent ledger.rows) : Work MemoryLedger Unit) >>= fun _ =>
    pure ledger.rows) ledger = _
  rw [Work.bind_apply, Work.liftExcept_apply]
  cases checkConsistent ledger.rows <;> rfl

theorem readConsistent_of_checked {ledger : MemoryLedger}
    (checked : checkConsistent ledger.rows = .ok ()) :
    (LedgerStore.readConsistent : Work MemoryLedger (List Row)) ledger =
      (.ok ledger.rows, ledger) := by
  rw [readConsistent_apply, checked]
  rfl

@[simp]
theorem append_apply (ledger : MemoryLedger) (entry : Entry) :
    (LedgerStore.append entry : Work MemoryLedger Int) ledger =
      (.ok ledger.nextRank, ledger.append entry) := rfl

@[simp]
theorem currentTable_apply (ledger : MemoryLedger) :
    (LedgerStore.currentTable : Work MemoryLedger String) ledger = (.ok ledger.table, ledger) := rfl

/-- Replacing a row that is there, under a rank that no earlier row has. -/
theorem changeRow_append {ledger : MemoryLedger} {before rest : List Row} {row : Row}
    (replacement : Row → List Row) (differ : ∀ other ∈ before, other.rank ≠ row.rank)
    (rows : ledger.rows = before ++ row :: rest) :
    changeRow row.rank replacement ledger =
      (.ok (), { ledger with rows := before ++ (replacement row ++ rest) }) := by
  rw [changeRow, Work.bind_apply, Work.get_apply]
  simp only [rows, replaceAt?_append replacement differ]
  rfl

theorem changeRow_of_absent {ledger : MemoryLedger} {rank : Int} (replacement : Row → List Row)
    (absent : ∀ row ∈ ledger.rows, row.rank ≠ rank) :
    changeRow rank replacement ledger =
      (.error (.store (.noSuchRank rank ledger.table)), ledger) := by
  rw [changeRow, Work.bind_apply, Work.get_apply]
  simp only [replaceAt?_eq_none_iff.mpr absent]
  rfl

end MemoryLedger

end SchemaLedger
