import SchemaLedger.Row

/-!
# Consistent ledgers

A ledger is consistent when the ranks of its rows strictly increase and no row is an undo, which
only other tools record. `checkConsistent` names the first pair of rows out of order, or else the
first undo.
-/

namespace SchemaLedger

/-- The first two neighbours whose ranks do not increase. -/
def firstDisorder? : List Row → Option (Row × Row)
  | first :: second :: rest =>
      if second.rank ≤ first.rank then some (first, second) else firstDisorder? (second :: rest)
  | _ => none

/-- Rejects rows whose ranks do not strictly increase, and rows of other tools. -/
def checkConsistent (rows : List Row) : Except Error Unit :=
  match firstDisorder? rows with
  | some (first, second) => .error (.consistency (.rankOrder second.rank first.rank))
  | none =>
      match rows.find? (·.kind.isUndo) with
      | some row => .error (.consistency (.foreignRow row.rank row.kind))
      | none => .ok ()

theorem firstDisorder?_eq_none_of_pairwise {rows : List Row}
    (increasing : rows.Pairwise fun first second => first.rank < second.rank) :
    firstDisorder? rows = none := by
  induction rows with
  | nil => rfl
  | cons first rest ih =>
    cases rest with
    | nil => rfl
    | cons second others =>
      have above : first.rank < second.rank :=
        List.rel_of_pairwise_cons increasing (List.mem_cons_self ..)
      rw [firstDisorder?, if_neg (Int.not_le.mpr above)]
      exact ih increasing.tail

theorem pairwise_of_firstDisorder?_eq_none {rows : List Row}
    (ordered : firstDisorder? rows = none) :
    rows.Pairwise fun first second => first.rank < second.rank := by
  induction rows with
  | nil => exact .nil
  | cons first rest ih =>
    cases rest with
    | nil => exact List.pairwise_singleton _ _
    | cons second others =>
      unfold firstDisorder? at ordered
      split at ordered
      · cases ordered
      · rename_i above
        have tail := ih ordered
        refine List.pairwise_cons.mpr ⟨fun row member => ?_, tail⟩
        have step : first.rank < second.rank := Int.not_le.mp above
        rcases List.mem_cons.mp member with rfl | later
        · exact step
        · exact Int.lt_trans step (List.rel_of_pairwise_cons tail later)

/-- A ledger is consistent exactly if its ranks strictly increase and no row is an undo. -/
theorem checkConsistent_eq_ok_iff {rows : List Row} :
    checkConsistent rows = .ok () ↔
      (rows.Pairwise fun first second => first.rank < second.rank) ∧
        ∀ row ∈ rows, row.kind.isUndo = false := by
  unfold checkConsistent
  constructor
  · intro success
    cases disorder : firstDisorder? rows with
    | some pair => simp [disorder] at success
    | none =>
      cases foreign : rows.find? (·.kind.isUndo) with
      | some row => simp [disorder, foreign] at success
      | none =>
        exact ⟨pairwise_of_firstDisorder?_eq_none disorder, by simpa using foreign⟩
  · rintro ⟨increasing, native⟩
    have foreign : rows.find? (·.kind.isUndo) = none := by simpa using native
    simp [firstDisorder?_eq_none_of_pairwise increasing, foreign]

end SchemaLedger
