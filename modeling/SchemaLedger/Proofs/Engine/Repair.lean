import SchemaLedger.Engine.Repair
import SchemaLedger.Proofs.Catalog
import SchemaLedger.Proofs.Info.Highest
import SchemaLedger.Proofs.Info.LatestRows
import SchemaLedger.Proofs.Ledger.Memory

/-!
# What a repair leaves

`Settled` says for one row what a repair makes of it, and `run_eq` that a repair of a consistent
ledger makes it of every row on its own: the loop addresses rows by rank while the ledger changes
under it, but a rank names one row as long as ranks increase. The lemmas after it say what a repair
cannot change: identities, versions, the rows that establish baselines, and what is invisible.
-/

namespace SchemaLedger

/-- What a repair with a catalog makes of a row, told by cases of the row. -/
inductive Settled (catalog : Catalog) (row : Row) : Option Row → Prop
  | marker (invisible : row.isVisible = false) : Settled catalog row (some row)
  | failed (visible : row.isVisible = true) (failure : row.success = false) :
      Settled catalog row none
  | baseline (success : row.success = true) (pure : row.kind = .baseline) :
      Settled catalog row (some row)
  | versioned (visible : row.isVisible = true) (success : row.success = true) (unit : Migration)
      (found : catalog.find? row.identity = some unit) (versioned : row.isVersioned = true) :
      Settled catalog row (some ((Update.ofChecksum unit.checksum).apply row))
  | repeatable (visible : row.isVisible = true) (success : row.success = true) (unit : Migration)
      (found : catalog.find? row.identity = some unit) (unversioned : row.isVersioned = false) :
      Settled catalog row (some row)
  | initializer (success : row.success = true) (gone : catalog.find? row.identity = none)
      (establishes : row.kind.isBaseline = true) : Settled catalog row (some row)
  | deleted (visible : row.isVisible = true) (success : row.success = true)
      (gone : catalog.find? row.identity = none) (plain : row.kind.isBaseline = false)
      (within : Disposition.isWithinCatalog catalog row = true) :
      Settled catalog row (some (Update.markDeleted.apply row))
  | newer (visible : row.isVisible = true) (success : row.success = true)
      (gone : catalog.find? row.identity = none) (plain : row.kind.isBaseline = false)
      (beyond : Disposition.isWithinCatalog catalog row = false) : Settled catalog row (some row)

/-- A row is in the range of the catalog exactly if it is not above every version of it. -/
theorem Disposition.isWithinCatalog_eq (catalog : Catalog) (row : Row) :
    isWithinCatalog catalog row = !isAbove catalog.highestVersion? row.version := by
  unfold isWithinCatalog isAbove
  cases row.version <;> cases catalog.highestVersion? <;>
    simp [← decide_not, Std.not_lt]

/-- A visible row that has failed is removed. -/
theorem Disposition.of_eq_remove {catalog : Catalog} {row : Row} (visible : row.isVisible = true)
    (failure : row.success = false) : Disposition.of catalog row = .remove := by
  have unmarked : row.kind.isMarker = false := by simpa [Entry.isVisible] using visible
  simp [Disposition.of, unmarked, failure]

/-- Every row is settled in the way its disposition says. -/
theorem Disposition.settled_apply (catalog : Catalog) (row : Row) :
    Settled catalog row ((Disposition.of catalog row).apply row) := by
  unfold Disposition.of
  cases marker : row.kind.isMarker with
  | true => exact .marker (by simp [Entry.isVisible, marker])
  | false =>
    have visible : row.isVisible = true := by simp [Entry.isVisible, marker]
    cases success : row.success with
    | false => exact .failed visible success
    | true =>
      by_cases pure : row.kind = .baseline
      · simp only [pure]
        exact .baseline success pure
      · have impure : (row.kind == .baseline) = false := beq_eq_false_iff_ne.mpr pure
        simp only [impure]
        cases found : catalog.find? row.identity with
        | none =>
          cases establishes : row.kind.isBaseline with
          | true => exact .initializer success found establishes
          | false =>
            cases within : isWithinCatalog catalog row with
            | true => exact .deleted visible success found establishes within
            | false => exact .newer visible success found establishes within
        | some unit =>
          cases versioned : row.isVersioned with
          | false => exact .repeatable visible success unit found versioned
          | true =>
            -- Keeping a row that has the checksum already is aligning it.
            by_cases same : row.checksum = unit.checksum
            · have aligned : (Update.ofChecksum unit.checksum).apply row = row := by
                rw [← same]
                rfl
              have settled := Settled.versioned visible success unit found versioned
              rw [aligned] at settled
              simpa [same, Disposition.apply] using settled
            · have differs : (row.checksum != unit.checksum) = true := bne_iff_ne.mpr same
              simp only [differs]
              exact .versioned visible success unit found versioned

namespace RepairReport

/-- The rows that a repair leaves, each row being settled on its own. -/
def settledRows (catalog : Catalog) (rows : List Row) : List Row :=
  rows.filterMap fun row => (Disposition.of catalog row).apply row

theorem mem_settledRows {catalog : Catalog} {rows : List Row} {left : Row} :
    left ∈ settledRows catalog rows ↔
      ∃ row ∈ rows, (Disposition.of catalog row).apply row = some left :=
  List.mem_filterMap

theorem settledRows_append (catalog : Catalog) (earlier later : List Row) :
    settledRows catalog (earlier ++ later) =
      settledRows catalog earlier ++ settledRows catalog later :=
  List.filterMap_append

/-- Performing the disposition of a row that is there settles it and leaves the others alone. -/
theorem perform_apply (catalog : Catalog) {ledger : MemoryLedger} {before rest : List Row}
    {row : Row} (differ : ∀ other ∈ before, other.rank ≠ row.rank)
    (rows : ledger.rows = before ++ row :: rest) :
    ((Disposition.of catalog row).perform row.rank : Work MemoryLedger Unit) ledger =
      (.ok (), { ledger with
        rows := before ++ (((Disposition.of catalog row).apply row).toList ++ rest) }) := by
  cases Disposition.of catalog row with
  | keep =>
    simp only [Disposition.perform, Disposition.apply, Option.toList_some, List.singleton_append,
      Work.pure_apply, ← rows]
  | remove => exact MemoryLedger.changeRow_append _ differ rows
  | markDeleted => exact MemoryLedger.changeRow_append _ differ rows
  | align checksum => exact MemoryLedger.changeRow_append _ differ rows

/-- The report with what a repair with a catalog does with some more rows. -/
def recordAll (catalog : Catalog) (report : RepairReport) (rows : List Row) : RepairReport :=
  rows.foldl (fun report row => report.record row (Disposition.of catalog row)) report

/-- Performing the dispositions of the rows still to be treated settles them and reports it. The
rows treated before stand in front of them with ranks of their own. -/
theorem performAll_apply (catalog : Catalog) {todo : List Row} (report : RepairReport)
    (ledger : MemoryLedger) (done : List Row)
    (increasing : todo.Pairwise fun first second => first.rank < second.rank)
    (differ : ∀ other ∈ done, ∀ row ∈ todo, other.rank ≠ row.rank)
    (rows : ledger.rows = done ++ todo) :
    (performAll catalog report todo : Work MemoryLedger RepairReport) ledger =
      (.ok (report.recordAll catalog todo),
        { ledger with rows := done ++ settledRows catalog todo }) := by
  induction todo generalizing report ledger done with
  | nil =>
    rw [performAll, Work.pure_apply, settledRows, List.filterMap_nil, ← rows]
    rfl
  | cons row rest ih =>
    have step := perform_apply catalog
      (fun other member => differ other member row List.mem_cons_self) rows
    rw [performAll, Work.bind_apply_of_ok step]
    have tail := ih (report.record row (Disposition.of catalog row))
      { ledger with rows := done ++ (((Disposition.of catalog row).apply row).toList ++ rest) }
      (done ++ ((Disposition.of catalog row).apply row).toList) increasing.tail ?_ (by simp)
    · rw [tail]
      congr 2
      simp only [settledRows, List.filterMap_cons]
      cases (Disposition.of catalog row).apply row <;> simp
    · intro other member later present
      rcases List.mem_append.mp member with earlier | here
      · exact differ other earlier later (List.mem_cons_of_mem _ present)
      · have rank := Disposition.rank_eq_of_apply_eq_some (Option.mem_toList.mp here)
        have below := List.rel_of_pairwise_cons increasing present
        omega

/-- The report on what a repair with a catalog does with some rows, list by list. -/
def of (catalog : Catalog) (rows : List Row) : RepairReport where
  removed := rows.filter fun row => Disposition.of catalog row == .remove
  deleted := rows.filter fun row => Disposition.of catalog row == .markDeleted
  aligned := rows.filter fun row =>
    match Disposition.of catalog row with
    | .align _ => true
    | _ => false

/-- Each row goes to the end of the list that its disposition asks for. -/
theorem recordAll_eq (catalog : Catalog) (report : RepairReport) (rows : List Row) :
    report.recordAll catalog rows =
      { removed := report.removed ++ (RepairReport.of catalog rows).removed
        deleted := report.deleted ++ (RepairReport.of catalog rows).deleted
        aligned := report.aligned ++ (RepairReport.of catalog rows).aligned } := by
  induction rows generalizing report with
  | nil => simp [recordAll, RepairReport.of]
  | cons row rest ih =>
    rw [recordAll, List.foldl_cons, ← recordAll, ih]
    cases decided : Disposition.of catalog row <;>
      simp [record, RepairReport.of, decided]

/-- A repair of a consistent ledger settles every row on its own, and reports what it did. -/
theorem run_eq (catalog : Catalog) {ledger : MemoryLedger}
    (checked : checkConsistent ledger.rows = .ok ()) :
    (run catalog : Work MemoryLedger RepairReport) ledger =
      (.ok (RepairReport.of catalog ledger.rows),
        { ledger with rows := settledRows catalog ledger.rows }) := by
  have increasing := (checkConsistent_eq_ok_iff.mp checked).1
  have reported : RepairReport.recordAll catalog {} ledger.rows = .of catalog ledger.rows := by
    rw [recordAll_eq]
    rfl
  rw [run, Work.bind_apply_of_ok (MemoryLedger.readConsistent_of_checked checked),
    performAll_apply catalog {} ledger [] increasing
      (fun _ member => absurd member List.not_mem_nil) rfl, reported]
  rfl

/-- An inconsistent ledger is not repaired. -/
theorem run_of_refused (catalog : Catalog) {ledger : MemoryLedger} {error : Error}
    (refused : checkConsistent ledger.rows = .error error) :
    (run catalog : Work MemoryLedger RepairReport) ledger = (.error error, ledger) := by
  rw [run, Work.bind_apply, MemoryLedger.readConsistent_apply, refused]
  rfl

/-- If no row shows anything after a repair that it did not show before, the rows together show no
more than they did, in the same order. -/
theorem filterMap_settledRows_sublist {α : Type} {catalog : Catalog} {view : Row → Option α}
    {rows : List Row}
    (kept : ∀ row left value, (Disposition.of catalog row).apply row = some left →
      view left = some value → view row = some value) :
    ((settledRows catalog rows).filterMap view).Sublist (rows.filterMap view) := by
  induction rows with
  | nil => exact .slnil
  | cons row rest ih =>
    have whole : (rest.filterMap view).Sublist ((row :: rest).filterMap view) :=
      (List.sublist_cons_self row rest).filterMap view
    rw [settledRows, List.filterMap_cons, ← settledRows]
    cases stays : (Disposition.of catalog row).apply row with
    | none => exact ih.trans whole
    | some left =>
      cases shown : view left with
      | none =>
        rw [List.filterMap_cons, shown]
        exact ih.trans whole
      | some value =>
        rw [List.filterMap_cons, List.filterMap_cons, shown, kept row left value stays shown]
        exact ih.cons_cons value

theorem map_rank_settledRows_sublist (catalog : Catalog) (rows : List Row) :
    ((settledRows catalog rows).map (·.rank)).Sublist (rows.map (·.rank)) := by
  simp only [← List.filterMap_eq_map]
  refine filterMap_settledRows_sublist fun row left rank stays known => ?_
  rwa [Function.comp_apply, ← Disposition.rank_eq_of_apply_eq_some stays]

/-- A repair keeps ranks and records no undo, so rows that pass the check still pass it. -/
theorem checkConsistent_settledRows (catalog : Catalog) {rows : List Row}
    (checked : checkConsistent rows = .ok ()) :
    checkConsistent (settledRows catalog rows) = .ok () := by
  obtain ⟨increasing, unforeign⟩ := checkConsistent_eq_ok_iff.mp checked
  have ranks := (List.pairwise_map.mpr increasing).sublist
    (map_rank_settledRows_sublist catalog rows)
  refine checkConsistent_eq_ok_iff.mpr ⟨List.pairwise_map.mp ranks, ?_⟩
  intro left member
  obtain ⟨row, present, stays⟩ := mem_settledRows.mp member
  have native := unforeign row present
  have settled := Disposition.settled_apply catalog row
  rw [stays] at settled
  cases settled with
  | deleted => rfl
  | _ => exact native

theorem consistent_settledRows (catalog : Catalog) {ledger : MemoryLedger}
    (consistent : ledger.Consistent) :
    { ledger with rows := settledRows catalog ledger.rows }.Consistent :=
  ⟨checkConsistent_settledRows catalog consistent.checked,
    (consistent.ranked.withRows (map_rank_settledRows_sublist catalog ledger.rows)).fresh⟩

section Settling

variable {catalog : Catalog} {row left : Row} {rows : List Row} {identity : Identity}

theorem identity_of_apply (stays : (Disposition.of catalog row).apply row = some left) :
    left.identity = row.identity := by
  have settled := Disposition.settled_apply catalog row
  rw [stays] at settled
  cases settled <;> rfl

theorem version_of_apply (stays : (Disposition.of catalog row).apply row = some left) :
    left.version = row.version := by
  have same := congrArg Identity.version? (identity_of_apply stays)
  simpa [Entry.identity] using same

/-- A row that is left visible was visible and successful before, and keeps its kind. -/
theorem visible_of_apply (stays : (Disposition.of catalog row).apply row = some left)
    (visible : left.isVisible = true) :
    row.isVisible = true ∧ row.success = true ∧ left.success = true ∧ left.kind = row.kind := by
  have settled := Disposition.settled_apply catalog row
  rw [stays] at settled
  cases settled with
  | marker invisible => simp [invisible] at visible
  | baseline success pure => exact ⟨visible, success, success, rfl⟩
  | versioned before success unit found versioned => exact ⟨before, success, success, rfl⟩
  | repeatable before success unit found unversioned => exact ⟨before, success, success, rfl⟩
  | initializer success gone establishes => exact ⟨visible, success, success, rfl⟩
  | deleted before success gone plain within => cases visible
  | newer before success gone plain beyond => exact ⟨before, success, success, rfl⟩

/-- A row that has succeeded is left. -/
theorem exists_apply_of_success (catalog : Catalog) (success : row.success = true) :
    ∃ left, (Disposition.of catalog row).apply row = some left := by
  have settled := Disposition.settled_apply catalog row
  cases result : (Disposition.of catalog row).apply row with
  | some left => exact ⟨left, rfl⟩
  | none =>
    rw [result] at settled
    cases settled with
    | failed visible failure => simp [failure] at success

/-- A row that is left establishes a baseline exactly if it did before. -/
theorem isEffectiveBaseline_of_apply (stays : (Disposition.of catalog row).apply row = some left) :
    left.isEffectiveBaseline = row.isEffectiveBaseline := by
  have settled := Disposition.settled_apply catalog row
  rw [stays] at settled
  cases settled with
  | deleted visible success gone plain within =>
    have plainly : row.isEffectiveBaseline = false := by simp [Entry.isEffectiveBaseline, plain]
    rw [plainly]
    exact Bool.and_false _
  | _ => rfl

/-- A repair keeps every row that establishes a baseline, and its version. -/
theorem baselineVersions_settledRows (catalog : Catalog) (rows : List Row) :
    baselineVersions (settledRows catalog rows) = baselineVersions rows := by
  induction rows with
  | nil => rfl
  | cons row rest ih =>
    simp only [baselineVersions, settledRows] at ih ⊢
    rw [List.filterMap_cons, List.filter_cons]
    cases stays : (Disposition.of catalog row).apply row with
    | none =>
      cases establishes : row.isEffectiveBaseline with
      | false => simpa using ih
      | true =>
        obtain ⟨left, kept⟩ := exists_apply_of_success catalog
          (Bool.and_eq_true_iff.mp establishes).1
        simp [stays] at kept
    | some left =>
      rw [List.filter_cons, isEffectiveBaseline_of_apply stays]
      cases row.isEffectiveBaseline with
      | false => simpa using ih
      | true => simpa [version_of_apply stays] using ih

theorem baselineFloor?_settledRows (catalog : Catalog) (rows : List Row) :
    baselineFloor? (settledRows catalog rows) = baselineFloor? rows := by
  rw [baselineFloor?_eq_highest?, baselineVersions_settledRows, ← baselineFloor?_eq_highest?]

theorem highestApplied?_settledRows {version : Version}
    (found : highestApplied? (settledRows catalog rows) = some version) :
    ∃ highest, highestApplied? rows = some highest ∧ version ≤ highest := by
  obtain ⟨left, member, success, visible, same⟩ := exists_row_of_highestApplied?_eq_some found
  obtain ⟨row, present, stays⟩ := mem_settledRows.mp member
  obtain ⟨before, successful, _, _⟩ := visible_of_apply stays visible
  exact exists_le_highestApplied? present successful before (version_of_apply stays ▸ same)

theorem lastVisible?_settledRows_eq_none (absent : lastVisible? rows identity = none) :
    lastVisible? (settledRows catalog rows) identity = none := by
  rw [lastVisible?_eq_none_iff] at absent ⊢
  intro left member visible same
  obtain ⟨row, present, stays⟩ := mem_settledRows.mp member
  exact absent row present (visible_of_apply stays visible).1 (identity_of_apply stays ▸ same)

/-- If the last visible row of an identity is left visible, it is still the last one. -/
theorem lastVisible?_settledRows_eq_some (last : lastVisible? rows identity = some row)
    (stays : (Disposition.of catalog row).apply row = some left) (visible : left.isVisible = true) :
    lastVisible? (settledRows catalog rows) identity = some left := by
  obtain ⟨earlier, later, rfl, _, same, absent⟩ := lastVisible?_eq_some_iff.mp last
  refine lastVisible?_eq_some_iff.mpr
    ⟨settledRows catalog earlier, settledRows catalog later, ?_, visible, ?_, ?_⟩
  · rw [settledRows_append]
    simp only [settledRows, List.filterMap_cons, stays]
  · rw [identity_of_apply stays, same]
  · exact lastVisible?_settledRows_eq_none absent

end Settling

end RepairReport

end SchemaLedger
