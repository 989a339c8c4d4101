import Mathlib
import SchemaLedger.Proofs.Engine.Repair
import SchemaLedger.Proofs.Validation.Blocking

/-!
# What a repair clears

A repair treats every row by itself, while validation looks at the last visible row of an identity
and overlooks rows under the baseline floor. Both agree after a repair: a last visible row that is
left has succeeded, it has the checksum of its unit if it is versioned, and if its unit is gone it
establishes a baseline or is above every version of the catalog.
-/

namespace SchemaLedger

namespace RepairReport

variable {catalog : Catalog} {rows : List Row} {unit : Migration} {left : Row}

theorem not_drifted_of_settledRows (member : unit ∈ catalog.migrations)
    (last : lastVisible? (settledRows catalog rows) unit.identity = some left) :
    left.success = true ∧ (Info.drifted unit left = true → unit.isVersioned = false) := by
  have visible := isVisible_of_lastVisible?_eq_some last
  obtain ⟨row, _, stays⟩ := mem_settledRows.mp (mem_of_lastVisible?_eq_some last)
  have key : unit.identity.key = row.identity.key := by
    rw [← identity_of_apply stays, key_eq_of_lastVisible?_eq_some last]
  have found : catalog.find? row.identity = some unit := Catalog.find?_eq_some_iff.mpr ⟨member, key⟩
  refine ⟨(visible_of_apply stays visible).2.2.1, ?_⟩
  intro drifted
  have settled := Disposition.settled_apply catalog row
  rw [stays] at settled
  cases settled with
  | marker invisible => simp [invisible] at visible
  | baseline success pure => simp [Info.drifted, pure] at drifted
  | versioned before success other same versioned =>
    cases found.symm.trans same
    simp [Info.drifted, Update.apply, Update.ofChecksum] at drifted
  | repeatable before success other same unversioned =>
    exact (Migration.isVersioned_eq_of_key_eq key).trans unversioned
  | initializer success gone establishes => simp [found] at gone
  | deleted before success gone plain within => simp [found] at gone
  | newer before success gone plain beyond => simp [found] at gone

theorem isAbove_of_settledRows (member : left ∈ settledRows catalog rows)
    (visible : left.isVisible = true) (gone : catalog.find? left.identity = none)
    (plain : left.isEffectiveBaseline = false) :
    left.success = true ∧ isAbove catalog.highestVersion? left.version = true := by
  obtain ⟨row, _, stays⟩ := mem_settledRows.mp member
  rw [identity_of_apply stays] at gone
  have settled := Disposition.settled_apply catalog row
  rw [stays] at settled
  cases settled with
  | marker invisible => simp [invisible] at visible
  | baseline success pure =>
    simp [Entry.isEffectiveBaseline, success, pure, Kind.isBaseline] at plain
  | versioned before success other found versioned => simp [gone] at found
  | repeatable before success other found unversioned => simp [gone] at found
  | initializer success _ establishes =>
    simp [Entry.isEffectiveBaseline, success, establishes] at plain
  | deleted before success _ other within => cases visible
  | newer before success _ other beyond =>
    exact ⟨success, by simpa [Disposition.isWithinCatalog_eq] using beyond⟩

end RepairReport

namespace Issue

/-- The issue can be found after a repair; the others are failures, missing units and checksums that
differ, which a repair clears. -/
def outlastsRepair : Issue → Bool
  | future _ | outOfOrder _ _ | typeMismatch _ _ _ => true
  | failed _ | missing _ | checksumMismatch _ _ _ => false

variable {config : Config} {highest : Option Version} {info : Info} {issue : Issue}

theorem outlastsRepair_of_ofPending? (found : ofPending? config highest info = some issue) :
    issue.outlastsRepair = true := by
  unfold ofPending? at found
  split at found
  · split at found <;> cases found
    rfl
  · cases found

theorem outlastsRepair_of_betweenRowAndUnit? {unit : Migration} {row : Row}
    (aligned : info.checksumMismatch = false)
    (found : betweenRowAndUnit? info unit row = some issue) :
    issue.outlastsRepair = true := by
  unfold betweenRowAndUnit? at found
  split at found
  · cases found
    rfl
  · simp [aligned] at found

/-- A successful row without a unit that is above the catalog has no other issue than that. -/
theorem outlastsRepair_of_ofUnresolved? {floor ceiling : Option Version} {row : Row}
    (success : row.success = true)
    (above : row.isEffectiveBaseline = false → isAbove ceiling row.version = true)
    (listed : Info.ofUnresolved? floor ceiling row = some info)
    (found : ofInfo? config highest info = some issue) : issue.outlastsRepair = true := by
  unfold Info.ofUnresolved? at listed
  cases establishes : row.isEffectiveBaseline with
  | true =>
    simp only [establishes, if_true] at listed
    cases listed
    simp [ofInfo?, Info.hasFailed, Info.row?, Subject.row?, success] at found
  | false =>
    simp only [establishes, above establishes, Bool.false_eq_true, if_false] at listed
    split at listed
    · cases listed
    · cases listed
      cases overlooked : config.ignoreFuture <;>
        simp [ofInfo?, ofMissing?, Info.hasFailed, Info.row?, Subject.row?, success,
          overlooked] at found
      rw [← found]
      rfl

end Issue

/-- A repair of a consistent ledger succeeds, and what validation finds afterwards, whatever it is
told to overlook, is neither a failure nor a missing unit nor a checksum that differs. -/
theorem repair_clears_issues (catalog : Catalog) {ledger : MemoryLedger}
    (checked : checkConsistent ledger.rows = .ok ()) :
    ∃ report after,
      (RepairReport.run catalog : Work MemoryLedger RepairReport) ledger = (.ok report, after) ∧
        ∀ config, ∀ issue ∈ (Validation.of catalog after.rows config).issues,
          issue.outlastsRepair = true := by
  refine ⟨_, _, RepairReport.run_eq catalog checked, ?_⟩
  intro config issue member
  obtain ⟨info, listed, found⟩ := List.mem_filterMap.mp member
  rcases mem_reconcile_iff.mp listed with ⟨unit, present, rfl⟩ | ⟨left, last, gone, listed⟩
  · rw [Info.ofMigration_latestRows] at found
    cases last : lastVisible? (RepairReport.settledRows catalog ledger.rows) unit.identity with
    | none =>
      rw [last, Info.issue_ofUnapplied] at found
      split at found
      · cases found
      · exact Issue.outlastsRepair_of_ofPending? found
    | some left =>
      obtain ⟨success, aligned⟩ := RepairReport.not_drifted_of_settledRows present last
      have matching : (Info.ofApplied unit left).checksumMismatch = false := by
        rw [Info.checksumMismatch_ofApplied success]
        cases drifted : Info.drifted unit left with
        | false => rfl
        | true => exact aligned drifted
      rw [last, Info.issue_ofApplied, success, if_pos rfl] at found
      exact Issue.outlastsRepair_of_betweenRowAndUnit? matching found
  · have visible := isVisible_of_lastVisible?_eq_some last
    have stays := mem_of_lastVisible?_eq_some last
    obtain ⟨row, _, settled⟩ := RepairReport.mem_settledRows.mp stays
    exact Issue.outlastsRepair_of_ofUnresolved?
      (RepairReport.visible_of_apply settled visible).2.2.1
      (fun plain => (RepairReport.isAbove_of_settledRows stays visible gone plain).2) listed found

section Neglected

private def createUsers (checksum : Checksum) : Migration :=
  .ofProcedure (.versioned (.ofMajor 1) "create users") {} (some checksum)

private def addEmails : Migration := .ofProcedure (.versioned (.ofMajor 2) "add emails") {} none

def editedCatalog : Catalog := ⟨[createUsers (.ofInt 8)], List.pairwise_singleton _ _⟩

/-- A ledger with an initializer, a unit and a failed attempt at the unit before it. -/
def neglectedLedger : MemoryLedger where
  rows :=
    [ Entry.atRank { Entry.ofExecution (createUsers (.ofInt 7)) "admin" (.still ⟨0, 0⟩) true with
        kind := .codeBaseline } 1,
      Entry.atRank (.ofExecution addEmails "admin" (.still ⟨0, 0⟩) true) 2,
      Entry.atRank (.ofExecution addEmails "admin" (.still ⟨0, 0⟩) false) 3 ]
  nextRank := 4

theorem repair_clears_neglectedLedger :
    checkConsistent neglectedLedger.rows = .ok () ∧
      (Validation.of editedCatalog neglectedLedger.rows {}).issues.map Issue.outlastsRepair =
        [false, false] ∧
      ∃ report after,
        (RepairReport.run editedCatalog : Work MemoryLedger RepairReport) neglectedLedger =
            (.ok report, after) ∧
          ∀ config, ∀ issue ∈ (Validation.of editedCatalog after.rows config).issues,
            issue.outlastsRepair = true :=
  ⟨rfl, by cbv, repair_clears_issues editedCatalog rfl⟩

end Neglected

end SchemaLedger
