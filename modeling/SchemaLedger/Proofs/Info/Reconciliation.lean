import SchemaLedger.Info.Overview
import SchemaLedger.Proofs.Info.LatestRows
import SchemaLedger.Proofs.StableSort

/-!
# What a reconciliation lists

An info is either about a unit of the catalog, and then follows from the last visible row of the
unit's identity, or about the last visible row of an identity that the catalog does not have.
`mem_reconcile_iff` says so without the order of the infos. The order is that of a stable sort by
version, or by description for what is repeatable, so asking for some of the infos and putting all
of them in order can be exchanged.
-/

namespace SchemaLedger

namespace Info

theorem versionLe_trans (first second third : Info) (below : versionLe first second = true)
    (above : versionLe second third = true) : versionLe first third = true := by
  revert below above
  unfold versionLe
  cases first.version? <;> cases second.version? <;> cases third.version? <;> simp
  exact Std.le_trans

theorem versionLe_total (first second : Info) :
    (versionLe first second || versionLe second first) = true := by
  unfold versionLe
  cases first.version? <;> cases second.version? <;> simp
  exact Std.le_total

theorem descriptionLe_trans (first second third : Info) (below : descriptionLe first second = true)
    (above : descriptionLe second third = true) : descriptionLe first third = true := by
  simp only [descriptionLe, decide_eq_true_eq] at below above ⊢
  exact Std.le_trans below above

theorem descriptionLe_total (first second : Info) :
    (descriptionLe first second || descriptionLe second first) = true := by
  simp only [descriptionLe, Bool.or_eq_true, decide_eq_true_eq]
  exact Std.le_total

/-- Putting infos in order keeps all of them. -/
theorem arrange_perm (infos : List Info) : (arrange infos).Perm infos := by
  refine ((List.mergeSort_perm _ _).append (List.mergeSort_perm _ _)).trans ?_
  exact List.filter_append_perm _ infos

/-- Infos can be dropped before or after they are put in order. -/
theorem filter_arrange (keep : Info → Bool) (infos : List Info) :
    (arrange infos).filter keep = arrange (infos.filter keep) := by
  simp only [arrange, List.filter_append, filter_mergeSort versionLe_trans versionLe_total,
    filter_mergeSort descriptionLe_trans descriptionLe_total, List.filter_filter, Bool.and_comm]

/-- Infos on different identities are put in the order of their identities, and ties stay in the
order in which they were. -/
theorem arrange_pairwise {related : Info → Info → Prop} {infos : List Info}
    (distinct : infos.Pairwise fun first second => first.identity.key ≠ second.identity.key)
    (pairs : infos.Pairwise related) :
    (arrange infos).Pairwise fun first second =>
      first.identity.ComesBefore second.identity ∧
        (second.identity.ComesBefore first.identity → related first second) := by
  have unversioned : ∀ info ∈ (infos.filter (!·.isVersioned)).mergeSort descriptionLe,
      info.identity.version? = none := by
    intro info member
    simpa [isVersioned, version?] using (List.mem_filter.mp (List.mem_mergeSort.mp member)).2
  have versioned : ((infos.filter (·.isVersioned)).mergeSort versionLe).Pairwise
      fun first second => first.identity.ComesBefore second.identity ∧
        (second.identity.ComesBefore first.identity → related first second) := by
    refine (pairwise_mergeSort_ties versionLe_trans versionLe_total
      (pairs.filter _)).imp_of_mem fun {first second} here there ordered => ?_
    obtain ⟨version, known⟩ := Option.isSome_iff_exists.mp
      (List.mem_filter.mp (List.mem_mergeSort.mp here)).2
    obtain ⟨other, given⟩ := Option.isSome_iff_exists.mp
      (List.mem_filter.mp (List.mem_mergeSort.mp there)).2
    simp only [versionLe, known, given, decide_eq_true_eq] at ordered
    rw [version?] at known given
    simpa only [Identity.ComesBefore, known, given] using ordered
  have repeatable : ((infos.filter (!·.isVersioned)).mergeSort descriptionLe).Pairwise
      fun first second => first.identity.ComesBefore second.identity ∧
        (second.identity.ComesBefore first.identity → related first second) := by
    refine (pairwise_mergeSort_ties descriptionLe_trans descriptionLe_total
      ((distinct.and pairs).filter _)).imp_of_mem fun {first second} here there ordered => ?_
    have known := unversioned first here
    have given := unversioned second there
    simp only [descriptionLe, decide_eq_true_eq] at ordered
    obtain ⟨lower, tied⟩ := ordered
    have differs : first.description ≠ second.description := by
      intro same
      refine (tied (Std.le_of_eq same.symm)).1 ?_
      rw [Identity.key, Identity.key, known, given]
      exact congrArg (Prod.mk none) same
    simp only [Identity.ComesBefore, known, given]
    exact ⟨Std.lt_of_le_of_ne lower differs, fun above => absurd above (Std.not_lt.mpr lower)⟩
  refine List.pairwise_append.mpr ⟨versioned, repeatable, fun first here second there => ?_⟩
  obtain ⟨version, known⟩ := Option.isSome_iff_exists.mp
    (List.mem_filter.mp (List.mem_mergeSort.mp here)).2
  rw [version?] at known
  simp only [Identity.ComesBefore, known, unversioned second there, true_and]
  exact False.elim

@[simp]
theorem subject_ofApplied (migration : Migration) (row : Row) :
    (ofApplied migration row).subject = .applied migration row := by
  simp only [ofApplied]
  repeat' split
  all_goals rfl

theorem ofMigration_latestRows (floor : Option Version) (rows : List Row) (migration : Migration) :
    ofMigration floor (latestRows rows) migration =
      match lastVisible? rows migration.identity with
      | none => ofUnapplied floor migration
      | some row => ofApplied migration row := by
  cases last : lastVisible? rows migration.identity <;>
    simp only [ofMigration, find?_latestRows, last]

@[simp]
theorem migration?_ofMigration (floor : Option Version) (latest : List Row)
    (migration : Migration) :
    (ofMigration floor latest migration).migration? = some migration := by
  unfold ofMigration migration?
  split
  · rfl
  · rw [subject_ofApplied]
    rfl

@[simp]
theorem identity_ofMigration (floor : Option Version) (latest : List Row) (migration : Migration) :
    (ofMigration floor latest migration).identity = migration.identity := by
  unfold ofMigration identity
  split
  · rfl
  · rw [subject_ofApplied]
    rfl

/-- The info on a row without a unit is about that row. -/
theorem subject_of_ofUnresolved? {floor ceiling : Option Version} {row : Row} {info : Info}
    (listed : ofUnresolved? floor ceiling row = some info) : info.subject = .unresolved row := by
  unfold ofUnresolved? at listed
  repeat' split at listed
  all_goals cases listed
  all_goals rfl

theorem identity_of_ofUnresolved? {floor ceiling : Option Version} {row : Row} {info : Info}
    (listed : ofUnresolved? floor ceiling row = some info) : info.identity = row.identity := by
  rw [identity, subject_of_ofUnresolved? listed, Subject.identity]

end Info

/-- An info is about a unit, or about the last visible row of an identity without a unit. -/
theorem mem_reconcile_iff {catalog : Catalog} {rows : List Row} {info : Info} :
    info ∈ reconcile catalog rows ↔
      (∃ migration ∈ catalog.migrations,
        info = Info.ofMigration (baselineFloor? rows) (latestRows rows) migration) ∨
      ∃ row, lastVisible? rows row.identity = some row ∧ catalog.find? row.identity = none ∧
        Info.ofUnresolved? (baselineFloor? rows) catalog.highestVersion? row = some info := by
  simp only [reconcile, (Info.arrange_perm _).mem_iff, List.mem_append, List.mem_map,
    List.mem_filterMap, leftoverRows, List.mem_filter, Option.isNone_iff_eq_none,
    mem_latestRows_iff, eq_comm (a := info), and_assoc]

end SchemaLedger
