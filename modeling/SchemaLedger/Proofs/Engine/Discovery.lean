import SchemaLedger.Proofs.Engine.Repair
import SchemaLedger.Proofs.Info.Account
import SchemaLedger.Proofs.Ties
import SchemaLedger.Validation

/-!
# The order of discovery

A catalog keeps its units in the order of their discovery. That order decides which of two units of
equal version comes first in a reconciliation, and nothing else: rows find their units by identity,
floors depend on rows alone, and a ceiling is compared with, so its spelling does not matter.
`AgreesUpToTies` says what this means for reconciliations, validations and repairs, and
`agreesUpToTies_of_perm` that it holds of any two orders of the same units.
-/

namespace SchemaLedger

/-- There are two versions, and they are equal, whatever their spelling. -/
def EqualVersions (version other : Option Version) : Prop :=
  ∃ first second, version = some first ∧ other = some second ∧ (first == second) = true

theorem EqualVersions.iff_significant {version other : Option Version} :
    EqualVersions version other ↔ version.isSome = true ∧
      version.map Version.significant = other.map Version.significant := by
  cases version <;> cases other <;> simp [EqualVersions, Version.beq_iff_significant_eq]

/-- Equal identities have the same equal versions. -/
theorem EqualVersions.congr {first second other another : Identity}
    (same : first.key = other.key) (alike : second.key = another.key) :
    EqualVersions first.version? second.version? ↔
      EqualVersions other.version? another.version? := by
  have left := Identity.significant_eq_of_key_eq same
  have right := Identity.significant_eq_of_key_eq alike
  have present := congrArg Option.isSome left
  rw [Option.isSome_map, Option.isSome_map] at present
  rw [iff_significant, iff_significant, left, right, present]

/-- Identities that come before each other have equal versions. -/
theorem EqualVersions.of_comesBefore {first second : Identity} (before : first.ComesBefore second)
    (after : second.ComesBefore first) : EqualVersions first.version? second.version? := by
  unfold Identity.ComesBefore at before after
  cases known : first.version? with
  | some version =>
    cases given : second.version? with
    | some other =>
      simp only [known, given] at before after
      exact ⟨version, other, rfl, rfl, Std.beq_iff_le_and_ge.mpr ⟨before, after⟩⟩
    | none => simp only [known, given] at after
  | none =>
    cases given : second.version? with
    | some other => simp only [known, given] at before
    | none =>
      simp only [known, given] at before after
      exact absurd (Std.lt_trans before after) Std.lt_irrefl

/-- No two units of the catalog have equal versions. -/
def Catalog.VersionsDiffer (catalog : Catalog) : Prop :=
  ∀ first ∈ catalog.migrations, ∀ second ∈ catalog.migrations,
    EqualVersions first.version second.version → first = second

/-- The infos are on equal versions. -/
def Info.Ties (first second : Info) : Prop := EqualVersions first.version? second.version?

/-- What two catalogs of the same units have in common. -/
structure AgreesUpToTies (catalog permuted : Catalog) : Prop where
  /-- Reconciliations list the same infos, and differ in the order of equal versions only. -/
  infos : ∀ rows, Retied Info.Ties (reconcile catalog rows) (reconcile permuted rows)
  /-- They list them in the same order if no two units have equal versions. -/
  sequence : catalog.VersionsDiffer → ∀ rows, reconcile catalog rows = reconcile permuted rows
  /-- Validations find the same issue in each info, so issues are reordered as the infos are. -/
  issues : ∀ rows config, ∃ found refound : List (Info × Option Issue),
    Retied (fun first second => first.1.Ties second.1) found refound ∧
      found.map Prod.fst = reconcile catalog rows ∧
      refound.map Prod.fst = reconcile permuted rows ∧
      Validation.of catalog rows config = ⟨found.length, found.filterMap Prod.snd⟩ ∧
      Validation.of permuted rows config = ⟨refound.length, refound.filterMap Prod.snd⟩
  /-- They give the same result if no two units have equal versions. -/
  validation : catalog.VersionsDiffer →
    ∀ rows config, Validation.of catalog rows config = Validation.of permuted rows config
  /-- Repairs do the same to any store and report the same. -/
  repair : ∀ (σ : Type) [LedgerStore σ],
    (RepairReport.run catalog : Work σ RepairReport) = RepairReport.run permuted

section Permuted

variable {catalog permuted : Catalog} {rows : List Row}
  (perm : catalog.migrations.Perm permuted.migrations)
include perm

theorem isAbove_perm (version : Option Version) :
    isAbove catalog.highestVersion? version = isAbove permuted.highestVersion? version := by
  rw [Bool.eq_iff_iff, isAbove_iff, isAbove_iff, AboveCatalog, AboveCatalog]
  simp only [perm.mem_iff]

theorem listedInfos_perm (rows : List Row) :
    (listedInfos catalog rows).Perm (listedInfos permuted rows) := by
  have leftovers : leftoverRows catalog (latestRows rows) =
      leftoverRows permuted (latestRows rows) := by
    simp only [leftoverRows, Catalog.find?_perm perm]
  have unresolved : Info.ofUnresolved? (baselineFloor? rows) catalog.highestVersion? =
      Info.ofUnresolved? (baselineFloor? rows) permuted.highestVersion? := by
    funext row
    simp only [Info.ofUnresolved?, isAbove_perm perm]
  rw [listedInfos, listedInfos, leftovers, unresolved]
  exact (perm.map _).append_right _

theorem reconcile_perm (rows : List Row) :
    (reconcile catalog rows).Perm (reconcile permuted rows) :=
  ((Info.arrange_perm _).trans (listedInfos_perm perm rows)).trans (Info.arrange_perm _).symm

/-- In both orders infos are sorted, so they differ in ties only. -/
theorem reconcile_retied (rows : List Row) :
    Retied Info.Ties (reconcile catalog rows) (reconcile permuted rows) := by
  have sorted (catalog : Catalog) : (reconcile catalog rows).Pairwise fun first second =>
      first.identity.ComesBefore second.identity :=
    (account_reconcile catalog rows).ordered.imp And.left
  have retied := Retied.of_pairwise (reconcile_perm perm rows) (sorted catalog) (sorted permuted)
  exact retied.imp fun first second ties => EqualVersions.of_comesBefore ties.1 ties.2

/-- Where no two units have equal versions, equal versions first appear in one order only: a unit
before a row, and rows as they stand. -/
theorem firstSeen_lt_of_perm (differ : catalog.VersionsDiffer) {first second : Identity}
    (equal : EqualVersions first.version? second.version?)
    (before : firstSeen permuted rows first < firstSeen permuted rows second) :
    firstSeen catalog rows first < firstSeen catalog rows second := by
  have gone {identity : Identity} (absent : catalog.find? identity = none) :
      permuted.find? identity = none := (Catalog.find?_perm perm identity).trans absent
  cases there : catalog.find? second with
  | none =>
    rw [firstSeen_of_gone rows there]
    cases here : catalog.find? first with
    | none =>
      rw [firstSeen_of_gone rows (gone here), firstSeen_of_gone rows (gone there)] at before
      rw [firstSeen_of_gone rows here]
      omega
    | some unit =>
      obtain ⟨member, same⟩ := Catalog.find?_eq_some_iff.mp here
      exact Nat.lt_add_right _ (firstSeen_lt_size rows member same)
  | some other =>
    obtain ⟨present, alike⟩ := Catalog.find?_eq_some_iff.mp there
    cases here : catalog.find? first with
    | none =>
      have early := firstSeen_lt_size rows (perm.mem_iff.mp present) alike
      rw [firstSeen_of_gone rows (gone here)] at before
      have size : catalog.size = permuted.size := perm.length_eq
      omega
    | some unit =>
      obtain ⟨member, same⟩ := Catalog.find?_eq_some_iff.mp here
      have tied : EqualVersions unit.version other.version := by
        rwa [← Migration.version?_identity, ← Migration.version?_identity,
          EqualVersions.congr same alike]
      obtain rfl := differ unit member other present tied
      rw [firstSeen, firstSeen, ← same, ← alike] at before
      exact absurd before (Nat.lt_irrefl _)

theorem reconcile_eq_of_perm (differ : catalog.VersionsDiffer) (rows : List Row) :
    reconcile catalog rows = reconcile permuted rows := by
  refine eq_of_perm_of_ordered (reconcile_perm perm rows) (account_reconcile catalog rows).ordered
    ((account_reconcile permuted rows).ordered.imp fun {first second} ordered => ?_)
  refine ⟨ordered.1, fun tied => ?_⟩
  exact firstSeen_lt_of_perm perm differ (.of_comesBefore ordered.1 tied) (ordered.2 tied)

theorem disposition_perm : Disposition.of catalog = Disposition.of permuted := by
  funext row
  simp only [Disposition.of, Disposition.isWithinCatalog_eq, Catalog.find?_perm perm,
    isAbove_perm perm]

theorem repair_perm (σ : Type) [LedgerStore σ] :
    (RepairReport.run catalog : Work σ RepairReport) = RepairReport.run permuted := by
  have performed (report : RepairReport) (rows : List Row) :
      (RepairReport.performAll catalog report rows : Work σ RepairReport) =
        RepairReport.performAll permuted report rows := by
    induction rows generalizing report with
    | nil => rfl
    | cons row rest ih =>
      simp only [RepairReport.performAll, ih, disposition_perm perm]
  simp only [RepairReport.run, performed]

end Permuted

/-- The infos that a validation looks at, each with the issue found in it. -/
private def findings (catalog : Catalog) (rows : List Row) (config : Config) :
    List (Info × Option Issue) :=
  (reconcile catalog rows).map fun info =>
    (info, Issue.ofInfo? config (highestApplied? rows) info)

private theorem map_fst_findings (catalog : Catalog) (rows : List Row) (config : Config) :
    (findings catalog rows config).map Prod.fst = reconcile catalog rows := by
  rw [findings, List.map_map]
  exact List.map_id _

private theorem validation_eq_findings (catalog : Catalog) (rows : List Row) (config : Config) :
    Validation.of catalog rows config = ⟨(findings catalog rows config).length,
      (findings catalog rows config).filterMap Prod.snd⟩ := by
  rw [findings, List.length_map, List.filterMap_map]
  rfl

/-- The units of a catalog make up a catalog in any order, and their order matters to what is said
of equal versions only. -/
theorem agreesUpToTies_of_perm (catalog : Catalog) {units : List Migration}
    (perm : catalog.migrations.Perm units) :
    ∃ permuted, Catalog.ofList? units = .ok permuted ∧ permuted.migrations = units ∧
      AgreesUpToTies catalog permuted := by
  have distinct : units.Pairwise fun first second =>
      (first.identity == second.identity) = false := by
    refine (perm.pairwise_iff fun {first second} unequal => ?_).mp catalog.distinct
    rwa [BEq.comm]
  refine ⟨⟨units, distinct⟩, Catalog.ofList?_migrations ⟨units, distinct⟩, rfl, ?_⟩
  generalize made : (⟨units, distinct⟩ : Catalog) = permuted
  have perm : catalog.migrations.Perm permuted.migrations := by rwa [← made]
  refine ⟨reconcile_retied perm, reconcile_eq_of_perm perm, fun rows config => ?_,
    fun differ rows config => ?_, repair_perm perm⟩
  · refine ⟨findings catalog rows config, findings permuted rows config, ?_,
      map_fst_findings _ _ _, map_fst_findings _ _ _, validation_eq_findings _ _ _,
      validation_eq_findings _ _ _⟩
    exact (reconcile_retied perm rows).map fun _ _ tie => tie
  · rw [Validation.of, Validation.of, reconcile_eq_of_perm perm differ rows]

section Coworkers

private def coworkerUnit (version : Version) (description : String) : Migration :=
  .ofProcedure (.versioned version description) {} none

private def badges : Migration := coworkerUnit (.ofMajor 2) "badges"

private def desks : Migration := coworkerUnit (.ofMajor 1) "desks"

/-- Version 2 in another spelling. -/
private def absences : Migration := coworkerUnit ⟨[2, 0], List.cons_ne_nil _ _⟩ "absences"

private def seatPlan : Migration := .ofProcedure (.repeatable "seat plan") {} none

/-- A catalog in which two units have the same version. -/
def coworkerCatalog : Catalog := ⟨[badges, seatPlan, desks, absences], by decide⟩

theorem agreesUpToTies_coworkerCatalog :
    coworkerCatalog.migrations.Perm [absences, seatPlan, badges, desks] ∧
      ∃ permuted, Catalog.ofList? [absences, seatPlan, badges, desks] = .ok permuted ∧
        permuted.migrations = [absences, seatPlan, badges, desks] ∧
        AgreesUpToTies coworkerCatalog permuted := by
  have perm : coworkerCatalog.migrations.Perm [absences, seatPlan, badges, desks] :=
    (List.perm_append_singleton absences [badges, seatPlan, desks]).trans
      (.cons absences (.swap seatPlan badges [desks]))
  exact ⟨perm, agreesUpToTies_of_perm coworkerCatalog perm⟩

example : (reconcile coworkerCatalog []).map (·.description) =
    ["desks", "badges", "absences", "seat plan"] := by cbv

end Coworkers

end SchemaLedger
