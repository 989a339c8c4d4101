import Mathlib
import SchemaLedger.Proofs.Engine.Answers
import SchemaLedger.Proofs.Engine.Plan

/-!
# What a migrate will do can be asked beforehand

If validation is on, `validate` rejects what `migrate` rejects, for the same reason, and `info`
lists what `migrate` attempts: the pending units up to the target, in their order, as far as the
first one that fails. Only a ledger that a migrate baselines first is not as `info` has seen it.
-/

namespace SchemaLedger

/-- The pending infos, those on versions above a target left out. -/
def Overview.pendingUpTo (target : Option Version) (overview : Overview) : List Info :=
  overview.pending.filter fun info =>
    match info.version?, target with
    | some version, some target => version ≤ target
    | _, _ => true

namespace Rollout

theorem isWithinTarget_eq (config : Config) (unit : Migration) :
    isWithinTarget config unit =
      match unit.version, config.target with
      | some version, some target => decide (version ≤ target)
      | _, _ => true := by
  rw [isWithinTarget]
  cases unit.version <;> cases config.target <;>
    simp [isWithinTarget.isAboveTarget, Std.not_lt, ← decide_not]

theorem map_migration?_pendingUpTo (catalog : Catalog) (config : Config) (rows : List Row) :
    ((Overview.of catalog rows).pendingUpTo config.target).map (·.migration?) =
      (plan config (Overview.of catalog rows)).map some := by
  have within : isWithinTarget config = fun unit =>
      match unit.version, config.target with
      | some version, some target => decide (version ≤ target)
      | _, _ => true :=
    funext (isWithinTarget_eq config)
  rw [Overview.pendingUpTo, plan, pending_eq, within, List.filter_map, List.map_map,
    List.filterMap_map]
  simp only [Function.comp_def, Info.migration?_ofMigration, List.filterMap_some, Info.version?,
    Info.identity_ofMigration, Migration.version?_identity]

/-- The units of a report are those that were executed. -/
theorem attempts_recordAll (executor : Executor) (clock : Clock) (report : Rollout)
    (units : List Migration) :
    (recordAll executor clock report units).attempts.map (·.migration) =
      report.attempts.map (·.migration) ++ units := by
  rw [attempts_recordAll_eq, List.map_append, List.map_map]
  exact congrArg _ (List.map_id units)

section Report

variable (catalog : Catalog) (executor : Executor) (config : Config) (clock : Clock)

theorem attempts_reportOn (ledger : MemoryLedger) :
    (reportOn catalog executor config clock ledger).attempts.map (·.migration) =
      executedOn catalog executor config clock ledger :=
  attempts_recordAll executor clock (begun catalog config clock ledger) _

/-- Without a baseline, a rollout attempts what is pending up to the target, and stops early only
because of a failure. -/
theorem attempts_reportOn_of_unseeded {ledger : MemoryLedger}
    (unseeded : seeds config clock ledger.rows = []) :
    (reportOn catalog executor config clock ledger).attempts.map (some ·.migration) <+:
        ((Overview.of catalog ledger.rows).pendingUpTo config.target).map (·.migration?) ∧
      ((reportOn catalog executor config clock ledger).failure = none →
        (reportOn catalog executor config clock ledger).attempts.map (some ·.migration) =
          ((Overview.of catalog ledger.rows).pendingUpTo config.target).map (·.migration?)) := by
  have planned : planned catalog config clock ledger =
      plan config (Overview.of catalog ledger.rows) := by
    rw [planned, seeded, unseeded, MemoryLedger.appendAll_nil]
  have attempts : (reportOn catalog executor config clock ledger).attempts.map (some ·.migration) =
      (attempted executor (plan config (Overview.of catalog ledger.rows))).map some := by
    rw [← planned, ← executedOn, ← attempts_reportOn, List.map_map]
    rfl
  rw [attempts, map_migration?_pendingUpTo]
  constructor
  · have tried := attempted_prefix executor (plan config (Overview.of catalog ledger.rows))
    exact tried.map some
  · intro unfailed
    rw [reportOn, executedOn, planned] at unfailed
    rw [(attempted_of_unfailed unfailed).1]

end Report

end Rollout

/-- With validation on, every issue blocks. -/
theorem Validation.blocking_eq_issues {config : Config}
    (validates : config.validateOnMigrate = true) (validation : Validation) :
    validation.blocking config = validation.issues := by
  simp [blocking, validates]

namespace Engine

/-- With validation on, `validate` fails as `migrate` fails, and otherwise `migrate` attempts what
`info` lists up to the target, unless it begins by baselining an empty ledger. -/
theorem validate_foretells_migrate (engine : Engine)
    (validates : engine.config.validateOnMigrate = true) (before : Deployment MemoryLedger)
    (free : before.store.locked = false) :
    (∀ error, (engine.validate before).1 = .error error ↔
      (engine.migrate before).1 = .error error) ∧
    ∀ validation, (engine.validate before).1 = .ok validation →
      ∃ rollout after overview, engine.migrate before = (.ok (.finished rollout), after) ∧
        (engine.info before).1 = .ok overview ∧
        after.executed = before.executed ++ rollout.attempts.map (·.migration) ∧
        ((before.store.rows = [] → engine.config.baselineOnMigrate = false) →
          rollout.attempts.map (some ·.migration) <+:
              (overview.pendingUpTo engine.config.target).map (·.migration?) ∧
            (rollout.failure = none →
              rollout.attempts.map (some ·.migration) =
                (overview.pendingUpTo engine.config.target).map (·.migration?))) := by
  rw [validate_apply, migrate_apply engine free, info_apply]
  cases engine.catalogFor before.store.rows with
  | error error => simp [Except.bind]
  | ok catalog =>
    simp only [Except.bind, Except.map, Validation.blocking_eq_issues validates]
    cases found : (Validation.of catalog before.store.rows engine.config).issues with
    | cons issue rest => simp [Validation.accepted, Validation.isValid, found]
    | nil =>
      have accepted := Validation.accepted_eq_ok_iff.mpr ⟨found, rfl⟩
      rw [accepted]
      refine ⟨by simp, fun _ _ => ⟨_, _, _, rfl, rfl, ?_, fun unbaselined => ?_⟩⟩
      · rw [Rollout.attempts_reportOn]
      · apply Rollout.attempts_reportOn_of_unseeded
        cases rows : before.store.rows with
        | nil => simp [Rollout.seeds, unbaselined rows]
        | cons row rest => rfl

section Terms

private def draftTerms : Migration := .ofProcedure (.versioned (.ofMajor 1) "draft terms") {} none

private def publishTerms : Migration :=
  .ofProcedure (.versioned (.ofMajor 2) "publish terms") {} none

def termsEngine : Engine where
  config := { target := some (.ofMajor 1) }
  provider := .ok [publishTerms, draftTerms]
  executor := fun _ => .ok ()
  clock := .still ⟨0, 0⟩

theorem validate_foretells_migrate_termsEngine :
    ∃ rollout after overview,
      termsEngine.migrate (.new defaultTable) = (.ok (.finished rollout), after) ∧
        (termsEngine.info (.new defaultTable)).1 = .ok overview ∧
        rollout.attempts.length = 1 ∧ overview.pending.length = 2 ∧
        rollout.attempts.map (some ·.migration) =
          (overview.pendingUpTo (some (.ofMajor 1))).map (·.migration?) := by
  obtain ⟨_, foretold⟩ :=
    validate_foretells_migrate termsEngine rfl (.new defaultTable) rfl
  have valid : (termsEngine.validate (.new defaultTable)).1.toOption.isSome = true := by cbv
  cases answered : (termsEngine.validate (.new defaultTable)).1 with
  | error error => simp [answered, Except.toOption] at valid
  | ok validation =>
    obtain ⟨rollout, after, overview, migrated, listed, _, attempts⟩ := foretold validation answered
    obtain ⟨_, whole⟩ := attempts fun _ => rfl
    have counts : (Completion.value? (termsEngine.migrate (.new defaultTable)).1).map
        (fun rollout => (rollout.attempts.length, rollout.failure.isNone)) = some (1, true) := by
      cbv
    have pending : (termsEngine.info (.new defaultTable)).1.toOption.map (·.pending.length) =
        some 2 := by cbv
    rw [migrated] at counts
    rw [listed] at pending
    simp only [Completion.value?, Except.toOption, Option.map_some, Option.some.injEq,
      Prod.mk.injEq, Option.isNone_iff_eq_none] at counts pending
    exact ⟨rollout, after, overview, migrated, listed, counts.1, pending, whole counts.2⟩

end Terms

end Engine

end SchemaLedger
