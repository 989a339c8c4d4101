import Mathlib
import SchemaLedger.Proofs.Engine.Convergence
import SchemaLedger.Proofs.Engine.Seeding
import SchemaLedger.Proofs.Info.View

/-!
# Rollouts in stages

Instead of bringing a schema up to date at once, one can go up to one target after another and in
the end drop the target. The versioned units are the same in the same order, because a plan is
sorted by version and each target takes its beginning off it; repeatable units all run in the first
stage. What the ledger shows afterwards is the same up to ranks and times, whatever the targets are.
Since each unit runs once, stages take no more ranks than a single rollout.
-/

namespace SchemaLedger

/-- The row of a unit that has succeeded, without its rank and its times. -/
def Migration.undatedRow (installedBy : String) (unit : Migration) : Row :=
  (Entry.ofExecution unit installedBy (.still ⟨0, 0⟩) true).atRank 0

theorem map_undated_recorded (rank : Int) (installedBy : String) (clock : Clock)
    (units : List Migration) :
    (recorded rank installedBy clock units).map Row.undated =
      units.map (·.undatedRow installedBy) := by
  induction units generalizing rank with
  | nil => rfl
  | cons unit rest ih =>
    have tail := ih (rank + 1)
    rw [recorded] at tail ⊢
    rw [List.map_cons, Entry.ranked, List.map_cons, tail]
    rfl

/-- Units are due by what a faithful view of the rows shows. -/
theorem Migration.isDue_map {view : Row → Row} (faithful : Row.Faithful view) (rows : List Row)
    (unit : Migration) : unit.isDue (rows.map view) = unit.isDue rows := by
  have last : lastVisible? (rows.map view) unit.identity =
      (lastVisible? rows unit.identity).map view := by
    simp only [lastVisible?, List.filter_map, Function.comp_def, faithful.isVisible,
      faithful.identity, List.getLast?_map]
  rw [isDue, isDue, last, baselineFloor?_map faithful]
  cases lastVisible? rows unit.identity with
  | none => rfl
  | some row => simp only [Option.map_some, Info.drifted, faithful.success, faithful.kind,
      faithful.checksum]

namespace Rollout

/-- The units that are due on a ledger, in the order in which they run. -/
def dueUnits (catalog : Catalog) (rows : List Row) : List Migration :=
  Migration.inOrder (catalog.migrations.filter (·.isDue rows))

/-- A target to go up to, or none, and the clock by which it is done. -/
structure Stage where
  target : Option Version
  clock : Clock

def Stage.allows (stage : Stage) (unit : Migration) : Bool :=
  isWithinTarget { target := stage.target } unit

/-- The order in which stages execute units that are due in a given order. -/
def inStages : List Stage → List Migration → List Migration
  | [], _ => []
  | stage :: rest, units =>
      units.filter stage.allows ++ inStages rest (units.filter fun unit => !stage.allows unit)

/-- Performs a rollout for every stage, one after the other. -/
def runStages {σ : Type} [LedgerStore σ] (catalog : Catalog) (executor : Executor)
    (config : Config) : List Stage → Work (Deployment σ) (List Rollout)
  | [] => return []
  | stage :: rest => do
      let rollout ← run catalog executor { config with target := stage.target } stage.clock
      let others ← runStages catalog executor config rest
      return rollout :: others

/-- Stages that go up to versions one after the other and drop the target in the end. -/
def stagesUpTo (targets : List (Version × Clock)) (last : Clock) : List Stage :=
  targets.map (fun (version, clock) => ⟨some version, clock⟩) ++ [⟨none, last⟩]

section Order

variable {stages : List Stage} {units : List Migration}

/-- If what is taken off a list comes first in it, nothing changes its place. -/
theorem filter_append_filter_not {α : Type} {takes : α → Bool} {elements : List α}
    (first : elements.Pairwise fun earlier later => takes later = true → takes earlier = true) :
    elements.filter takes ++ elements.filter (fun element => !takes element) = elements := by
  induction elements with
  | nil => rfl
  | cons head rest ih =>
    obtain ⟨before, others⟩ := List.pairwise_cons.mp first
    cases taken : takes head with
    | true => simpa [taken] using ih others
    | false =>
      have none : rest.filter takes = [] := by
        refine List.filter_eq_nil_iff.mpr fun element member takes => ?_
        simp [before element member takes] at taken
      have all := ih others
      rw [none, List.nil_append] at all
      simp [taken, none, all]

theorem Stage.allows_of_untargeted {stage : Stage} (untargeted : stage.target = none)
    (unit : Migration) : stage.allows unit = true := by
  rw [allows, isWithinTarget, untargeted]
  cases unit.version <;> rfl

/-- A stage that allows a unit allows the units of lower versions. -/
theorem Stage.allows_of_le {stage : Stage} {unit other : Migration} (versioned : unit.isVersioned)
    (below : ∀ version higher, unit.version = some version → other.version = some higher →
      version ≤ higher)
    (later : other.isVersioned) (allowed : stage.allows other = true) :
    stage.allows unit = true := by
  obtain ⟨version, known⟩ := Option.isSome_iff_exists.mp versioned
  obtain ⟨higher, given⟩ := Option.isSome_iff_exists.mp later
  have lower := below version higher known given
  cases limit : stage.target with
  | none => exact stage.allows_of_untargeted limit unit
  | some target =>
    simp only [allows, isWithinTarget, isWithinTarget.isAboveTarget, limit, known, given,
      Bool.not_eq_true', decide_eq_false_iff_not] at allowed ⊢
    grind

theorem inStages_perm {final : Stage} (untargeted : final.target = none) (stages : List Stage)
    (units : List Migration) : (inStages (stages ++ [final]) units).Perm units := by
  induction stages generalizing units with
  | nil =>
    have all : units.filter final.allows = units :=
      List.filter_eq_self.mpr fun unit _ => final.allows_of_untargeted untargeted unit
    simp [inStages, all]
  | cons stage rest ih =>
    rw [List.cons_append, inStages]
    exact ((ih _).append_left _).trans (List.filter_append_perm _ units)

/-- Stages that drop the target in the end keep the order of versioned units. -/
theorem filter_isVersioned_inStages {final : Stage} (untargeted : final.target = none)
    (stages : List Stage)
    (ordered : units.Pairwise fun first second => ∀ version other,
      first.version = some version → second.version = some other → version ≤ other) :
    (inStages (stages ++ [final]) units).filter (·.isVersioned) =
      units.filter (·.isVersioned) := by
  induction stages generalizing units with
  | nil =>
    have all : units.filter final.allows = units :=
      List.filter_eq_self.mpr fun unit _ => final.allows_of_untargeted untargeted unit
    simp [inStages, all]
  | cons stage rest ih =>
    have swap (keep : Migration → Bool) : (units.filter keep).filter (·.isVersioned) =
        (units.filter (·.isVersioned)).filter keep := by
      rw [List.filter_filter, List.filter_filter]
      simp only [Bool.and_comm]
    rw [List.cons_append, inStages, List.filter_append, ih (ordered.sublist List.filter_sublist),
      swap, swap]
    apply filter_append_filter_not
    refine (ordered.sublist List.filter_sublist).imp_of_mem ?_
    intro first second early late below allowed
    exact Stage.allows_of_le (List.mem_filter.mp early).2 below (List.mem_filter.mp late).2 allowed

end Order

section Due

variable {catalog : Catalog} {config : Config} {rows : List Row}

theorem plan_eq_filter_dueUnits (catalog : Catalog) (config : Config) (rows : List Row) :
    plan config (Overview.of catalog rows) =
      (dueUnits catalog rows).filter (isWithinTarget config) := by
  rw [plan_eq, dueUnits, Migration.filter_inOrder, List.filter_filter]

theorem mem_dueUnits {unit : Migration} : unit ∈ dueUnits catalog rows ↔
    unit ∈ catalog.migrations ∧ unit.isDue rows = true := by
  rw [dueUnits, (Migration.inOrder_perm _).mem_iff, List.mem_filter]

theorem nodup_keys_dueUnits (catalog : Catalog) (rows : List Row) :
    ((dueUnits catalog rows).map (·.identity.key)).Nodup := by
  rw [dueUnits, ((Migration.inOrder_perm _).map _).nodup_iff]
  exact catalog.nodup_keys.sublist (List.filter_sublist.map _)

theorem length_dueUnits_le (catalog : Catalog) (rows : List Row) :
    (dueUnits catalog rows).length ≤ catalog.size := by
  rw [dueUnits, (Migration.inOrder_perm _).length_eq]
  exact List.length_filter_le ..

theorem dueUnits_map {view : Row → Row} (faithful : Row.Faithful view) (catalog : Catalog)
    (rows : List Row) : dueUnits catalog (rows.map view) = dueUnits catalog rows := by
  simp only [dueUnits, Migration.isDue_map faithful]

/-- After some of the due units have been executed, the others are due. -/
theorem dueUnits_append_recorded (plain : ∀ unit ∈ catalog.migrations, unit.isPlain = true)
    (rank : Int) (installedBy : String) (clock : Clock) (takes : Migration → Bool) :
    dueUnits catalog
        (rows ++ recorded rank installedBy clock ((dueUnits catalog rows).filter takes)) =
      (dueUnits catalog rows).filter fun unit => !takes unit := by
  have offered (unit : Migration) (member : unit ∈ (dueUnits catalog rows).filter takes) :
      unit ∈ catalog.migrations :=
    (mem_dueUnits.mp (List.mem_filter.mp member).1).1
  have left : (dueUnits catalog rows).filter (fun unit => !takes unit) =
      Migration.inOrder (catalog.migrations.filter fun unit => !takes unit && unit.isDue rows) := by
    rw [dueUnits, Migration.filter_inOrder, List.filter_filter]
  rw [left]
  refine congrArg Migration.inOrder (List.filter_congr fun unit member => ?_)
  have taken : unit ∈ (dueUnits catalog rows).filter takes ↔
      unit.isDue rows = true ∧ takes unit = true := by
    rw [List.mem_filter, mem_dueUnits, and_iff_right member]
  rcases isDue_append_recorded rank installedBy clock rows plain offered member with
    ⟨executed, ended⟩ | ⟨others, unchanged⟩
  · rw [ended, (taken.mp executed).2]
    rfl
  · rw [unchanged]
    cases due : unit.isDue rows with
    | false => simp
    | true =>
      cases early : takes unit with
      | false => rfl
      | true => exact absurd rfl (others unit (taken.mpr ⟨due, early⟩))

end Due

def onSeeded (config : Config) (clock : Clock) (deployment : Deployment MemoryLedger) :
    Deployment MemoryLedger :=
  { deployment with store := seeded config clock deployment.store }

/-- Rollouts on a deployment have executed just the given units, in order, all of them succeeded,
and nothing else was recorded. -/
structure Carried (installedBy : String) (before : Deployment MemoryLedger)
    (rollouts : List Rollout) (units : List Migration) (after : Deployment MemoryLedger) :
    Prop where
  unfailed : ∀ rollout ∈ rollouts, rollout.failure = none
  attempts : (rollouts.flatMap (·.attempts)).map (fun attempt =>
    (attempt.migration, attempt.success)) = units.map (·, true)
  executed : after.executed = before.executed ++ units
  rows : after.store.rows.map Row.undated =
    before.store.rows.map Row.undated ++ units.map (·.undatedRow installedBy)
  next : after.store.nextRank = before.store.nextRank + units.length

/-- Nothing blocks rollouts on a deployment, they write no baseline, and the given units are due. -/
structure Ready (catalog : Catalog) (config : Config) (deployment : Deployment MemoryLedger)
    (units : List Migration) : Prop where
  consistent : deployment.store.Consistent
  clear : Clear catalog config deployment.store.rows
  unseeded : ∀ clock, seeds config clock deployment.store.rows = []
  due : dueUnits catalog deployment.store.rows = units

section Stages

variable {catalog : Catalog} {config : Config} {clock : Clock} {executor : Executor}
  {deployment before after last : Deployment MemoryLedger} {rollouts others : List Rollout}
  {units rest : List Migration} {installedBy : String}

theorem Carried.trans (first : Carried installedBy before rollouts units after)
    (second : Carried installedBy after others rest last) :
    Carried installedBy before (rollouts ++ others) (units ++ rest) last := by
  refine ⟨?_, ?_, ?_, ?_, ?_⟩
  · intro rollout member
    rcases List.mem_append.mp member with early | late
    · exact first.unfailed rollout early
    · exact second.unfailed rollout late
  · rw [List.flatMap_append, List.map_append, first.attempts, second.attempts, List.map_append]
  · rw [second.executed, first.executed, List.append_assoc]
  · rw [second.rows, first.rows, List.map_append, List.append_assoc]
  · rw [second.next, first.next, List.length_append]
    omega

theorem Carried.hasRoom (carried : Carried installedBy before rollouts units after) {count : Nat}
    (room : before.store.HasRoom count) (within : units.length ≤ count) :
    after.store.HasRoom 0 := by
  unfold MemoryLedger.HasRoom at room ⊢
  rw [carried.next]
  omega

theorem Ready.onSeeded_eq (ready : Ready catalog config deployment units) (clock : Clock) :
    onSeeded config clock deployment = deployment := by
  rw [onSeeded, seeded, ready.unseeded clock, MemoryLedger.appendAll_nil]

/-- A deployment that is not blocked is ready once it is seeded. -/
theorem ready_onSeeded (config : Config) (clock : Clock) (consistent : deployment.store.Consistent)
    (clear : Clear catalog config deployment.store.rows) :
    Ready catalog config (onSeeded config clock deployment)
      (dueUnits catalog (onSeeded config clock deployment).store.rows) :=
  ⟨consistent_seeded config clock consistent, clear_seeded.mpr clear,
    fun _ => seeds_eq_nil_of_seeded clock deployment.store fun bare => bare, rfl⟩

/-- What is recorded before a plan is made does not depend on the time, but for its own time. -/
theorem map_undated_onSeeded (config : Config) (clock later : Clock)
    (deployment : Deployment MemoryLedger) :
    (onSeeded config clock deployment).store.rows.map Row.undated =
      (onSeeded config later deployment).store.rows.map Row.undated := by
  simp only [onSeeded, seeded, seeds, MemoryLedger.rows_appendAll, List.map_append]
  split <;> rfl

variable (plain : ∀ unit ∈ catalog.migrations, unit.isPlain = true)
  (succeed : ∀ unit ∈ catalog.migrations, executor unit = .ok ())
include plain succeed

/-- A stage executes the due units that it allows, and is followed by stages that find the others
due. -/
theorem run_stage (stage : Stage) (checked : checkConsistent deployment.store.rows = .ok ())
    (ready : Ready catalog config (onSeeded config stage.clock deployment) units) :
    ∃ rollout after,
      run catalog executor { config with target := stage.target } stage.clock deployment =
        (.ok rollout, after) ∧
      Carried config.installedBy (onSeeded config stage.clock deployment) [rollout]
        (units.filter stage.allows) after ∧
      Ready catalog config after (units.filter fun unit => !stage.allows unit) := by
  obtain ⟨consistent, clear, unseeded, rfl⟩ := ready
  -- Neither what blocks nor what is seeded depends on the target.
  have clearHere : Clear catalog { config with target := stage.target }
      (onSeeded config stage.clock deployment).store.rows :=
    ⟨clear.unapplied, clear.applied, clear.unresolved⟩
  have planned : plan { config with target := stage.target }
      (Overview.of catalog (onSeeded config stage.clock deployment).store.rows) =
        (dueUnits catalog (onSeeded config stage.clock deployment).store.rows).filter
          stage.allows :=
    plan_eq_filter_dueUnits catalog _ _
  have ran := run_of_clear executor checked clearHere
  generalize taken : (dueUnits catalog (onSeeded config stage.clock deployment).store.rows).filter
    stage.allows = done at planned
  have offered (unit : Migration) (member : unit ∈ done) : unit ∈ catalog.migrations := by
    rw [← planned] at member
    exact (mem_plan_iff.mp member).1
  have succeedDone (unit : Migration) (member : unit ∈ done) : executor unit = .ok () :=
    succeed unit (offered unit member)
  have attempted := attempted_of_forall_ok succeedDone
  obtain ⟨attempts, _, failure⟩ := recordAll_of_forall_ok
    (begun catalog { config with target := stage.target } stage.clock deployment.store) succeedDone
  have sameDone : Rollout.planned catalog { config with target := stage.target } stage.clock
      deployment.store = done := planned
  dsimp only at ran
  rw [sameDone, attempted] at ran
  have rows := rows_appendAll_entries { config with target := stage.target } stage.clock
    (onSeeded config stage.clock deployment).store succeedDone
  have split := planned.trans (List.append_nil done).symm
  refine ⟨_, _, ran, ⟨?_, ?_, rfl, ?_, ?_⟩, ⟨?_, ?_, ?_, ?_⟩⟩
  · intro rollout member
    rw [List.mem_singleton.mp member, failure_finish, failure]
    rfl
  · rw [List.flatMap_singleton, attempts_finish, attempts, begun, start, List.nil_append,
      List.map_map]
    rfl
  · exact (congrArg (List.map Row.undated) rows).trans
      (by rw [List.map_append, map_undated_recorded])
  · simp only [MemoryLedger.appendAll, entries, List.length_map]
    rfl
  · exact consistent_entries executor _ _ consistent fun unit member =>
      plain unit (offered unit member)
  · have still := clearHere.append_recorded (onSeeded config stage.clock deployment).store.nextRank
      config.installedBy stage.clock split plain
    rw [← rows] at still
    exact ⟨still.unapplied, still.applied, still.unresolved⟩
  · intro later
    exact seeds_eq_nil_of_seeded stage.clock deployment.store fun bare =>
      (List.append_eq_nil_iff.mp bare).1
  · refine (congrArg (dueUnits catalog) rows).trans ?_
    rw [← taken]
    exact dueUnits_append_recorded plain _ _ _ _

/-- Stages execute what is due in the order of the stages, and nothing fails. -/
theorem runStages_apply (first : Stage) (more : List Stage)
    (checked : checkConsistent deployment.store.rows = .ok ())
    (ready : Ready catalog config (onSeeded config first.clock deployment) units) :
    ∃ rollouts after,
      runStages catalog executor config (first :: more) deployment = (.ok rollouts, after) ∧
      Carried config.installedBy (onSeeded config first.clock deployment) rollouts
        (inStages (first :: more) units) after := by
  obtain ⟨rollout, middle, ran, carried, onward⟩ := run_stage plain succeed first checked ready
  induction more generalizing first deployment units rollout middle with
  | nil =>
    refine ⟨[rollout], middle, ?_, ?_⟩
    · rw [runStages, Work.bind_apply_of_ok ran]
      rfl
    · simpa [inStages] using carried
  | cons second rest ih =>
    have readySecond : Ready catalog config (onSeeded config second.clock middle)
        (units.filter fun unit => !first.allows unit) := by
      rwa [onward.onSeeded_eq]
    obtain ⟨other, next, ranNext, carriedNext, onwardNext⟩ :=
      run_stage plain succeed second onward.consistent.checked readySecond
    obtain ⟨others, after, ranOthers, carriedOthers⟩ :=
      ih second onward.consistent.checked readySecond other next ranNext carriedNext onwardNext
    rw [onward.onSeeded_eq] at carriedOthers
    refine ⟨rollout :: others, after, ?_, carried.trans carriedOthers⟩
    rw [runStages, Work.bind_apply_of_ok ran, Work.bind_apply_of_ok ranOthers]
    rfl

/-- A rollout without a target executes all that is due. -/
theorem carried_of_untargeted {rollout : Rollout} (untargeted : config.target = none)
    (consistent : deployment.store.Consistent)
    (clear : Clear catalog config deployment.store.rows)
    (ran : run catalog executor config clock deployment = (.ok rollout, after)) :
    Carried config.installedBy (onSeeded config clock deployment) [rollout]
      (dueUnits catalog (onSeeded config clock deployment).store.rows) after := by
  have untouched : { config with target := none } = config := by rw [← untargeted]
  obtain ⟨_, _, same, carried, _⟩ := run_stage plain succeed ⟨none, clock⟩ consistent.checked
    (ready_onSeeded config clock consistent clear)
  rw [untouched] at same
  cases same.symm.trans ran
  have all : (dueUnits catalog (onSeeded config clock deployment).store.rows).filter
      (Stage.allows ⟨none, clock⟩) =
        dueUnits catalog (onSeeded config clock deployment).store.rows :=
    List.filter_eq_self.mpr fun unit _ => Stage.allows_of_untargeted rfl unit
  rwa [all] at carried

omit succeed in
/-- The order in which units were executed shows in no info but for ranks and times. -/
theorem reconcile_undatedRows_perm {other : List Migration} (rows : List Row)
    (perm : units.Perm other) (distinct : (units.map (·.identity.key)).Nodup)
    (offered : ∀ unit ∈ units, unit ∈ catalog.migrations) :
    reconcile catalog (rows ++ units.map (·.undatedRow installedBy)) =
      reconcile catalog (rows ++ other.map (·.undatedRow installedBy)) := by
  apply reconcile_append_perm _ (perm.map _)
  · rw [List.map_map]
    exact distinct
  · intro row member
    obtain ⟨unit, present, rfl⟩ := List.mem_map.mp member
    have found : catalog.find? unit.identity = some unit :=
      Catalog.find?_eq_some_iff.mpr ⟨offered unit present, rfl⟩
    exact Option.isSome_iff_exists.mpr ⟨unit, found⟩
  · intro row member
    obtain ⟨unit, present, rfl⟩ := List.mem_map.mp member
    have kind := Migration.kind_of_isPlain (plain unit (offered unit present))
    simp [Migration.undatedRow, Entry.atRank, Entry.ofExecution, Entry.isEffectiveBaseline,
      kind.2.1]

end Stages

/-- Going up to one target after another, in whatever order they are, and without one in the end is
never rejected. It executes what a single rollout executes, each unit once and versioned units in
the same order, and leads to the same infos but for ranks and times. -/
theorem stages_agree (catalog : Catalog) (plain : ∀ unit ∈ catalog.migrations, unit.isPlain = true)
    (executor : Executor) (succeed : ∀ unit ∈ catalog.migrations, executor unit = .ok ())
    (config : Config) (untargeted : config.target = none) (clock : Clock)
    {deployment once : Deployment MemoryLedger} {rollout : Rollout}
    (consistent : deployment.store.Consistent)
    (room : deployment.store.HasRoom (catalog.size + 1))
    (ran : run catalog executor config clock deployment = (.ok rollout, once))
    (targets : List (Version × Clock)) (last : Clock) :
    ∃ rollouts after units single,
      runStages catalog executor config (stagesUpTo targets last) deployment =
        (.ok rollouts, after) ∧
      (∀ rollout ∈ rollouts, rollout.failure = none) ∧
      (rollouts.flatMap (·.attempts)).map (fun attempt => (attempt.migration, attempt.success)) =
        units.map (·, true) ∧
      after.executed = deployment.executed ++ units ∧
      once.executed = deployment.executed ++ single ∧
      units.Perm single ∧ (units.map (·.identity.key)).Nodup ∧
      units.filter (·.isVersioned) = single.filter (·.isVersioned) ∧
      after.store.HasRoom 0 ∧ once.store.HasRoom 0 ∧
      (reconcile catalog after.store.rows).map (Info.mapRow Row.undated) =
        (reconcile catalog once.store.rows).map (Info.mapRow Row.undated) := by
  have clear := clear_seeded.mp (clear_of_run_eq_ok consistent.checked ran)
  have single := carried_of_untargeted plain succeed untargeted consistent clear ran
  obtain ⟨first, more, split⟩ : ∃ first more, stagesUpTo targets last = first :: more := by
    cases targets <;> exact ⟨_, _, rfl⟩
  obtain ⟨rollouts, after, performed, carried⟩ := runStages_apply plain succeed first more
    consistent.checked (ready_onSeeded config first.clock consistent clear)
  -- The first stage finds the same units due as the single rollout, whenever each of them begins.
  have seeding := map_undated_onSeeded config first.clock clock deployment
  have due : dueUnits catalog (onSeeded config first.clock deployment).store.rows =
      dueUnits catalog (onSeeded config clock deployment).store.rows := by
    rw [← dueUnits_map Row.faithful_undated, seeding, dueUnits_map Row.faithful_undated]
  rw [due, ← split] at carried
  rw [← split] at performed
  have ordered := Migration.inOrder_pairwise
    (catalog.migrations.filter (·.isDue (onSeeded config clock deployment).store.rows))
  have perm : (inStages (stagesUpTo targets last)
      (dueUnits catalog (onSeeded config clock deployment).store.rows)).Perm _ :=
    inStages_perm rfl _ _
  have distinct := (perm.map (·.identity.key)).nodup_iff.mpr (nodup_keys_dueUnits catalog _)
  refine ⟨rollouts, after, _, _, performed, carried.unfailed, carried.attempts, carried.executed,
    single.executed, perm, distinct, filter_isVersioned_inStages rfl _ ordered,
    carried.hasRoom (hasRoom_seeded config first.clock room)
      (perm.length_eq.trans_le (length_dueUnits_le catalog _)),
    single.hasRoom (hasRoom_seeded config clock room) (length_dueUnits_le catalog _), ?_⟩
  rw [← reconcile_map Row.faithful_undated, ← reconcile_map Row.faithful_undated, carried.rows,
    single.rows, seeding]
  exact reconcile_undatedRows_perm plain _ perm distinct fun unit member =>
    (mem_dueUnits.mp (perm.mem_iff.mp member)).1

section Releases

private def createPosts : Migration := .ofProcedure (.versioned (.ofMajor 1) "create posts") {} none

private def createTags : Migration :=
  .ofProcedure (.versioned ⟨[1, 0], List.cons_ne_nil _ _⟩ "create tags") {} none

private def joinTags : Migration := .ofProcedure (.versioned (.ofMajor 2) "join tags") {} none

private def postViews : Migration := .ofProcedure (.repeatable "post views") {} none

def postCatalog : Catalog := ⟨[postViews, joinTags, createTags, createPosts], by decide⟩

theorem stages_agree_postCatalog :
    (MemoryLedger.empty defaultTable).HasRoom (postCatalog.size + 1) ∧
    ∃ rollout once rollouts after units single,
      run postCatalog (fun _ => .ok ()) {} (.still ⟨0, 0⟩) (.new defaultTable) =
        (.ok rollout, once) ∧
      runStages postCatalog (fun _ => .ok ()) {}
        (stagesUpTo [(.ofMajor 1, .still ⟨1, 0⟩)] (.still ⟨2, 0⟩)) (.new defaultTable) =
          (.ok rollouts, after) ∧
      units.map (·.description) = ["create tags", "create posts", "post views", "join tags"] ∧
      single.map (·.description) = ["create tags", "create posts", "join tags", "post views"] ∧
      after.executed = units ∧ once.executed = single ∧ units.Perm single ∧
      (reconcile postCatalog after.store.rows).map (Info.mapRow Row.undated) =
        (reconcile postCatalog once.store.rows).map (Info.mapRow Row.undated) := by
  have room : (MemoryLedger.empty defaultTable).HasRoom (postCatalog.size + 1) := by decide
  have outcome : (run postCatalog (fun _ => .ok ()) {} (.still ⟨0, 0⟩)
      (.new defaultTable)).1.isOk = true := by cbv
  have ranOnce : (run postCatalog (fun _ => .ok ()) {} (.still ⟨0, 0⟩)
      (.new defaultTable)).2.executed.map (·.description) =
        ["create tags", "create posts", "join tags", "post views"] := by cbv
  have ranStaged : (runStages postCatalog (fun _ => .ok ()) {}
      (stagesUpTo [(.ofMajor 1, .still ⟨1, 0⟩)] (.still ⟨2, 0⟩))
      (.new defaultTable)).2.executed.map (·.description) =
        ["create tags", "create posts", "post views", "join tags"] := by cbv
  rcases ran : run postCatalog (fun _ => .ok ()) {} (.still ⟨0, 0⟩) (.new defaultTable) with
    ⟨result, once⟩
  rw [ran] at outcome ranOnce
  cases result with
  | error error => cases outcome
  | ok rollout =>
    obtain ⟨rollouts, after, units, single, performed, _, _, executed, other, perm, _, _, _, _,
      infos⟩ :=
      stages_agree postCatalog (by decide) (fun _ => .ok ()) (fun _ _ => rfl) {} rfl
        (.still ⟨0, 0⟩) (MemoryLedger.consistent_empty defaultTable) room ran
        [(.ofMajor 1, .still ⟨1, 0⟩)] (.still ⟨2, 0⟩)
    rw [performed] at ranStaged
    have begins : (Deployment.new defaultTable).executed = [] := rfl
    rw [begins, List.nil_append] at executed other
    exact ⟨room, rollout, once, rollouts, after, units, single, rfl, performed,
      executed ▸ ranStaged, other ▸ ranOnce, executed, other, perm, infos⟩

end Releases

end Rollout

end SchemaLedger
