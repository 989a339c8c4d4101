import Mathlib
import SchemaLedger.Proofs.Engine.Import
import SchemaLedger.Proofs.Engine.RowStacks

/-!
# What markers void

An import looks back from each marker for the row to void. What it finds is what the stacks of
places have on top: `RowStacks.Tracks` ties the two together row by row. So all rows come to the
fates that the stacks give them. And as a marker looks at rows of its own identity only, the rows of
an identity come to the fates that they would come to by themselves.
-/

namespace SchemaLedger

section Looking

variable {identity other : Identity} {latestFirst : List ForeignRow} {place : Nat}

namespace ForeignRow

/-- The places of the rows that a marker of an identity can void, the latest first. -/
def openPlaces (identity : Identity) : List ForeignRow → List Nat
  | [] => []
  | foreign :: earlier =>
      if foreign.isOpenTo identity then earlier.length :: openPlaces identity earlier
      else openPlaces identity earlier

def voidedAt? (place : Nat) : List ForeignRow → Option Fate
  | [] => none
  | foreign :: earlier => if place = earlier.length then foreign.voided else voidedAt? place earlier

theorem isOpenTo_iff {foreign : ForeignRow} : foreign.isOpenTo identity = true ↔
    foreign.row.isVisible = true ∧ foreign.voided = none ∧
      foreign.row.identity.key = identity.key := by
  simp [isOpenTo, Identity.beq_iff_key_eq, and_assoc]

theorem isOpenTo_congr (same : other.key = identity.key) (foreign : ForeignRow) :
    foreign.isOpenTo other = foreign.isOpenTo identity := by
  rw [Bool.eq_iff_iff, isOpenTo_iff, isOpenTo_iff, same]

theorem openPlaces_congr (same : other.key = identity.key) (latestFirst : List ForeignRow) :
    openPlaces other latestFirst = openPlaces identity latestFirst := by
  induction latestFirst with
  | nil => rfl
  | cons foreign earlier ih => rw [openPlaces, openPlaces, isOpenTo_congr same, ih]

theorem lt_of_mem_openPlaces (member : place ∈ openPlaces identity latestFirst) :
    place < latestFirst.length := by
  induction latestFirst with
  | nil => cases member
  | cons foreign earlier ih =>
    rw [openPlaces] at member
    rw [List.length_cons]
    split at member
    · rcases List.mem_cons.mp member with rfl | before
      · omega
      · have below := ih before
        omega
    · have below := ih member
      omega

/-- A row that cannot be voided adds no place. -/
theorem openPlaces_cons_of_hidden {row : Row} (hidden : row.isVisible = false) :
    openPlaces identity ({ row } :: latestFirst) = openPlaces identity latestFirst := by
  have closed : isOpenTo identity { row } = false := by
    rw [← Bool.not_eq_true, isOpenTo_iff]
    simp [hidden]
  rw [openPlaces, closed]
  rfl

/-- Voiding a row of an identity takes the top off its places. -/
theorem openPlaces_voidFirst_self (fate : Fate) :
    openPlaces identity (voidFirst identity fate latestFirst) =
      (openPlaces identity latestFirst).tail := by
  induction latestFirst with
  | nil => rfl
  | cons foreign earlier ih =>
    rw [voidFirst, openPlaces]
    split
    · have closed : isOpenTo identity { foreign with voided := some fate } = false := by
        rw [← Bool.not_eq_true, isOpenTo_iff]
        simp
      rw [openPlaces, closed, List.tail_cons]
      rfl
    · rename_i closed
      rw [openPlaces, if_neg closed, ih]

theorem openPlaces_voidFirst_of_ne (differs : other.key ≠ identity.key) (fate : Fate) :
    openPlaces other (voidFirst identity fate latestFirst) = openPlaces other latestFirst := by
  induction latestFirst with
  | nil => rfl
  | cons foreign earlier ih =>
    rw [voidFirst]
    split
    · rename_i opened
      have key := (isOpenTo_iff.mp opened).2.2
      have foreignTo (voided : Option Fate) :
          isOpenTo other { foreign with voided := voided } = false := by
        rw [← Bool.not_eq_true, isOpenTo_iff]
        rintro ⟨_, _, same⟩
        exact differs (same.symm.trans key)
      rw [openPlaces, openPlaces, foreignTo, show foreign.isOpenTo other = false from foreignTo _]
    · rw [openPlaces, openPlaces, length_voidFirst, ih]

theorem voidedAt?_of_le (beyond : latestFirst.length ≤ place) :
    voidedAt? place latestFirst = none := by
  induction latestFirst with
  | nil => rfl
  | cons foreign earlier ih =>
    rw [List.length_cons] at beyond
    rw [voidedAt?, if_neg (by omega), ih (by omega)]

/-- A row that has just been taken in is not void. -/
theorem voidedAt?_cons_fresh (row : Row) :
    voidedAt? place ({ row } :: latestFirst) = voidedAt? place latestFirst := by
  rw [voidedAt?]
  split
  · rename_i here
    rw [voidedAt?_of_le (by omega)]
  · rfl

/-- Only the row on top of the places of the identity gets another fate. -/
theorem voidedAt?_voidFirst (fate : Fate) :
    voidedAt? place (voidFirst identity fate latestFirst) =
      if (openPlaces identity latestFirst).head? = some place then some fate
      else voidedAt? place latestFirst := by
  induction latestFirst with
  | nil => rfl
  | cons foreign earlier ih =>
    rw [voidFirst, openPlaces]
    split
    · rw [voidedAt?, voidedAt?, List.head?_cons]
      by_cases here : place = earlier.length
      · simp [here]
      · simp [here, Ne.symm here]
    · rw [voidedAt?, voidedAt?, length_voidFirst, ih]
      by_cases here : place = earlier.length
      · -- The row behind is not among the places of the rows before it.
        have absent : (openPlaces identity earlier).head? ≠ some place := by
          intro top
          have below := lt_of_mem_openPlaces (List.mem_of_head? top)
          omega
        rw [if_pos here, if_pos here, if_neg absent]
      · rw [if_neg here, if_neg here]

/-- Rows come to fates by what was made of them at their places. -/
theorem map_fate_reverse (latestFirst : List ForeignRow) :
    latestFirst.reverse.map ForeignRow.fate =
      (latestFirst.reverse.map (·.row)).zipIdx.map fun placed =>
        ForeignRow.fate ⟨placed.1, voidedAt? placed.2 latestFirst⟩ := by
  induction latestFirst with
  | nil => rfl
  | cons foreign earlier ih =>
    rw [List.reverse_cons, List.map_append, List.map_append, List.zipIdx_append, List.map_append,
      ih]
    congr 1
    · refine List.map_congr_left fun placed member => ?_
      have below := List.snd_lt_of_mem_zipIdx member
      rw [List.length_map, List.length_reverse] at below
      rw [voidedAt?, if_neg (by omega)]
    · simp [voidedAt?]

end ForeignRow

end Looking

namespace RowStacks

/-- The stacks hold what an import would look for, and the fates that it has given. -/
structure Tracks (state : RowStacks) (latestFirst : List ForeignRow) : Prop where
  stack : ∀ identity : Identity,
    state.stack identity.key = ForeignRow.openPlaces identity latestFirst
  fateAt : ∀ place, state.fateAt? place = ForeignRow.voidedAt? place latestFirst

namespace Tracks

variable {state : RowStacks} {latestFirst : List ForeignRow} {row : Row}

theorem nil : Tracks {} [] := ⟨fun _ => rfl, fun _ => rfl⟩

theorem skip (tracks : state.Tracks latestFirst) (hidden : row.isVisible = false) :
    state.Tracks ({ row } :: latestFirst) := by
  refine ⟨fun identity => ?_, fun place => ?_⟩
  · rw [ForeignRow.openPlaces_cons_of_hidden hidden, tracks.stack]
  · rw [ForeignRow.voidedAt?_cons_fresh, tracks.fateAt]

theorem push (tracks : state.Tracks latestFirst) (visible : row.isVisible = true) :
    (state.push row.identity latestFirst.length).Tracks ({ row } :: latestFirst) := by
  refine ⟨fun identity => ?_, fun place => ?_⟩
  · rw [ForeignRow.openPlaces]
    by_cases same : identity.key = row.identity.key
    · have opened : ForeignRow.isOpenTo identity { row } = true :=
        ForeignRow.isOpenTo_iff.mpr ⟨visible, rfl, same.symm⟩
      rw [if_pos opened, same, stack_push_self, tracks.stack, ForeignRow.openPlaces_congr same.symm]
    · have closed : ¬ ForeignRow.isOpenTo identity { row } = true := by
        rw [ForeignRow.isOpenTo_iff]
        rintro ⟨_, _, key⟩
        exact same key.symm
      rw [if_neg closed, stack_push_of_ne same, tracks.stack]
  · rw [ForeignRow.voidedAt?_cons_fresh]
    exact tracks.fateAt place

theorem pop (tracks : state.Tracks latestFirst) (hidden : row.isVisible = false) (marker : Nat)
    (fate : Fate) : (state.pop row.identity marker fate).Tracks
      ({ row } :: ForeignRow.voidFirst row.identity fate latestFirst) := by
  refine skip ?_ hidden
  have places := tracks.stack row.identity
  cases top : state.stack row.identity.key with
  | nil =>
    rw [top] at places
    rw [pop_of_eq_nil top]
    refine ⟨fun identity => ?_, fun place => ?_⟩
    · by_cases same : identity.key = row.identity.key
      · rw [same, top, ForeignRow.openPlaces_congr same, ForeignRow.openPlaces_voidFirst_self,
          ← places]
        rfl
      · rw [ForeignRow.openPlaces_voidFirst_of_ne same, tracks.stack]
    · rw [ForeignRow.voidedAt?_voidFirst, ← places, tracks.fateAt]
      rfl
  | cons target below =>
    rw [top] at places
    rw [pop_of_eq_cons top]
    refine ⟨fun identity => ?_, fun place => ?_⟩
    · by_cases same : identity.key = row.identity.key
      · rw [ForeignRow.openPlaces_congr same, ForeignRow.openPlaces_voidFirst_self, ← places, same]
        exact Function.update_self ..
      · rw [ForeignRow.openPlaces_voidFirst_of_ne same, ← tracks.stack]
        exact Function.update_of_ne same ..
    · rw [ForeignRow.voidedAt?_voidFirst, ← places, List.head?_cons, ← tracks.fateAt]
      simp only [fateAt?, List.find?_cons]
      by_cases here : target = place
      · simp [here]
      · simp [here, beq_eq_false_iff_ne.mpr here]

/-- The stacks keep track of one more row. -/
theorem step (tracks : state.Tracks latestFirst) (row : Row) :
    (state.step row latestFirst.length).Tracks (ForeignRow.pass latestFirst row) := by
  rw [RowStacks.step, ForeignRow.pass, Fate.ofVoided?]
  cases visible : row.isVisible with
  | true =>
    rw [Bool.or_true]
    exact tracks.push visible
  | false =>
    cases row.success with
    | false => exact tracks.skip visible
    | true =>
      cases row.kind.isUndo with
      | true => exact tracks.pop visible _ _
      | false => exact tracks.pop visible _ _

theorem takeAll (tracks : state.Tracks latestFirst) (rows : List Row) :
    (state.takeAll (rows.zipIdx latestFirst.length)).Tracks
      (rows.foldl ForeignRow.pass latestFirst) := by
  induction rows generalizing state latestFirst with
  | nil => exact tracks
  | cons row rest ih =>
    have later := ih (tracks.step row)
    rwa [length_pass] at later

theorem of (rows : List Row) : (RowStacks.of rows).Tracks (rows.foldl ForeignRow.pass []) :=
  nil.takeAll rows

end Tracks

variable {state : RowStacks}

/-- A row has the fate that an import gives it. -/
theorem fate_eq (row : Row) (place : Nat) :
    state.fate row place = ForeignRow.fate ⟨row, state.fateAt? place⟩ := by
  simp only [RowStacks.fate, ForeignRow.fate, Fate.ofCopied]
  cases row.kind <;> rfl

theorem fates_eq (rows : List Row) : SchemaLedger.fates rows = fates rows := by
  have tracks := Tracks.of rows
  rw [SchemaLedger.fates, ForeignRow.map_fate_reverse, ForeignRow.map_row_reverse_foldl_pass, fates]
  refine List.map_congr_left fun placed _ => ?_
  rw [fate_eq, tracks.fateAt]

end RowStacks

section Own

variable {identity : Identity} {latestFirst : List ForeignRow}

namespace ForeignRow

def isOf (identity : Identity) (foreign : ForeignRow) : Bool := foreign.row.identity == identity

theorem isOf_iff {foreign : ForeignRow} :
    foreign.isOf identity = true ↔ foreign.row.identity.key = identity.key :=
  Identity.beq_iff_key_eq

/-- Voiding a row of an identity finds it among the rows of that identity. -/
theorem filter_voidFirst_self {other : Identity} (same : other.key = identity.key) (fate : Fate) :
    (voidFirst other fate latestFirst).filter (isOf identity) =
      voidFirst other fate (latestFirst.filter (isOf identity)) := by
  induction latestFirst with
  | nil => rfl
  | cons foreign earlier ih =>
    rw [voidFirst]
    split
    · rename_i opened
      have own (voided : Option Fate) :
          isOf identity { foreign with voided := voided } = true :=
        isOf_iff.mpr ((isOpenTo_iff.mp opened).2.2.trans same)
      rw [List.filter_cons_of_pos (own _), List.filter_cons_of_pos (own foreign.voided), voidFirst,
        if_pos opened]
    · rename_i closed
      by_cases own : foreign.isOf identity = true
      · rw [List.filter_cons_of_pos own, List.filter_cons_of_pos own, voidFirst, if_neg closed, ih]
      · rw [List.filter_cons_of_neg own, List.filter_cons_of_neg own, ih]

theorem filter_voidFirst_of_ne {other : Identity} (differs : other.key ≠ identity.key)
    (fate : Fate) :
    (voidFirst other fate latestFirst).filter (isOf identity) =
      latestFirst.filter (isOf identity) := by
  induction latestFirst with
  | nil => rfl
  | cons foreign earlier ih =>
    rw [voidFirst]
    split
    · rename_i opened
      have foreignTo (voided : Option Fate) :
          ¬ isOf identity { foreign with voided := voided } = true :=
        fun own => differs ((isOpenTo_iff.mp opened).2.2.symm.trans (isOf_iff.mp own))
      rw [List.filter_cons_of_neg (foreignTo _), List.filter_cons_of_neg (foreignTo foreign.voided)]
    · simp only [List.filter_cons, ih]

theorem filter_pass (row : Row) :
    (pass latestFirst row).filter (isOf identity) =
      if row.identity == identity then pass (latestFirst.filter (isOf identity)) row
      else latestFirst.filter (isOf identity) := by
  by_cases same : row.identity.key = identity.key
  · have own : isOf identity { row } = true := isOf_iff.mpr same
    rw [if_pos (Identity.beq_iff_key_eq.mpr same), pass, pass]
    split
    · rw [List.filter_cons_of_pos own, filter_voidFirst_self same]
    · rw [List.filter_cons_of_pos own]
  · have foreignTo : ¬ isOf identity { row } = true := fun own => same (isOf_iff.mp own)
    rw [if_neg (fun equal => same (Identity.beq_iff_key_eq.mp equal)), pass]
    split
    · rw [List.filter_cons_of_neg foreignTo, filter_voidFirst_of_ne same]
    · rw [List.filter_cons_of_neg foreignTo]

/-- Taking in all rows does to the rows of an identity what taking in these alone does. -/
theorem filter_foldl_pass (rows : List Row) :
    (rows.foldl pass latestFirst).filter (isOf identity) =
      (rows.filter (·.identity == identity)).foldl pass (latestFirst.filter (isOf identity)) := by
  induction rows generalizing latestFirst with
  | nil => rfl
  | cons row rest ih =>
    rw [List.foldl_cons, ih, filter_pass, List.filter_cons]
    split <;> rfl

end ForeignRow

/-- The rows of an identity come to the fates that they would come to by themselves. -/
theorem filter_zip_fates (rows : List Row) (identity : Identity) :
    (rows.zip (fates rows)).filter (fun action => action.1.identity == identity) =
      (rows.filter (·.identity == identity)).zip
        (fates (rows.filter (·.identity == identity))) := by
  have own : (rows.foldl ForeignRow.pass []).filter (ForeignRow.isOf identity) =
      (rows.filter (·.identity == identity)).foldl ForeignRow.pass [] :=
    ForeignRow.filter_foldl_pass rows
  rw [zip_fates, zip_fates, ← own, List.filter_map, ← List.filter_reverse]
  rfl

end Own

/-- The fates of foreign rows are those that a stack of places for each identity gives them. So
every voided row has one marker that voided it, which comes later, is of the same identity and voids
no other row; and the rows of an identity come to the same fates without all other rows. -/
theorem fates_stack_discipline (rows : List Row) :
    fates rows = RowStacks.fates rows ∧
      (fates rows).length = rows.length ∧
      (∀ place fate, (fates rows)[place]? = some fate ∧ fate.isVoided = true ↔
        ∃ voiding ∈ (RowStacks.of rows).voidings,
          voiding.target = place ∧ voiding.fate = fate) ∧
      ((RowStacks.of rows).voidings.map (·.target)).Nodup ∧
      ((RowStacks.of rows).voidings.map (·.marker)).Nodup ∧
      (∀ voiding ∈ (RowStacks.of rows).voidings, voiding.Lawful rows) ∧
      ∀ identity, (rows.zip (fates rows)).filter (fun action => action.1.identity == identity) =
        (rows.filter (·.identity == identity)).zip
          (fates (rows.filter (·.identity == identity))) := by
  have sound := RowStacks.Sound.of rows
  refine ⟨RowStacks.fates_eq rows, length_fates rows, fun place fate => ?_, sound.targets,
    sound.markers, fun voiding member => (sound.lawful voiding member).2, filter_zip_fates rows⟩
  rw [RowStacks.fates_eq]
  exact RowStacks.isVoided_iff

private def tabled (kind : Kind) (version : Version) (success : Bool) (rank : Int) : Row :=
  Entry.atRank
    { Entry.ofExecution (.ofProcedure (.versioned version "tables") {} none) "admin" (.still ⟨0, 0⟩)
        success with
      kind } rank

/-- Markers close the latest open row first, and a failed one closes none. -/
example :
    fates
      [ tabled .script (.ofMajor 1) true 1, tabled .code (.ofMajor 1) false 2,
        tabled .script (.ofMajor 2) true 3, tabled .deleted (.ofMajor 2) false 4,
        tabled .undoScript ⟨[1, 0], List.cons_ne_nil _ _⟩ true 5,
        tabled .deleted (.ofMajor 1) true 6 ] =
      [.skippedDeletedTarget, .skippedUndone, .copiedScript, .skippedDeleted, .skippedUndo,
        .skippedDeleted] := by
  cbv

end SchemaLedger
