import Mathlib.Data.List.Nodup
import Mathlib.Logic.Function.Basic
import SchemaLedger.Engine.Import
import SchemaLedger.Proofs.Identity

/-!
# Stacks of rows

What becomes of foreign rows can be told with a stack of places for each identity: a row that is no
marker goes on top of the stack of its identity, and a successful marker takes the top off and gives
that row its fate. `RowStacks.Sound` says what the stacks hold and what has been voided after some
of the rows, and is kept by every row; so no row is voided twice or by a marker before it.
-/

namespace SchemaLedger

/-- A marker voids a row; both are told by their places. -/
structure Voiding where
  marker : Nat
  target : Nat
  /-- The fate of the row from then on. -/
  fate : Fate
  deriving DecidableEq

/-- What identities share that differ in the spelling of their versions only. -/
abbrev Identity.Key := Option (List UInt64) × String

/-- For the key of each identity the places of the rows that can still be voided, the latest on
top, and what has been voided, the latest first. -/
structure RowStacks where
  stack : Identity.Key → List Nat := fun _ => []
  voidings : List Voiding := []

namespace RowStacks

def push (state : RowStacks) (identity : Identity) (place : Nat) : RowStacks :=
  { state with
    stack := Function.update state.stack identity.key (place :: state.stack identity.key) }

/-- A marker takes the top off the stack of its identity, if there is one, and gives it a fate. -/
def pop (state : RowStacks) (identity : Identity) (marker : Nat) (fate : Fate) : RowStacks :=
  match state.stack identity.key with
  | [] => state
  | target :: below =>
      { stack := Function.update state.stack identity.key below
        voidings := ⟨marker, target, fate⟩ :: state.voidings }

theorem stack_push_self (state : RowStacks) (identity : Identity) (place : Nat) :
    (state.push identity place).stack identity.key = place :: state.stack identity.key :=
  Function.update_self ..

theorem stack_push_of_ne {key : Identity.Key} {identity : Identity}
    (differs : key ≠ identity.key) (state : RowStacks) (place : Nat) :
    (state.push identity place).stack key = state.stack key :=
  Function.update_of_ne differs ..

theorem pop_of_eq_nil {state : RowStacks} {identity : Identity}
    (empty : state.stack identity.key = []) (marker : Nat) (fate : Fate) :
    state.pop identity marker fate = state := by
  rw [pop, empty]

theorem pop_of_eq_cons {state : RowStacks} {identity : Identity} {target : Nat} {below : List Nat}
    (top : state.stack identity.key = target :: below) (marker : Nat) (fate : Fate) :
    state.pop identity marker fate =
      { stack := Function.update state.stack identity.key below
        voidings := ⟨marker, target, fate⟩ :: state.voidings } := by
  rw [pop, top]

/-- Takes in the row at a place. A marker that failed does nothing. -/
def step (state : RowStacks) (row : Row) (place : Nat) : RowStacks :=
  if row.isVisible then state.push row.identity place
  else if !row.success then state
  else if row.kind.isUndo then state.pop row.identity place .skippedUndone
  else state.pop row.identity place .skippedDeletedTarget

/-- Takes in rows at their places. -/
def takeAll (state : RowStacks) (rows : List (Row × Nat)) : RowStacks :=
  rows.foldl (fun state placed => state.step placed.1 placed.2) state

def of (rows : List Row) : RowStacks := ({} : RowStacks).takeAll rows.zipIdx

def fateAt? (state : RowStacks) (place : Nat) : Option Fate :=
  (state.voidings.find? (·.target == place)).map (·.fate)

/-- The fate of the row at a place: markers are dropped by their kind, a voided row has the fate
that its marker gave it, and any other row is copied by its kind. -/
def fate (state : RowStacks) (row : Row) (place : Nat) : Fate :=
  match row.kind with
  | .undoScript | .undoCode => .skippedUndo
  | .deleted => .skippedDeleted
  | .script => (state.fateAt? place).getD .copiedScript
  | .code => (state.fateAt? place).getD .copiedCode
  | .scriptBaseline | .codeBaseline | .baseline => (state.fateAt? place).getD .copiedBaseline

/-- The fates of rows by their stacks. -/
def fates (rows : List Row) : List Fate :=
  rows.zipIdx.map fun placed => (of rows).fate placed.1 placed.2

end RowStacks

/-- A marker voids the row. -/
def Fate.isVoided : Fate → Bool
  | skippedUndone | skippedDeletedTarget => true
  | _ => false

/-- A successful marker voids an earlier row of its identity that is no marker, and the fate of that
row tells an undo from a deletion. -/
structure Voiding.Lawful (rows : List Row) (voiding : Voiding) : Prop where
  earlier : voiding.target < voiding.marker
  between : ∃ target marker, rows[voiding.target]? = some target ∧
    rows[voiding.marker]? = some marker ∧ target.isVisible = true ∧ marker.isVisible = false ∧
    marker.success = true ∧ (target.identity == marker.identity) = true ∧
    voiding.fate = if marker.kind.isUndo then .skippedUndone else .skippedDeletedTarget

theorem Voiding.Lawful.isVoided {rows : List Row} {voiding : Voiding}
    (lawful : voiding.Lawful rows) : voiding.fate.isVoided = true := by
  obtain ⟨_, _, _, _, _, _, _, _, fate⟩ := lawful.between
  rw [fate]
  split <;> rfl

namespace RowStacks

/-- What is on the stacks and what has been voided, after some number of the rows. -/
structure Sound (rows : List Row) (count : Nat) (state : RowStacks) : Prop where
  standing : ∀ key, ∀ place ∈ state.stack key, place < count ∧
    ∃ row, rows[place]? = some row ∧ row.isVisible = true ∧ row.identity.key = key
  distinct : ∀ key, (state.stack key).Nodup
  gone : ∀ voiding ∈ state.voidings, ∀ key, voiding.target ∉ state.stack key
  lawful : ∀ voiding ∈ state.voidings, voiding.marker < count ∧ voiding.Lawful rows
  targets : (state.voidings.map (·.target)).Nodup
  markers : (state.voidings.map (·.marker)).Nodup

namespace Sound

variable {rows : List Row} {count : Nat} {state : RowStacks} {row : Row}

theorem empty (rows : List Row) : Sound rows 0 {} where
  standing _ _ member := absurd member List.not_mem_nil
  distinct _ := .nil
  gone _ member := absurd member List.not_mem_nil
  lawful _ member := absurd member List.not_mem_nil
  targets := .nil
  markers := .nil

theorem skip (sound : Sound rows count state) : Sound rows (count + 1) state :=
  { sound with
    standing := fun key place member =>
      ⟨Nat.lt_succ_of_lt (sound.standing key place member).1, (sound.standing key place member).2⟩
    lawful := fun voiding member =>
      ⟨Nat.lt_succ_of_lt (sound.lawful voiding member).1, (sound.lawful voiding member).2⟩ }

theorem push (sound : Sound rows count state) (here : rows[count]? = some row)
    (visible : row.isVisible = true) :
    Sound rows (count + 1) (state.push row.identity count) := by
  have fresh (key : Identity.Key) : count ∉ state.stack key := by
    intro member
    have below := (sound.standing key count member).1
    omega
  have pushed (key : Identity.Key) :
      (state.push row.identity count).stack key = state.stack key ∨
        key = row.identity.key ∧
          (state.push row.identity count).stack key = count :: state.stack key := by
    by_cases same : key = row.identity.key
    · exact .inr ⟨same, by rw [same, stack_push_self]⟩
    · exact .inl (stack_push_of_ne same _ _)
  refine
    { standing := ?standing
      distinct := ?distinct
      gone := ?gone
      lawful := sound.skip.lawful
      targets := sound.targets
      markers := sound.markers }
  case standing =>
    intro key place member
    rcases pushed key with same | ⟨key, more⟩
    · rw [same] at member
      exact sound.skip.standing key place member
    · rw [more] at member
      rcases List.mem_cons.mp member with rfl | before
      · exact ⟨Nat.lt_succ_self _, row, here, visible, key.symm⟩
      · exact sound.skip.standing _ place before
  case distinct =>
    intro key
    rcases pushed key with same | ⟨_, more⟩
    · rw [same]
      exact sound.distinct key
    · rw [more]
      exact List.nodup_cons.mpr ⟨fresh key, sound.distinct key⟩
  case gone =>
    intro voiding member key
    rcases pushed key with same | ⟨_, more⟩
    · rw [same]
      exact sound.gone voiding member key
    · rw [more, List.mem_cons, not_or]
      have bounds := sound.lawful voiding member
      have earlier := bounds.2.earlier
      exact ⟨by omega, sound.gone voiding member key⟩

theorem pop (sound : Sound rows count state) (here : rows[count]? = some row)
    (hidden : row.isVisible = false) (success : row.success = true) {fate : Fate}
    (tells : fate = if row.kind.isUndo then .skippedUndone else .skippedDeletedTarget) :
    Sound rows (count + 1) (state.pop row.identity count fate) := by
  cases top : state.stack row.identity.key with
  | nil =>
    rw [pop_of_eq_nil top]
    exact sound.skip
  | cons target below =>
    rw [pop_of_eq_cons top]
    have listed : target ∈ state.stack row.identity.key := by
      rw [top]
      exact List.mem_cons_self
    obtain ⟨absent, distinct⟩ := List.nodup_cons.mp (top ▸ sound.distinct row.identity.key)
    obtain ⟨before, voided, there, visible, key⟩ := sound.standing _ target listed
    -- A place is on one stack only, so the target is gone from all.
    have kept {place : Nat} {other : Identity.Key}
        (member : place ∈ Function.update state.stack row.identity.key below other) :
        place ∈ state.stack other ∧ place ≠ target := by
      by_cases same : other = row.identity.key
      · rw [same, Function.update_self] at member
        rw [same, top]
        exact ⟨List.mem_cons_of_mem _ member, fun equal => absent (equal ▸ member)⟩
      · rw [Function.update_of_ne same] at member
        refine ⟨member, ?_⟩
        rintro rfl
        obtain ⟨_, another, again, _, elsewhere⟩ := sound.standing other _ member
        cases there.symm.trans again
        exact same (elsewhere.symm.trans key)
    refine
      { standing := fun other place member => sound.skip.standing other place (kept member).1
        distinct := ?distinct
        gone := ?gone
        lawful := ?lawful
        targets := ?targets
        markers := ?markers }
    case distinct =>
      intro other
      by_cases same : other = row.identity.key
      · rw [same]
        simpa only [Function.update_self] using distinct
      · simpa only [Function.update_of_ne same] using sound.distinct other
    case gone =>
      intro voiding member other present
      obtain ⟨stood, differs⟩ := kept present
      rcases List.mem_cons.mp member with rfl | older
      · exact differs rfl
      · exact sound.gone voiding older other stood
    case lawful =>
      intro voiding member
      rcases List.mem_cons.mp member with rfl | older
      · exact ⟨Nat.lt_succ_self _, before, voided, row, there, here, visible, hidden, success,
          Identity.beq_iff_key_eq.mpr key, tells⟩
      · exact sound.skip.lawful voiding older
    case targets =>
      refine List.nodup_cons.mpr ⟨fun again => ?_, sound.targets⟩
      obtain ⟨voiding, older, same⟩ := List.mem_map.mp again
      exact sound.gone voiding older row.identity.key (same ▸ listed)
    case markers =>
      refine List.nodup_cons.mpr ⟨fun again => ?_, sound.markers⟩
      obtain ⟨voiding, older, same⟩ := List.mem_map.mp again
      exact absurd same (Nat.ne_of_lt (sound.lawful voiding older).1)

theorem step (sound : Sound rows count state) (here : rows[count]? = some row) :
    Sound rows (count + 1) (state.step row count) := by
  rw [RowStacks.step]
  cases visible : row.isVisible with
  | true => exact sound.push here visible
  | false =>
    cases success : row.success with
    | false => exact sound.skip
    | true =>
      cases undo : row.kind.isUndo with
      | true => exact sound.pop here visible success (by rw [undo]; rfl)
      | false => exact sound.pop here visible success (by rw [undo]; rfl)

theorem takeAll {taken rest : List Row} (sound : Sound (taken ++ rest) taken.length state) :
    Sound (taken ++ rest) (taken ++ rest).length
      (state.takeAll (rest.zipIdx taken.length)) := by
  induction rest generalizing taken state with
  | nil =>
    rw [List.append_nil] at sound ⊢
    exact sound
  | cons row rest ih =>
    have here : (taken ++ row :: rest)[taken.length]? = some row := by simp
    have next := sound.step here
    rw [List.append_cons] at next ⊢
    have count : taken.length + 1 = (taken ++ [row]).length := by simp
    rw [count] at next
    have later := ih next
    rwa [← count] at later

theorem of (rows : List Row) : Sound rows rows.length (RowStacks.of rows) := by
  have start : Sound ([] ++ rows) ([] : List Row).length {} := empty rows
  exact start.takeAll

/-- A marker gave a fate to the row at a place exactly if that is among what was voided. -/
theorem fateAt?_eq_some_iff (sound : Sound rows count state) {place : Nat} {fate : Fate} :
    state.fateAt? place = some fate ↔
      ∃ voiding ∈ state.voidings, voiding.target = place ∧ voiding.fate = fate := by
  rw [fateAt?, Option.map_eq_some_iff]
  constructor
  · rintro ⟨voiding, found, fate⟩
    exact ⟨voiding, List.mem_of_find?_eq_some found, by simpa using List.find?_some found, fate⟩
  · rintro ⟨voiding, member, target, fate⟩
    cases found : state.voidings.find? (·.target == place) with
    | none => simpa [target] using List.find?_eq_none.mp found voiding member
    | some other =>
      have same : other.target = place := by simpa using List.find?_some found
      have equal := List.inj_on_of_nodup_map sound.targets (List.mem_of_find?_eq_some found) member
        (same.trans target.symm)
      exact ⟨other, rfl, equal ▸ fate⟩

end Sound

variable {state : RowStacks} {row : Row} {rows : List Row} {place : Nat} {fate : Fate}

/-- A voided row is no marker, and a marker gave it its fate. -/
theorem fate_eq_iff (voided : fate.isVoided = true) :
    state.fate row place = fate ↔
      row.isVisible = true ∧ state.fateAt? place = some fate := by
  have differs {other : Fate} (untouched : other.isVoided = false) : other ≠ fate :=
    fun same => by simp [same, voided] at untouched
  have copied {other : Fate} (untouched : other.isVoided = false) :
      (state.fateAt? place).getD other = fate ↔ state.fateAt? place = some fate := by
    cases state.fateAt? place with
    | some given => simp
    | none => simp [differs untouched]
  rw [RowStacks.fate, Entry.isVisible]
  cases row.kind with
  | undoScript | undoCode | deleted => simpa [Kind.isMarker, Kind.isUndo] using differs rfl
  | script | code | scriptBaseline | codeBaseline | baseline =>
    simpa [Kind.isMarker, Kind.isUndo] using copied rfl

theorem getElem?_fates (rows : List Row) (place : Nat) :
    (fates rows)[place]? = rows[place]?.map fun row => (of rows).fate row place := by
  simp [fates, Function.comp_def]

theorem isVoided_iff : (fates rows)[place]? = some fate ∧ fate.isVoided = true ↔
    ∃ voiding ∈ (of rows).voidings, voiding.target = place ∧ voiding.fate = fate := by
  have sound := Sound.of rows
  rw [← sound.fateAt?_eq_some_iff, getElem?_fates]
  constructor
  · rintro ⟨listed, voided⟩
    obtain ⟨row, _, same⟩ := Option.map_eq_some_iff.mp listed
    exact ((fate_eq_iff voided).mp same).2
  · intro given
    obtain ⟨voiding, member, rfl, rfl⟩ := sound.fateAt?_eq_some_iff.mp given
    have lawful := (sound.lawful voiding member).2
    obtain ⟨row, _, there, _, visible, _⟩ := lawful.between
    refine ⟨?_, lawful.isVoided⟩
    rw [there, Option.map_some, (fate_eq_iff lawful.isVoided).mpr ⟨visible, given⟩]

end RowStacks

end SchemaLedger
