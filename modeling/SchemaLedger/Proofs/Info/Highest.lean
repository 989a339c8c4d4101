import SchemaLedger.Info.Reconciliation
import SchemaLedger.Proofs.Version.Order

/-!
# Highest versions of a history

The highest applied version and the baseline floor are the highest versions of the rows that satisfy
a condition. They are versions of such rows, and no such row has a higher one.
-/

namespace SchemaLedger

section Greatest

variable {α : Type} {le : α → α → Bool} {elements : List α} {greatest element : α}

theorem lastGreatest?_eq_none_iff : lastGreatest? le elements = none ↔ elements = [] := by
  cases elements with
  | nil => simp [lastGreatest?]
  | cons head rest =>
    simp only [lastGreatest?, reduceCtorEq, iff_false]
    split
    · simp
    · split <;> simp

/-- A greatest element is one of the elements. -/
theorem mem_of_lastGreatest?_eq_some (found : lastGreatest? le elements = some greatest) :
    greatest ∈ elements := by
  induction elements generalizing greatest with
  | nil => cases found
  | cons head rest ih =>
    simp only [lastGreatest?] at found
    split at found
    · cases found
      exact List.mem_cons_self
    · rename_i other reached
      split at found
      · cases found
        exact List.mem_cons_of_mem _ (ih reached)
      · cases found
        exact List.mem_cons_self

/-- Where there are elements, one of them is a last greatest one. -/
theorem exists_lastGreatest? (member : element ∈ elements) :
    ∃ greatest, lastGreatest? le elements = some greatest := by
  cases found : lastGreatest? le elements with
  | some greatest => exact ⟨greatest, rfl⟩
  | none =>
    rw [lastGreatest?_eq_none_iff.mp found] at member
    cases member

/-- Nothing is above a greatest element. -/
theorem le_of_lastGreatest?_eq_some (trans : ∀ a b c, le a b = true → le b c = true → le a c = true)
    (total : ∀ a b, (le a b || le b a) = true) (found : lastGreatest? le elements = some greatest)
    (member : element ∈ elements) : le element greatest = true := by
  have refl (a : α) : le a a = true := by simpa using total a a
  induction elements generalizing greatest with
  | nil => cases member
  | cons head rest ih =>
    simp only [lastGreatest?] at found
    split at found
    · rename_i empty
      cases found
      rw [lastGreatest?_eq_none_iff.mp empty, List.mem_singleton] at member
      rw [member, refl]
    · rename_i other reached
      split at found
      · rename_i below
        cases found
        rcases List.mem_cons.mp member with rfl | later
        · exact below
        · exact ih reached later
      · rename_i above
        cases found
        rcases List.mem_cons.mp member with rfl | later
        · exact refl _
        · have lower : le other head = true := by simpa [above] using total head other
          exact trans _ _ _ (ih reached later) lower

theorem lastGreatest?_eq_getLast? (ascending : elements.Pairwise fun a b => le a b = true) :
    lastGreatest? le elements = elements.getLast? := by
  induction elements with
  | nil => rfl
  | cons head rest ih =>
    obtain ⟨below, others⟩ := List.pairwise_cons.mp ascending
    rw [lastGreatest?, ih others, List.getLast?_cons]
    cases reached : rest.getLast? with
    | none => rfl
    | some last =>
      have lower := below last (List.mem_of_getLast? reached)
      simp only [lower, if_true, Option.getD_some]

/-- An element that nothing before it is above is the last greatest one. -/
theorem lastGreatest?_concat (lower : ∀ element ∈ elements, le element greatest = true) :
    lastGreatest? le (elements ++ [greatest]) = some greatest := by
  induction elements with
  | nil => rfl
  | cons head rest ih =>
    obtain ⟨here, others⟩ := List.forall_mem_cons.mp lower
    rw [List.cons_append, lastGreatest?, ih others]
    simp only [here, if_true]

end Greatest

namespace Version

variable {versions : List Version} {highest version : Version}

theorem mem_of_highest?_eq_some (found : highest? versions = some highest) : highest ∈ versions :=
  mem_of_lastGreatest?_eq_some found

theorem le_of_highest?_eq_some (found : highest? versions = some highest)
    (member : version ∈ versions) : version ≤ highest := by
  have trans (first second third : Version) (lower : decide (first ≤ second) = true)
      (upper : decide (second ≤ third) = true) : decide (first ≤ third) = true := by
    simp only [decide_eq_true_eq] at lower upper ⊢
    exact Std.le_trans lower upper
  have total (first second : Version) :
      (decide (first ≤ second) || decide (second ≤ first)) = true := by
    simpa using Std.le_total
  simpa using le_of_lastGreatest?_eq_some trans total found member

theorem exists_highest? (member : version ∈ versions) :
    ∃ highest, highest? versions = some highest :=
  exists_lastGreatest? member

/-- Lists of versions that reach equally far have equal highest versions. -/
theorem highest?_beq {first second : List Version}
    (below : ∀ version ∈ first, ∃ other ∈ second, version ≤ other)
    (above : ∀ version ∈ second, ∃ other ∈ first, version ≤ other) :
    (highest? first == highest? second) = true := by
  cases found : highest? first with
  | none =>
    cases reached : highest? second with
    | none => rfl
    | some highest =>
      obtain ⟨other, member, _⟩ := above highest (mem_of_highest?_eq_some reached)
      obtain ⟨another, present⟩ := exists_highest? member
      simp [found] at present
  | some highest =>
    obtain ⟨other, member, lower⟩ := below highest (mem_of_highest?_eq_some found)
    obtain ⟨top, reached⟩ := exists_highest? member
    obtain ⟨another, present, upper⟩ := above top (mem_of_highest?_eq_some reached)
    rw [reached, Option.some_beq_some]
    exact Std.beq_iff_le_and_ge.mpr
      ⟨Std.le_trans lower (le_of_highest?_eq_some reached member),
        Std.le_trans upper (le_of_highest?_eq_some found present)⟩

theorem highest?_eq_getLast? (ascending : versions.Pairwise (· ≤ ·)) :
    highest? versions = versions.getLast? :=
  lastGreatest?_eq_getLast? (ascending.imp fun lower => decide_eq_true lower)

end Version

section Rows

variable {condition : Row → Bool} {rows : List Row} {row : Row} {version : Version}

theorem mem_versionsWhere : version ∈ versionsWhere condition rows ↔
    ∃ row ∈ rows, condition row = true ∧ row.version = some version := by
  simp [versionsWhere, and_assoc]

theorem versionsWhere_cons (condition : Row → Bool) (row : Row) (rest : List Row) :
    versionsWhere condition (row :: rest) =
      (if condition row then row.version.toList else []) ++ versionsWhere condition rest := by
  simp only [versionsWhere, List.filter_cons]
  cases condition row with
  | false => simp
  | true => cases known : row.version <;> simp [known]

theorem versionsWhere_append (condition : Row → Bool) (earlier later : List Row) :
    versionsWhere condition (earlier ++ later) =
      versionsWhere condition earlier ++ versionsWhere condition later := by
  simp [versionsWhere]

/-- The highest applied version is the version of a successful visible row. -/
theorem exists_row_of_highestApplied?_eq_some (found : highestApplied? rows = some version) :
    ∃ row ∈ rows, row.success = true ∧ row.isVisible = true ∧ row.version = some version := by
  obtain ⟨row, member, counts, same⟩ := mem_versionsWhere.mp (Version.mem_of_highest?_eq_some found)
  obtain ⟨success, visible⟩ := Bool.and_eq_true_iff.mp counts
  exact ⟨row, member, success, visible, same⟩

/-- No successful visible row is above the highest applied version. -/
theorem exists_le_highestApplied? (member : row ∈ rows) (success : row.success = true)
    (visible : row.isVisible = true) (same : row.version = some version) :
    ∃ highest, highestApplied? rows = some highest ∧ version ≤ highest := by
  have listed : version ∈ versionsWhere (fun row => row.success && row.isVisible) rows :=
    mem_versionsWhere.mpr ⟨row, member, by simp [success, visible], same⟩
  obtain ⟨highest, found⟩ := Version.exists_highest? listed
  exact ⟨highest, found, Version.le_of_highest?_eq_some found listed⟩

/-- A baseline is no marker. -/
theorem Entry.isVisible_of_isBaseline {entry : Entry} (kind : entry.kind.isBaseline = true) :
    entry.isVisible = true := by
  revert kind
  rw [Entry.isVisible]
  cases entry.kind <;> decide

theorem Entry.isVisible_of_isEffectiveBaseline {entry : Entry}
    (establishes : entry.isEffectiveBaseline = true) : entry.isVisible = true :=
  entry.isVisible_of_isBaseline (Bool.and_eq_true_iff.mp establishes).2

def baselineVersions (rows : List Row) : List (Option Version) :=
  (rows.filter (·.isEffectiveBaseline)).map (·.version)

theorem baselineVersions_append (earlier later : List Row) :
    baselineVersions (earlier ++ later) = baselineVersions earlier ++ baselineVersions later := by
  simp [baselineVersions]

/-- Rows that establish no baseline have no baseline versions. -/
theorem baselineVersions_eq_nil (plain : ∀ row ∈ rows, row.isEffectiveBaseline = false) :
    baselineVersions rows = [] := by
  rw [baselineVersions, List.filter_eq_nil_iff.mpr fun row member => by simp [plain row member],
    List.map_nil]

/-- The floor depends on the versions of the baselines alone. -/
theorem baselineFloor?_eq_highest? (rows : List Row) :
    baselineFloor? rows = Version.highest? ((baselineVersions rows).filterMap id) := by
  rw [baselineFloor?, versionsWhere, baselineVersions, List.filterMap_map]
  rfl

/-- Rows that establish no baseline leave the floor where it is. -/
theorem baselineFloor?_append {earlier later : List Row}
    (plain : ∀ row ∈ later, row.isEffectiveBaseline = false) :
    baselineFloor? (earlier ++ later) = baselineFloor? earlier := by
  rw [baselineFloor?_eq_highest?, baselineVersions_append, baselineVersions_eq_nil plain,
    List.append_nil, ← baselineFloor?_eq_highest?]

/-- A row establishes a baseline at or above the version. -/
def Covered (rows : List Row) (version : Option Version) : Prop :=
  ∃ below, version = some below ∧ ∃ row ∈ rows, row.isEffectiveBaseline = true ∧
    ∃ floor, row.version = some floor ∧ below ≤ floor

/-- A version is at or below the floor exactly if a row covers it. -/
theorem isCovered_iff {version : Option Version} :
    isCovered (baselineFloor? rows) version = true ↔ Covered rows version := by
  constructor
  · intro covered
    cases version with
    | none => cases reached : baselineFloor? rows <;> simp [isCovered, reached] at covered
    | some below =>
      cases reached : baselineFloor? rows with
      | none => simp [isCovered, reached] at covered
      | some floor =>
        obtain ⟨row, member, establishes, known⟩ :=
          mem_versionsWhere.mp (Version.mem_of_highest?_eq_some reached)
        have lower : below ≤ floor := by simpa [isCovered, reached] using covered
        exact ⟨below, rfl, row, member, establishes, floor, known, lower⟩
  · rintro ⟨below, rfl, row, member, establishes, floor, known, lower⟩
    have listed : floor ∈ versionsWhere (·.isEffectiveBaseline) rows :=
      mem_versionsWhere.mpr ⟨row, member, establishes, known⟩
    obtain ⟨highest, reached⟩ := Version.exists_highest? listed
    have found : baselineFloor? rows = some highest := reached
    simpa only [isCovered, found, decide_eq_true_eq] using
      Std.le_trans lower (Version.le_of_highest?_eq_some reached listed)

theorem isCovered_eq_false_iff {version : Option Version} :
    isCovered (baselineFloor? rows) version = false ↔ ¬ Covered rows version := by
  rw [← Bool.not_eq_true, isCovered_iff]

end Rows

def AboveCatalog (catalog : Catalog) (version : Option Version) : Prop :=
  ∃ above, version = some above ∧
    ∀ unit ∈ catalog.migrations, ∀ other, unit.version = some other → other < above

theorem isAbove_iff {catalog : Catalog} {version : Option Version} :
    isAbove catalog.highestVersion? version = true ↔ AboveCatalog catalog version := by
  constructor
  · intro exceeds
    cases version with
    | none => simp [isAbove] at exceeds
    | some above =>
      refine ⟨above, rfl, fun unit member other known => ?_⟩
      have listed : other ∈ catalog.migrations.filterMap (·.version) :=
        List.mem_filterMap.mpr ⟨unit, member, known⟩
      obtain ⟨highest, reached⟩ := Version.exists_highest? listed
      have found : catalog.highestVersion? = some highest := reached
      have higher : highest < above := by
        simpa only [isAbove, found, decide_eq_true_eq] using exceeds
      exact Std.lt_of_le_of_lt (Version.le_of_highest?_eq_some reached listed) higher
  · rintro ⟨above, rfl, exceeds⟩
    cases reached : catalog.highestVersion? with
    | none => rfl
    | some highest =>
      obtain ⟨unit, member, known⟩ :=
        List.mem_filterMap.mp (Version.mem_of_highest?_eq_some reached)
      exact decide_eq_true (exceeds unit member highest known)

end SchemaLedger
