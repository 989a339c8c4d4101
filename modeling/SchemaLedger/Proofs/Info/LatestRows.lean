import Mathlib.Data.List.Induction
import Mathlib.Data.List.Nodup
import SchemaLedger.Proofs.Identity

/-!
# The last visible row of an identity

Of the rows of one identity only the last visible one counts. `lastVisible?` reads it off the
history directly. The reconciliation keeps one row for each identity instead and overwrites it:
`find?_latestRows` and `mem_latestRows_iff` say that both give the same rows, so everything about a
reconciliation can be said of histories.
-/

namespace SchemaLedger

def lastVisible? (rows : List Row) (identity : Identity) : Option Row :=
  (rows.filter fun row => row.isVisible && row.identity == identity).getLast?

section Lookup

variable {rows : List Row} {row : Row} {identity : Identity}

theorem mem_of_lastVisible?_eq_some (last : lastVisible? rows identity = some row) : row ∈ rows :=
  (List.mem_filter.mp (List.mem_of_getLast? last)).1

theorem isVisible_of_lastVisible?_eq_some (last : lastVisible? rows identity = some row) :
    row.isVisible = true :=
  (Bool.and_eq_true_iff.mp (List.mem_filter.mp (List.mem_of_getLast? last)).2).1

theorem key_eq_of_lastVisible?_eq_some (last : lastVisible? rows identity = some row) :
    row.identity.key = identity.key :=
  Identity.beq_iff_key_eq.mp
    (Bool.and_eq_true_iff.mp (List.mem_filter.mp (List.mem_of_getLast? last)).2).2

/-- An identity has no last visible row exactly if it has no visible row. -/
theorem lastVisible?_eq_none_iff :
    lastVisible? rows identity = none ↔
      ∀ row ∈ rows, row.isVisible = true → row.identity.key ≠ identity.key := by
  simp [lastVisible?, Identity.beq_eq_false_iff_key_ne]

theorem exists_lastVisible? (member : row ∈ rows) (visible : row.isVisible = true) :
    ∃ last, lastVisible? rows row.identity = some last := by
  cases found : lastVisible? rows row.identity with
  | some last => exact ⟨last, rfl⟩
  | none => exact absurd rfl (lastVisible?_eq_none_iff.mp found row member visible)

/-- Later rows count before earlier ones. -/
theorem lastVisible?_append (earlier later : List Row) (identity : Identity) :
    lastVisible? (earlier ++ later) identity =
      (lastVisible? later identity).or (lastVisible? earlier identity) := by
  simp [lastVisible?, List.filter_append, List.getLast?_append]

theorem lastVisible?_congr {first second : Identity} (same : first.key = second.key) :
    lastVisible? rows first = lastVisible? rows second := by
  unfold lastVisible?
  congr 2
  funext row
  rw [Identity.beq_congr_right same]

/-- The last visible row of an identity splits the history: nothing visible of it comes later. -/
theorem lastVisible?_eq_some_iff :
    lastVisible? rows identity = some row ↔
      ∃ earlier later, rows = earlier ++ row :: later ∧ row.isVisible = true ∧
        row.identity.key = identity.key ∧ lastVisible? later identity = none := by
  constructor
  · intro last
    obtain ⟨earlier, later, split, absent⟩ :
        ∃ earlier later, rows = earlier ++ row :: later ∧ lastVisible? later identity = none := by
      -- Read from the end, the last visible row is the first one met.
      induction rows using List.reverseRecOn with
      | nil => simp [lastVisible?] at last
      | append_singleton rows final ih =>
        by_cases counts : final.isVisible = true ∧ final.identity.key = identity.key
        · have here : lastVisible? [final] identity = some final := by
            simp [lastVisible?, counts.1, Identity.beq_iff_key_eq.mpr counts.2]
          rw [lastVisible?_append, here, Option.some_or, Option.some.injEq] at last
          exact ⟨rows, [], by rw [last], rfl⟩
        · have skipped : lastVisible? [final] identity = none := by
            rw [lastVisible?_eq_none_iff]
            intro other member visible same
            rw [List.mem_singleton.mp member] at visible same
            exact counts ⟨visible, same⟩
          rw [lastVisible?_append, skipped, Option.none_or] at last
          obtain ⟨earlier, later, rfl, absent⟩ := ih last
          refine ⟨earlier, later ++ [final], by simp, ?_⟩
          rw [lastVisible?_append, skipped, absent, Option.none_or]
    exact ⟨earlier, later, split, isVisible_of_lastVisible?_eq_some last,
      key_eq_of_lastVisible?_eq_some last, absent⟩
  · rintro ⟨earlier, later, rfl, visible, same, absent⟩
    have here : lastVisible? [row] identity = some row := by
      simp [lastVisible?, visible, Identity.beq_iff_key_eq.mpr same]
    rw [← List.singleton_append, lastVisible?_append, lastVisible?_append, absent, here,
      Option.none_or, Option.some_or]

/-- If no two rows have the same identity, the last visible row of one is its visible row. -/
theorem lastVisible?_eq_some_iff_mem (distinct : (rows.map (·.identity.key)).Nodup) :
    lastVisible? rows identity = some row ↔
      row ∈ rows ∧ row.isVisible = true ∧ row.identity.key = identity.key := by
  constructor
  · intro last
    exact ⟨mem_of_lastVisible?_eq_some last, isVisible_of_lastVisible?_eq_some last,
      key_eq_of_lastVisible?_eq_some last⟩
  · rintro ⟨member, visible, same⟩
    cases last : lastVisible? rows identity with
    | none => exact absurd same (lastVisible?_eq_none_iff.mp last row member visible)
    | some other =>
      have key := (key_eq_of_lastVisible?_eq_some last).trans same.symm
      rw [List.inj_on_of_nodup_map distinct (mem_of_lastVisible?_eq_some last) member key]

/-- The order of rows does not matter if no two of them have the same identity. -/
theorem lastVisible?_perm {other : List Row} (perm : rows.Perm other)
    (distinct : (rows.map (·.identity.key)).Nodup) (identity : Identity) :
    lastVisible? rows identity = lastVisible? other identity := by
  ext row
  rw [lastVisible?_eq_some_iff_mem distinct,
    lastVisible?_eq_some_iff_mem ((perm.map _).nodup_iff.mp distinct), perm.mem_iff]

end Lookup

section Latest

/-- Putting a row changes what is found for its identity, and nothing else. -/
theorem find?_putLatest (row : Row) (latest : List Row) (identity : Identity) :
    (putLatest row latest).find? (·.identity == identity) =
      if row.identity == identity then some row else latest.find? (·.identity == identity) := by
  induction latest with
  | nil =>
    simp only [putLatest, List.find?_cons]
    split <;> simp_all
  | cons other rest ih =>
    rw [putLatest]
    by_cases same : other.identity == row.identity
    · have congruent : (other.identity == identity) = (row.identity == identity) :=
        BEq.congr_left same
      rw [if_pos same, List.find?_cons, List.find?_cons, congruent]
      cases row.identity == identity <;> rfl
    · rw [if_neg same, List.find?_cons, List.find?_cons, ih]
      by_cases wanted : row.identity == identity
      · have other : (other.identity == identity) = false := by
          rw [← Bool.not_eq_true]
          exact fun found => same (BEq.trans found (BEq.symm wanted))
        simp [wanted, other]
      · simp [wanted]

/-- Of two rows of equal identities the later one takes the place of the earlier one. -/
theorem putLatest_putLatest {row other : Row} (same : (row.identity == other.identity) = true)
    (latest : List Row) : putLatest other (putLatest row latest) = putLatest other latest := by
  induction latest with
  | nil => simp [putLatest, same]
  | cons head rest ih =>
    have alike : (head.identity == row.identity) = (head.identity == other.identity) :=
      Identity.beq_congr_right (Identity.beq_iff_key_eq.mp same) _
    rw [putLatest, alike]
    split
    · rename_i taken
      rw [putLatest, if_pos same, putLatest, if_pos taken]
    · rename_i apart
      rw [putLatest, if_neg apart, ih, putLatest, if_neg apart]

private theorem find?_foldl_putLatest (rows latest : List Row) (identity : Identity) :
    (rows.foldl (fun latest row => putLatest row latest) latest).find? (·.identity == identity) =
      (rows.filter (·.identity == identity)).getLast?.or
        (latest.find? (·.identity == identity)) := by
  induction rows generalizing latest with
  | nil => simp
  | cons row rest ih =>
    rw [List.foldl_cons, ih, find?_putLatest, List.filter_cons]
    by_cases wanted : row.identity == identity
    · simp only [wanted, if_true, List.getLast?_cons]
      cases (rest.filter (·.identity == identity)).getLast? <;> rfl
    · simp [wanted]

/-- The reconciliation finds the last visible row of every identity. -/
theorem find?_latestRows (rows : List Row) (identity : Identity) :
    (latestRows rows).find? (·.identity == identity) = lastVisible? rows identity := by
  rw [latestRows, find?_foldl_putLatest, List.find?_nil, Option.or_none, List.filter_filter]
  simp only [lastVisible?, Bool.and_comm]

theorem map_key_putLatest (row : Row) (latest : List Row) :
    (putLatest row latest).map (·.identity.key) =
      if row.identity.key ∈ latest.map (·.identity.key) then latest.map (·.identity.key)
      else latest.map (·.identity.key) ++ [row.identity.key] := by
  induction latest with
  | nil => simp [putLatest]
  | cons other rest ih =>
    rw [putLatest]
    by_cases same : other.identity == row.identity
    · have key := Identity.beq_iff_key_eq.mp same
      simp [same, key]
    · have differs : row.identity.key ≠ other.identity.key := fun key =>
        same (Identity.beq_iff_key_eq.mpr key.symm)
      rw [if_neg same, List.map_cons, ih]
      split <;> simp_all

theorem nodup_key_latestRows (rows : List Row) :
    ((latestRows rows).map (·.identity.key)).Nodup := by
  have kept (visible latest : List Row) (distinct : (latest.map (·.identity.key)).Nodup) :
      ((visible.foldl (fun latest row => putLatest row latest) latest).map
        (·.identity.key)).Nodup := by
    induction visible generalizing latest with
    | nil => exact distinct
    | cons row rest ih =>
      apply ih
      rw [map_key_putLatest]
      split
      · exact distinct
      · rename_i fresh
        exact List.nodup_append.mpr ⟨distinct, List.nodup_singleton _, by grind⟩
  exact kept _ [] List.nodup_nil

theorem mem_latestRows_iff {rows : List Row} {row : Row} :
    row ∈ latestRows rows ↔ lastVisible? rows row.identity = some row := by
  rw [← find?_latestRows]
  constructor
  · intro member
    cases found : (latestRows rows).find? (·.identity == row.identity) with
    | none => simpa using List.find?_eq_none.mp found row member
    | some other =>
      have same : other.identity.key = row.identity.key :=
        Identity.beq_iff_key_eq.mp (by simpa using List.find?_some found)
      rw [List.inj_on_of_nodup_map (nodup_key_latestRows rows) (List.mem_of_find?_eq_some found)
        member same]
  · exact List.mem_of_find?_eq_some

def visibleKeys (rows : List Row) : List (Option (List UInt64) × String) :=
  (rows.filter (·.isVisible)).map (·.identity.key)

theorem mem_visibleKeys {rows : List Row} {identity : Identity} :
    identity.key ∈ visibleKeys rows ↔ ∃ row, lastVisible? rows identity = some row := by
  constructor
  · intro listed
    obtain ⟨row, kept, same⟩ := List.mem_map.mp listed
    obtain ⟨member, visible⟩ := List.mem_filter.mp kept
    obtain ⟨last, found⟩ := exists_lastVisible? member visible
    exact ⟨last, (lastVisible?_congr same).symm.trans found⟩
  · rintro ⟨row, last⟩
    rw [← key_eq_of_lastVisible?_eq_some last]
    exact List.mem_map_of_mem (List.mem_filter.mpr
      ⟨mem_of_lastVisible?_eq_some last, isVisible_of_lastVisible?_eq_some last⟩)

/-- The latest rows are in the order in which their identities first appear. -/
theorem pairwise_latestRows (rows : List Row) :
    (latestRows rows).Pairwise fun first second =>
      (visibleKeys rows).idxOf first.identity.key <
        (visibleKeys rows).idxOf second.identity.key := by
  have listed (rows : List Row) {key : Option (List UInt64) × String}
      (member : key ∈ (latestRows rows).map (·.identity.key)) : key ∈ visibleKeys rows := by
    obtain ⟨row, latest, rfl⟩ := List.mem_map.mp member
    exact mem_visibleKeys.mpr ⟨row, mem_latestRows_iff.mp latest⟩
  -- Only the keys matter, and a row that takes the place of another keeps its key.
  have keys : ((latestRows rows).map (·.identity.key)).Pairwise fun first second =>
      (visibleKeys rows).idxOf first < (visibleKeys rows).idxOf second := by
    induction rows using List.reverseRecOn with
    | nil => exact .nil
    | append_singleton rows row ih =>
      cases visible : row.isVisible with
      | false =>
        have same : visibleKeys (rows ++ [row]) = visibleKeys rows := by
          simp [visibleKeys, List.filter_append, visible]
        rwa [latestRows_append_marker visible, same]
      | true =>
        have longer : visibleKeys (rows ++ [row]) = visibleKeys rows ++ [row.identity.key] := by
          simp [visibleKeys, List.filter_append, visible]
        have kept : ((latestRows rows).map (·.identity.key)).Pairwise fun first second =>
            (visibleKeys rows ++ [row.identity.key]).idxOf first <
              (visibleKeys rows ++ [row.identity.key]).idxOf second := by
          refine ih.imp_of_mem fun first second below => ?_
          rwa [List.idxOf_append_of_mem (listed rows first),
            List.idxOf_append_of_mem (listed rows second)]
        rw [latestRows_append_visible visible, map_key_putLatest, longer]
        split
        · exact kept
        · rename_i fresh
          refine List.pairwise_append.mpr ⟨kept, List.pairwise_singleton _ _, ?_⟩
          intro first member second last
          rw [List.mem_singleton] at last
          have absent : row.identity.key ∉ visibleKeys rows := by
            intro present
            obtain ⟨other, found⟩ := mem_visibleKeys.mp present
            have same := key_eq_of_lastVisible?_eq_some found
            rw [← lastVisible?_congr same, ← mem_latestRows_iff] at found
            exact fresh (same ▸ List.mem_map_of_mem found)
          rw [last, List.idxOf_append_of_mem (listed rows member),
            List.idxOf_append_of_notMem absent]
          exact Nat.lt_add_right _ (List.idxOf_lt_length_of_mem (listed rows member))
  rwa [List.pairwise_map] at keys

end Latest

end SchemaLedger
