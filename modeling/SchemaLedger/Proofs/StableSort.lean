/-!
# Stable sorting

A stable sort puts an element behind everything strictly below it and before the rest, and leaves
both in their order. Hence it does not matter whether elements are dropped before or after a sort,
and ties stay in the order in which they were.
-/

namespace SchemaLedger

variable {α : Type} {le : α → α → Bool}

/-- The first element of a list goes between what is below it and what is not. -/
theorem mergeSort_cons_eq (trans : ∀ a b c, le a b = true → le b c = true → le a c = true)
    (total : ∀ a b, (le a b || le b a) = true) (head : α) (rest : List α) :
    (head :: rest).mergeSort le =
      (rest.mergeSort le).filter (fun element => !le head element) ++
        head :: (rest.mergeSort le).filter (fun element => le head element) := by
  obtain ⟨below, above, sorted, others, strict⟩ := List.mergeSort_cons trans total head rest
  have pairwise := List.pairwise_mergeSort trans total (head :: rest)
  rw [sorted] at pairwise
  have higher : ∀ element ∈ above, le head element = true :=
    (List.pairwise_cons.mp (List.pairwise_append.mp pairwise).2.1).1
  have lowers : below.filter (fun element => !le head element) = below :=
    List.filter_eq_self.mpr strict
  have noUppers : below.filter (fun element => le head element) = [] := by
    simpa [List.filter_eq_nil_iff] using strict
  have uppers : above.filter (fun element => le head element) = above :=
    List.filter_eq_self.mpr higher
  have noLowers : above.filter (fun element => !le head element) = [] := by
    simpa [List.filter_eq_nil_iff] using higher
  rw [sorted, others, List.filter_append, List.filter_append, lowers, noLowers, noUppers, uppers,
    List.append_nil, List.nil_append]

theorem filter_mergeSort (trans : ∀ a b c, le a b = true → le b c = true → le a c = true)
    (total : ∀ a b, (le a b || le b a) = true) (keep : α → Bool) (elements : List α) :
    (elements.mergeSort le).filter keep = (elements.filter keep).mergeSort le := by
  induction elements with
  | nil => simp
  | cons head rest ih =>
    rw [List.filter_cons]
    split
    · rename_i kept
      have swap (side : α → Bool) : ((rest.mergeSort le).filter side).filter keep =
          ((rest.filter keep).mergeSort le).filter side := by
        rw [← ih, List.filter_filter, List.filter_filter]
        simp only [Bool.and_comm]
      rw [mergeSort_cons_eq trans total, mergeSort_cons_eq trans total, List.filter_append,
        List.filter_cons_of_pos kept, swap, swap]
    · rename_i dropped
      obtain ⟨below, above, sorted, others, _⟩ := List.mergeSort_cons trans total head rest
      rw [sorted, List.filter_append, List.filter_cons_of_neg dropped, ← ih, others,
        List.filter_append]

theorem pairwise_mergeSort_ties (trans : ∀ a b c, le a b = true → le b c = true → le a c = true)
    (total : ∀ a b, (le a b || le b a) = true) {related : α → α → Prop} {elements : List α}
    (pairs : elements.Pairwise related) :
    (elements.mergeSort le).Pairwise fun first second =>
      le first second = true ∧ (le second first = true → related first second) := by
  induction elements with
  | nil => simp
  | cons head rest ih =>
    obtain ⟨behind, others⟩ := List.pairwise_cons.mp pairs
    have sorted := ih others
    rw [mergeSort_cons_eq trans total]
    refine List.pairwise_append.mpr
      ⟨sorted.filter _, List.pairwise_cons.mpr ⟨?_, sorted.filter _⟩, ?_⟩
    · intro element member
      obtain ⟨listed, above⟩ := List.mem_filter.mp member
      exact ⟨above, fun _ => behind element (List.mem_mergeSort.mp listed)⟩
    · intro first low second high
      have below : le head first = false := by simpa using (List.mem_filter.mp low).2
      have lower : le first head = true := by simpa [below] using total head first
      rcases List.mem_cons.mp high with rfl | later
      · exact ⟨lower, fun above => absurd (below.symm.trans above) Bool.false_ne_true⟩
      · obtain ⟨_, above⟩ := List.mem_filter.mp later
        refine ⟨trans _ _ _ lower above, fun upper => ?_⟩
        exact absurd (below.symm.trans (trans _ _ _ above upper)) Bool.false_ne_true

end SchemaLedger
