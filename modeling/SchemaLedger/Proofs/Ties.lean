import Mathlib.Data.List.Perm.Basic

/-!
# Lists that differ in ties only

Two lists in the same order can still differ where the order leaves a choice. `Retied` says that
they differ nowhere else: one becomes the other by exchanging neighbours that tie. Permutations of
each other that are both in order are such lists, and what is computed element by element from such
lists is, too.
-/

namespace SchemaLedger

variable {α β : Type} {tied : α → α → Prop} {first second : List α}

/-- One list becomes the other by exchanging neighbours that tie. -/
inductive Retied (tied : α → α → Prop) : List α → List α → Prop where
  | nil : Retied tied [] []
  | cons (element : α) {first second : List α} (rest : Retied tied first second) :
      Retied tied (element :: first) (element :: second)
  | swap {element other : α} (tie : tied element other) (rest : List α) :
      Retied tied (element :: other :: rest) (other :: element :: rest)
  | trans {first second third : List α} (before : Retied tied first second)
      (after : Retied tied second third) : Retied tied first third

namespace Retied

theorem refl (elements : List α) : Retied tied elements elements := by
  induction elements with
  | nil => exact .nil
  | cons element rest ih => exact .cons element ih

theorem imp {weaker : α → α → Prop} (implies : ∀ a b, tied a b → weaker a b)
    (retied : Retied tied first second) : Retied weaker first second := by
  induction retied with
  | nil => exact .nil
  | cons element _ ih => exact ih.cons element
  | swap tie rest => exact .swap (implies _ _ tie) rest
  | trans _ _ before after => exact before.trans after

/-- What is computed from each element is reordered as the elements are. -/
theorem map {related : β → β → Prop} {view : α → β}
    (keeps : ∀ a b, tied a b → related (view a) (view b)) (retied : Retied tied first second) :
    Retied related (first.map view) (second.map view) := by
  induction retied with
  | nil => exact .nil
  | cons element _ ih => exact ih.cons (view element)
  | swap tie rest => exact .swap (keeps _ _ tie) (rest.map view)
  | trans _ _ before after => exact before.trans after

/-- An element moves to the front past elements that it ties with. -/
theorem move {element : α} {passed : List α} (ties : ∀ other ∈ passed, tied element other)
    (rest : List α) : Retied tied (element :: (passed ++ rest)) (passed ++ element :: rest) := by
  induction passed with
  | nil => exact refl _
  | cons other others ih =>
    obtain ⟨here, later⟩ := List.forall_mem_cons.mp ties
    exact (swap here _).trans (.cons other (ih later))

/-- Permutations of each other that are both in order differ in ties only. -/
theorem of_pairwise {related : α → α → Prop} (perm : first.Perm second)
    (ordered : first.Pairwise related) (reordered : second.Pairwise related) :
    Retied (fun a b => related a b ∧ related b a) first second := by
  induction first generalizing second with
  | nil =>
    obtain rfl := perm.nil_eq
    exact .nil
  | cons element rest ih =>
    obtain ⟨below, others⟩ := List.pairwise_cons.mp ordered
    obtain ⟨passed, behind, rfl⟩ := List.append_of_mem (perm.mem_iff.mp List.mem_cons_self)
    obtain ⟨front, back, across⟩ := List.pairwise_append.mp reordered
    have left : rest.Perm (passed ++ behind) := (perm.trans List.perm_middle).cons_inv
    have remain : (passed ++ behind).Pairwise related :=
      reordered.sublist ((List.sublist_cons_self element behind).append_left passed)
    -- What stands before the element in one list stands behind it in the other.
    have ties (other : α) (member : other ∈ passed) :
        related element other ∧ related other element :=
      ⟨below other (left.mem_iff.mpr (List.mem_append_left _ member)),
        across other member element List.mem_cons_self⟩
    exact (cons element (ih left others remain)).trans (move ties behind)

end Retied

end SchemaLedger
