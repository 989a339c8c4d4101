import Mathlib.Data.List.DropRight
import SchemaLedger.Version.Basic

/-!
# The order of versions

Comparing two versions component by component, with zeros for what is not written, is comparing
their significant components as lists. Lists are compared lexicographically, so versions inherit a
total preorder, and two versions are equal in it exactly if they share their significant components.
The instances at the end make this available to order lemmas and to `grind`.
-/

namespace SchemaLedger

namespace Version

/-- One more component is kept unless it is a zero with nothing to keep after it. -/
theorem dropTrailingZeros_cons (part : UInt64) (rest : List UInt64) :
    dropTrailingZeros (part :: rest) =
      if part = 0 ∧ dropTrailingZeros rest = [] then [] else part :: dropTrailingZeros rest := by
  rw [dropTrailingZeros]
  cases kept : dropTrailingZeros rest with
  | nil => simp
  | cons next others => simp

/-- The significant components are what is left when zeros are dropped from the right. -/
theorem significant_eq_rdropWhile (version : Version) :
    version.significant = version.parts.rdropWhile (· == 0) := by
  rw [significant]
  induction version.parts with
  | nil => rfl
  | cons part rest ih =>
    rw [dropTrailingZeros_cons, ih, List.rdropWhile, List.rdropWhile, List.reverse_cons,
      List.dropWhile_append]
    cases kept : rest.reverse.dropWhile (· == 0) with
    | nil => by_cases zero : part = 0 <;> simp [zero]
    | cons other others => simp

private theorem compare_zero_left (part : UInt64) :
    compare 0 part = if part = 0 then .eq else .lt := by
  split
  · subst part
    exact Std.ReflCmp.compare_self
  · rename_i nonzero
    exact Std.compare_eq_lt.mpr (UInt64.pos_iff_ne_zero.mpr nonzero)

private theorem compare_zero_right (part : UInt64) :
    compare part 0 = if part = 0 then .eq else .gt := by
  have swapped : compare part 0 = (compare 0 part).swap := Std.OrientedCmp.eq_swap
  rw [swapped, compare_zero_left]
  split <;> rfl

private theorem compare_nil_left (parts : List UInt64) :
    compare [] parts = if parts = [] then .eq else .lt := by
  cases parts <;> rfl

private theorem compare_nil_right (parts : List UInt64) :
    compare parts [] = if parts = [] then .eq else .gt := by
  cases parts <;> rfl

/-- A list of zeros is below every list of components that has significant ones. -/
theorem compareZeros_eq (parts : List UInt64) :
    compareZeros parts = compare [] (dropTrailingZeros parts) := by
  induction parts with
  | nil => rfl
  | cons part rest ih =>
    rw [compareZeros, ih, dropTrailingZeros_cons, compare_zero_left]
    by_cases zero : part = 0
    · cases kept : dropTrailingZeros rest <;> simp [zero]
    · simp [zero]

/-- Continuing the shorter list with zeros amounts to dropping the zeros at the end of both. -/
theorem compareParts_eq (left right : List UInt64) :
    compareParts left right = compare (dropTrailingZeros left) (dropTrailingZeros right) := by
  induction left, right using compareParts.induct with
  | case1 right =>
    rw [compareParts, compareZeros_eq]
    rfl
  | case2 left nonempty =>
    rw [compareParts.eq_2 _ nonempty, compareZeros_eq, ← Std.OrientedCmp.eq_swap]
    rfl
  | case3 a left b right ih =>
    rw [compareParts, ih, dropTrailingZeros_cons, dropTrailingZeros_cons]
    split
    · rename_i zeros
      rw [zeros.1, zeros.2, compare_zero_left, compare_nil_left, compare_nil_left]
      by_cases zero : b = 0 <;> simp_all
    · rename_i kept
      split
      · rename_i zeros
        rw [zeros.1, zeros.2, compare_zero_right, compare_nil_right, compare_nil_right]
        by_cases zero : a = 0 <;> simp_all
      · exact List.compare_cons_cons.symm

private theorem rightpad_cons (part : UInt64) (rest : List UInt64) (width : Nat) :
    (part :: rest).rightpad (width + 1) 0 = part :: rest.rightpad width 0 := by
  simp [List.rightpad]

private theorem compareZeros_eq_padded {parts : List UInt64} {width : Nat}
    (wide : parts.length ≤ width) :
    compareZeros parts = compare (List.replicate width 0) (parts.rightpad width 0) := by
  induction parts generalizing width with
  | nil => simp [compareZeros, List.rightpad, Std.ReflCmp.compare_self]
  | cons part rest ih =>
    cases width with
    | zero => cases wide
    | succ width =>
      rw [compareZeros, ih (Nat.le_of_succ_le_succ wide), List.replicate_succ, rightpad_cons,
        List.compare_cons_cons]

/-- Comparing component by component is comparing the lists that zeros make equally long. -/
theorem compareParts_eq_padded {left right : List UInt64} {width : Nat}
    (wide : left.length ≤ width) (broad : right.length ≤ width) :
    compareParts left right = compare (left.rightpad width 0) (right.rightpad width 0) := by
  induction left, right using compareParts.induct generalizing width with
  | case1 right => simpa [compareParts, List.rightpad] using compareZeros_eq_padded broad
  | case2 left nonempty =>
    rw [compareParts.eq_2 _ nonempty, compareZeros_eq_padded wide, ← Std.OrientedCmp.eq_swap]
    simp [List.rightpad]
  | case3 a left b right ih =>
    cases width with
    | zero => cases wide
    | succ width =>
      rw [compareParts, ih (Nat.le_of_succ_le_succ wide) (Nat.le_of_succ_le_succ broad),
        rightpad_cons, rightpad_cons, List.compare_cons_cons]

/-- Versions are compared by their significant components. -/
theorem compare_eq_compare_significant (left right : Version) :
    compare left right = compare left.significant right.significant :=
  compareParts_eq left.parts right.parts

theorem beq_iff_significant_eq {left right : Version} :
    (left == right) = true ↔ left.significant = right.significant := by
  rw [beq_iff_compare, compare_eq_compare_significant, Std.LawfulEqOrd.compare_eq_iff_eq]

instance : LawfulHashable Version where
  hash_eq first second same := by
    change hash first.significant = hash second.significant
    rw [beq_iff_significant_eq.mp same]

instance : Std.TransOrd Version where
  eq_swap := by
    intro left right
    simp only [compare_eq_compare_significant]
    exact Std.OrientedCmp.eq_swap
  isLE_trans := by
    intro first second third
    simp only [compare_eq_compare_significant]
    exact Std.TransCmp.isLE_trans

instance : Std.LawfulOrderOrd Version := Std.instLawfulOrderOrd_ofOrd Version

instance : Std.IsLinearPreorder Version := .of_ord

instance : Std.LawfulOrderLT Version := .of_ord _ fun _ _ => Iff.rfl

instance : Std.LawfulOrderBEq Version := .of_ord _ fun _ _ => beq_iff_compare

end Version

end SchemaLedger
