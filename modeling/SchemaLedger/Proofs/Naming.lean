import SchemaLedger.Proofs.Identity
import SchemaLedger.Proofs.Version.Text
import SchemaLedger.Warning

/-!
# How units are named

Issues, warnings and failures name a unit by the text of its identity. The text of a version has no
space in it and does not begin with `R`, so the first space ends the version, whatever the
description holds: identities with one text are equal. An error puts the text of a unit together on
its own and comes to the same, and no two units can be taken for each other in what is said of them.
-/

namespace SchemaLedger

/-- What stands before the first of some character is determined by the whole. -/
private theorem append_cons_inj {c : Char} {left right before after : List Char}
    (absent : c ∉ left) (missing : c ∉ right) (same : left ++ c :: before = right ++ c :: after) :
    left = right ∧ before = after := by
  have upTo {chars : List Char} (free : c ∉ chars) (rest : List Char) :
      (chars ++ c :: rest).takeWhile (· != c) = chars := by
    have others : ∀ d ∈ chars, (d != c) = true := fun d member =>
      bne_iff_ne.mpr fun equal => free (equal ▸ member)
    rw [List.takeWhile_append_of_pos others, List.takeWhile_cons_of_neg (by simp), List.append_nil]
  have front : left = right := by
    rw [← upTo absent before, same, upTo missing after]
  subst front
  exact ⟨rfl, (List.cons.inj (List.append_cancel_left same)).2⟩

namespace Identity

/-- The first space ends the version, so identities with one text are the same. -/
theorem eq_of_chars_eq {first second : Identity} (same : first.chars = second.chars) :
    first = second := by
  have unspaced (version : Version) : ' ' ∉ version.chars := version.not_mem_chars rfl rfl
  have unlettered (version : Version) : 'R' ∉ version.chars := version.not_mem_chars rfl rfl
  have clash (version : Version) (description words : String) :
      (versioned version description).chars ≠ (repeatable words).chars := by
    intro equal
    rw [chars, chars] at equal
    cases begun : version.chars with
    | nil => exact (Version.spells_chars version).ne_nil begun
    | cons c rest =>
      rw [begun, List.cons_append] at equal
      exact unlettered version (begun ▸ (List.cons.inj equal).1 ▸ List.mem_cons_self)
  cases first with
  | versioned version description =>
    cases second with
    | versioned other words =>
      obtain ⟨versions, rest⟩ := append_cons_inj (unspaced version) (unspaced other) same
      obtain rfl : version = other := Version.text_injective (congrArg String.ofList versions)
      obtain rfl : description = words := String.toList_inj.mp (by simpa using rest)
      rfl
    | repeatable words => exact absurd same (clash version description words)
  | repeatable description =>
    cases second with
    | versioned other words => exact absurd same.symm (clash other words description)
    | repeatable words =>
      obtain rfl : description = words := String.toList_inj.mp (by simpa [chars] using same)
      rfl

theorem beq_of_text_eq {first second : Identity} (same : first.text = second.text) :
    (first == second) = true := by
  rw [eq_of_chars_eq (String.ofList_injective same)]
  exact BEq.rfl

end Identity

/-- An error names a unit by the text of its identity. -/
theorem failedUnitText_eq (identity : Identity) :
    failedUnitText identity.version? identity.description = identity.text := by
  rw [← String.toList_inj, Identity.toList_text]
  cases identity <;>
    simp [failedUnitText, Identity.chars, Identity.version?, Identity.description]

/-- The issue with another identity. -/
def Issue.concerning (identity : Identity) : Issue → Issue
  | checksumMismatch _ applied resolved => checksumMismatch identity applied resolved
  | missing _ => missing identity
  | future _ => future identity
  | failed _ => failed identity
  | outOfOrder _ highestApplied => outOfOrder identity highestApplied
  | typeMismatch _ applied resolved => typeMismatch identity applied resolved

/-- Something that is said of units: an issue, a warning, or a failure. -/
inductive IsRemark : (Identity → String) → Prop where
  | issue (issue : Issue) : IsRemark fun identity => (issue.concerning identity).text
  | newerThanCatalog : IsRemark fun identity => (Warning.newerThanCatalog identity).text
  | copiedUnresolved : IsRemark fun identity => (Warning.copiedUnresolved identity).text
  | failure (cause : Error) :
      IsRemark fun identity =>
        (Error.unitFailed identity.version? identity.description cause).message

/-- Around the text of the identity, a remark has the same words for all units. -/
theorem IsRemark.text_eq {remark : Identity → String} (said : IsRemark remark)
    {first second : Identity} (same : remark first = remark second) : first.text = second.text := by
  cases said with
  | issue issue =>
    unfold Issue.text at same
    cases issue <;> simpa [Issue.concerning] using same
  | newerThanCatalog =>
    unfold Warning.text at same
    simpa using same
  | copiedUnresolved =>
    unfold Warning.text at same
    simpa using same
  | failure cause =>
    unfold Error.message at same
    simpa [Error.unitFailed, failedUnitText_eq] using same

/-- Identities with one text are equal; an error carries the text of the identity of the unit that
failed; and what is said of two units in the same words is said of equal identities. -/
theorem Identity.text_unambiguous :
    (∀ first second : Identity, first.text = second.text → (first == second) = true) ∧
      (∀ version description cause,
        (Error.unitFailed version description cause).unitText? =
          some (Identity.of version description).text) ∧
      ∀ remark, IsRemark remark → ∀ first second, remark first = remark second →
        (first == second) = true := by
  refine ⟨fun _ _ => beq_of_text_eq, fun version description cause => ?_, ?_⟩
  · rw [Error.unitFailed, Error.unitText?, failedUnitText_eq]
  · intro remark said first second same
    exact beq_of_text_eq (said.text_eq same)

end SchemaLedger
