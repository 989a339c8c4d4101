import Mathlib.Data.List.Induction
import Mathlib.Data.Nat.Digits.Defs
import SchemaLedger.Version.Text

/-!
# Spellings of versions

`Version.Spells` is the grammar of versions: numerals of ASCII digits between single separators,
where a numeral may begin with zeros and denotes a number of 64 bits. A text is read as a version
exactly if it is such a spelling, of the numbers that are the components. The text of a version is
one of its spellings, so it reads back as the same components.
-/

namespace SchemaLedger

namespace Version

/-- A non-empty run of ASCII digits, and the number of 64 bits that it denotes. -/
structure IsNumeral (digits : List Char) (number : Nat) : Prop where
  nonempty : digits ≠ []
  ascii : ∀ c ∈ digits, '0' ≤ c ∧ c ≤ '9'
  value : Nat.ofDigits 10 (digits.map fun c => c.toNat - '0'.toNat).reverse = number
  fits : number ≤ 18446744073709551615

/-- Numerals between single separators, and the numbers that they denote. -/
inductive Spells : List Char → List Nat → Prop where
  | single {digits : List Char} {number : Nat} (numeral : IsNumeral digits number) :
      Spells digits [number]
  | more {digits chars : List Char} {separator : Char} {number : Nat} {numbers : List Nat}
      (numeral : IsNumeral digits number) (separates : separator = '.' ∨ separator = '_')
      (rest : Spells chars numbers) : Spells (digits ++ separator :: chars) (number :: numbers)

section Numerals

variable {digits : List Char} {number : Nat} {part : UInt64}

/-- Reading digits from the left gives the number that they denote. -/
theorem ofDigitChars_eq_ofDigits (digits : List Char) :
    Nat.ofDigitChars 10 digits 0 =
      Nat.ofDigits 10 (digits.map fun c => c.toNat - '0'.toNat).reverse := by
  induction digits using List.reverseRecOn with
  | nil => rfl
  | append_singleton digits c ih =>
    rw [Nat.ofDigitChars_append, Nat.ofDigitChars_cons, ih, List.map_append, List.reverse_append]
    simp [Nat.ofDigits_cons, Nat.add_comm]

theorem isDigit_iff {c : Char} : c.isDigit = true ↔ '0' ≤ c ∧ c ≤ '9' := by
  simp only [Char.isDigit, Bool.and_eq_true, decide_eq_true_eq]
  exact Iff.rfl

/-- A component is read exactly from the numerals that denote it. -/
theorem readComponent_eq_ok_iff :
    readComponent digits = .ok part ↔ IsNumeral digits part.toNat := by
  have plain_iff : digits.all Char.isDigit = true ↔ ∀ c ∈ digits, '0' ≤ c ∧ c ≤ '9' := by
    simp only [List.all_eq_true, isDigit_iff]
  constructor
  · intro success
    unfold readComponent at success
    split at success
    · cases success
    · rename_i nonempty
      split at success
      · cases success
      · rename_i plain
        split at success
        · rename_i fits
          cases success
          refine ⟨?_, plain_iff.mp (by simpa using plain), ?_, ?_⟩
          · simpa using nonempty
          · rw [← ofDigitChars_eq_ofDigits, UInt64.toNat_ofNatLT]
          · rw [UInt64.toNat_ofNatLT]
            exact Nat.le_of_lt_succ fits
        · cases success
  · rintro ⟨nonempty, ascii, value, fits⟩
    rw [← ofDigitChars_eq_ofDigits] at value
    have below : Nat.ofDigitChars 10 digits 0 < UInt64.size := value ▸ part.toNat_lt
    have read : UInt64.ofNatLT (Nat.ofDigitChars 10 digits 0) below = part := by
      rw [← UInt64.toNat_inj, UInt64.toNat_ofNatLT, value]
    simp [readComponent, nonempty, plain_iff.mpr ascii, below, read]

theorem IsNumeral.isSeparator_eq_false (numeral : IsNumeral digits number) :
    ∀ c ∈ digits, isSeparator c = false := by
  intro c member
  have digit := isDigit_iff.mpr (numeral.ascii c member)
  have others : c ≠ '.' ∧ c ≠ '_' :=
    ⟨by rintro rfl; exact absurd digit (by decide), by rintro rfl; exact absurd digit (by decide)⟩
  simp [isSeparator, others]

theorem isNumeral_toDigits (part : UInt64) : IsNumeral (Nat.toDigits 10 part.toNat) part.toNat where
  nonempty := Nat.toDigits_ne_nil
  ascii c member := isDigit_iff.mp (Nat.isDigit_of_mem_toDigits (by decide) (by decide) member)
  value := by
    rw [← ofDigitChars_eq_ofDigits, Nat.ofDigitChars_toDigits (by decide) (by decide)]
  fits := Nat.le_of_lt_succ part.toNat_lt

end Numerals

section Spellings

variable {chars digits : List Char} {parts : List UInt64}

theorem isSeparator_iff {c : Char} : isSeparator c = true ↔ c = '.' ∨ c = '_' := by
  simp [isSeparator]

/-- Without a separator there is one component. -/
theorem readComponents_of_plain (plain : ∀ c ∈ digits, isSeparator c = false) :
    readComponents digits = .ok parts ↔
      ∃ part, readComponent digits = .ok part ∧ parts = [part] := by
  rw [readComponents, List.splitOnP_eq_singleton plain, List.mapM_cons, List.mapM_nil]
  cases readComponent digits <;> simp [bind, Except.bind, pure, Except.pure, eq_comm]

/-- The first separator ends the first component. -/
theorem readComponents_append_cons {separator : Char}
    (plain : ∀ c ∈ digits, isSeparator c = false) (separates : isSeparator separator = true) :
    readComponents (digits ++ separator :: chars) = .ok parts ↔
      ∃ part rest, readComponent digits = .ok part ∧ readComponents chars = .ok rest ∧
        parts = part :: rest := by
  rw [readComponents, List.splitOnP_append_cons_of_forall_mem plain _ separates, List.mapM_cons,
    ← readComponents]
  cases readComponent digits <;> cases readComponents chars <;>
    simp [bind, Except.bind, pure, Except.pure, eq_comm]

/-- Components are read exactly from the spellings of their numbers. -/
theorem readComponents_eq_ok_iff :
    readComponents chars = .ok parts ↔ Spells chars (parts.map UInt64.toNat) := by
  constructor
  · intro success
    induction parts generalizing chars with
    | nil => exact absurd rfl (readComponents_ne_nil success)
    | cons part rest ih =>
      cases first : chars.find? isSeparator with
      | none =>
        have plain : ∀ c ∈ chars, isSeparator c = false := by simpa using first
        obtain ⟨only, read, same⟩ := (readComponents_of_plain plain).mp success
        cases same
        exact .single (readComponent_eq_ok_iff.mp read)
      | some separator =>
        obtain ⟨separates, digits, behind, rfl, before⟩ := List.find?_eq_some_iff_append.mp first
        have plain : ∀ c ∈ digits, isSeparator c = false := by simpa using before
        obtain ⟨here, others, read, later, same⟩ :=
          (readComponents_append_cons plain separates).mp success
        cases same
        exact .more (readComponent_eq_ok_iff.mp read) (isSeparator_iff.mp separates) (ih later)
  · intro spells
    generalize spelled : parts.map UInt64.toNat = numbers at spells
    induction spells generalizing parts with
    | single numeral =>
      obtain ⟨part, rfl, rfl⟩ := List.map_eq_singleton_iff.mp spelled
      exact (readComponents_of_plain numeral.isSeparator_eq_false).mpr
        ⟨part, readComponent_eq_ok_iff.mpr numeral, rfl⟩
    | more numeral separates _ ih =>
      obtain ⟨part, rest, rfl, rfl, others⟩ := List.map_eq_cons_iff.mp spelled
      exact (readComponents_append_cons numeral.isSeparator_eq_false
        (isSeparator_iff.mpr separates)).mpr
          ⟨part, rest, readComponent_eq_ok_iff.mpr numeral, ih others, rfl⟩

theorem Spells.ne_nil {numbers : List Nat} (spells : Spells chars numbers) : chars ≠ [] := by
  cases spells with
  | single numeral => exact numeral.nonempty
  | more => simp

/-- A version is read exactly from the spellings of its components. -/
theorem ofText_eq_ok_iff {text : String} {version : Version} :
    ofText text = .ok version ↔ Spells text.toList (version.parts.map UInt64.toNat) := by
  rw [← readComponents_eq_ok_iff, ofText, ofChars]
  constructor
  · intro success
    split at success
    · cases success
    · split at success
      · cases success
      · cases success
        assumption
  · intro read
    have given := (readComponents_eq_ok_iff.mp read).ne_nil
    rw [if_neg (by simpa using given)]
    split
    · rename_i refused
      cases refused.symm.trans read
    · rename_i success
      cases success.symm.trans read
      rfl

/-- The numbers of a spelling are the components of a version. -/
theorem Spells.exists_version {numbers : List Nat} (spells : Spells chars numbers) :
    ∃ version : Version, version.parts.map UInt64.toNat = numbers := by
  induction spells with
  | single numeral =>
    have fits := Nat.lt_succ_of_le numeral.fits
    exact ⟨⟨[.ofNatLT _ fits], List.cons_ne_nil _ _⟩, by simp⟩
  | more numeral _ _ ih =>
    have fits := Nat.lt_succ_of_le numeral.fits
    obtain ⟨version, rfl⟩ := ih
    exact ⟨⟨.ofNatLT _ fits :: version.parts, List.cons_ne_nil _ _⟩, by simp⟩

theorem spells_chars (version : Version) :
    Spells version.chars (version.parts.map UInt64.toNat) := by
  obtain ⟨parts, given⟩ := version
  simp only [chars]
  induction parts with
  | nil => exact absurd rfl given
  | cons part rest ih =>
    cases rest with
    | nil => simpa using Spells.single (isNumeral_toDigits part)
    | cons other others =>
      simp only [List.map_cons, List.intercalate_cons_cons] at ih ⊢
      simpa using Spells.more (isNumeral_toDigits part) (.inl rfl) (ih (List.cons_ne_nil _ _))

theorem ofText_text (version : Version) : ofText version.text = .ok version := by
  rw [ofText_eq_ok_iff, toList_text]
  exact spells_chars version

theorem text_injective {first second : Version} (same : first.text = second.text) :
    first = second := by
  have read := ofText_text first
  rw [same, ofText_text] at read
  exact (Except.ok.inj read).symm

/-- A spelling consists of digits and separators. -/
theorem Spells.isDigit_or_isSeparator {numbers : List Nat} (spells : Spells chars numbers) :
    ∀ c ∈ chars, c.isDigit = true ∨ isSeparator c = true := by
  induction spells with
  | single numeral => exact fun c member => .inl (isDigit_iff.mpr (numeral.ascii c member))
  | more numeral separates _ ih =>
    intro c member
    rcases List.mem_append.mp member with digit | later
    · exact .inl (isDigit_iff.mpr (numeral.ascii c digit))
    · rcases List.mem_cons.mp later with rfl | later
      · exact .inr (isSeparator_iff.mpr separates)
      · exact ih c later

theorem not_mem_chars (version : Version) {c : Char} (strange : c.isDigit = false)
    (apart : isSeparator c = false) : c ∉ version.chars := by
  intro member
  rcases (spells_chars version).isDigit_or_isSeparator c member with digit | separator
  · cases strange.symm.trans digit
  · cases apart.symm.trans separator

end Spellings

/-- What is read as a version is a spelling, and is read as the version of its numbers; the text of
a version reads back as the same components, and is the one text that it is written in again. -/
theorem reads_spellings :
    (∀ text, (∃ version, ofText text = .ok version) ↔ ∃ numbers, Spells text.toList numbers) ∧
      (∀ text version, ofText text = .ok version ↔
        Spells text.toList (version.parts.map UInt64.toNat)) ∧
      (∀ (parts : List UInt64) (given : parts ≠ []),
        ofText (text ⟨parts, given⟩) = .ok ⟨parts, given⟩) ∧
      ∀ spelling written, (ofText spelling).map text = .ok written →
        (ofText written).map text = .ok written := by
  have again (version : Version) : ofText version.text = .ok version := by
    rw [ofText_eq_ok_iff, toList_text]
    exact spells_chars version
  refine ⟨fun text => ⟨?_, ?_⟩, fun _ _ => ofText_eq_ok_iff, fun parts given => again _, ?_⟩
  · rintro ⟨version, read⟩
    exact ⟨_, ofText_eq_ok_iff.mp read⟩
  · rintro ⟨numbers, spells⟩
    obtain ⟨version, rfl⟩ := spells.exists_version
    exact ⟨version, ofText_eq_ok_iff.mpr spells⟩
  · intro spelling written displayed
    cases read : ofText spelling with
    | error fault =>
      rw [read] at displayed
      cases displayed
    | ok version =>
      rw [read] at displayed
      cases displayed
      rw [again]
      rfl

example : (ofText "007_1.0").map (·.text) = .ok "7.1.0" := by cbv

end Version

end SchemaLedger
