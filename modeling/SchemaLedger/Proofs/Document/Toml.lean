import Mathlib.Data.Nat.Digits.Defs
import SchemaLedger.Document.Toml.Writing
import SchemaLedger.Proofs.Document.Format

/-!
# Assignments read back

A value can stand on a line of its own behind a bare key and an equals sign. `Denotes` says which
value the characters there are read as, and the spellings of scalars denote what they spell. A line
is read as one assignment (`statements?_line`), assignments to different keys build the table of
these keys (`build?_assignments`), and the other way around each entry is written as its line
(`lineChars?_of_isLine`), so this is a format of TOML texts (`isToml_format`).
-/

namespace SchemaLedger.Document.Toml

/-- What stands at the end of a line is read as a value. -/
structure Denotes (chars : List Char) (value : Value) : Prop where
  unblanked : ∀ rest, skipBlanks (chars ++ '\n' :: rest) = chars ++ '\n' :: rest
  read : ∀ rest, value? (chars ++ '\n' :: rest) = some (value, '\n' :: rest)

/-! ## Texts -/

section Texts

variable {chars rest : List Char}

theorem quote_eq (plain : IsPlainText chars) : quote chars = '"' :: (chars ++ ['"']) := by
  have same : ∀ c ∈ chars, quoteChar c = [c] := by
    intro c member
    obtain ⟨quoted, escaped, control⟩ := plain c member
    simp [quoteChar, quoted, escaped, control]
  rw [quote, List.flatMap_def, List.map_congr_left same, ← List.flatMap_def,
    List.flatMap_singleton']

/-- Plain characters are read up to the closing quote. -/
theorem readUntil_plain (plain : IsPlainText chars) {fuel : Nat} (enough : chars.length < fuel) :
    readUntil (closeOne '"') basicStep? fuel (chars ++ '"' :: rest) = some (chars, rest) := by
  induction chars generalizing fuel with
  | nil =>
    cases fuel with
    | zero => cases enough
    | succ fuel => rfl
  | cons c others ih =>
    cases fuel with
    | zero => cases enough
    | succ fuel =>
      obtain ⟨quoted, escaped, control⟩ := plain c List.mem_cons_self
      have read := ih (fun d member => plain d (List.mem_cons_of_mem _ member))
        (Nat.lt_of_succ_lt_succ enough)
      have stepped :
          basicStep? (c :: (others ++ '"' :: rest)) = some ([c], others ++ '"' :: rest) := by
        simp [basicStep?, isPlain, quoted, control]
      rw [List.cons_append, readUntil]
      simp [closeOne, quoted, stepped, read]

/-- A quoted text is read as its characters. An empty one is told from a tripled quote by what
follows. -/
theorem quotedText?_quote (plain : IsPlainText chars) {c : Char} (apart : c ≠ '"') :
    quotedText? (quote chars ++ c :: rest) = some (chars, c :: rest) := by
  have read : readUntil (closeOne '"') basicStep? ((chars ++ '"' :: c :: rest).length + 1)
      (chars ++ '"' :: c :: rest) = some (chars, c :: rest) :=
    readUntil_plain plain (by simp only [List.length_append, List.length_cons]; omega)
  rw [quote_eq plain, List.cons_append, List.append_assoc, List.singleton_append]
  cases chars with
  | nil => simpa [quotedText?, lineText?, apart] using read
  | cons first others =>
    have quoted := (plain first List.mem_cons_self).1
    simpa [quotedText?, lineText?, quoted] using read

theorem denotes_quote (plain : IsPlainText chars) :
    Denotes (quote chars) (.text (.ofList chars)) where
  unblanked _ := rfl
  read rest := by
    have read : quotedText? (quote chars ++ '\n' :: rest) = some (chars, '\n' :: rest) :=
      quotedText?_quote plain (by decide)
    rw [quote, List.cons_append] at read ⊢
    rw [value?, nested?, scalar?, read]
    · rfl
    · simp
    · simp

end Texts

/-! ## Integers -/

section Digits

variable {d : Char} {digits rest : List Char}

theorem moreDigits?_append (ascii : ∀ c ∈ digits, c.isDigit = true) :
    moreDigits? Char.isDigit (digits ++ '\n' :: rest) = some (digits, '\n' :: rest) := by
  induction digits with
  | nil => simp [moreDigits?]
  | cons c others ih =>
    have digit := ascii c List.mem_cons_self
    have apart : c ≠ '_' := by
      rintro rfl
      cases digit
    have read := ih fun d member => ascii d (List.mem_cons_of_mem _ member)
    rw [List.cons_append, moreDigits?]
    · simp [digit, read]
    · exact fun _ _ same => absurd same apart
    · exact fun same => absurd same apart

/-- Behind the digits of a date or a time, neither its next part nor a separator follows. -/
theorem expect?_drop (ascii : ∀ c ∈ digits, c.isDigit = true) (separator : Char)
    (strange : separator.isDigit = false) (unbroken : separator ≠ '\n') {width number : Nat}
    {after : List Char}
    (read : fixedNumber? width (digits ++ '\n' :: rest) = some (number, after)) :
    expect? separator after = none := by
  rw [fixedNumber?] at read
  simp only [Option.ite_none_right_eq_some, Bool.and_eq_true, Option.some.injEq,
    Prod.mk.injEq] at read
  obtain ⟨⟨_, numeric⟩, -, rfl⟩ := read
  have inside : width ≤ digits.length := by
    by_contra beyond
    obtain ⟨more, rfl⟩ := Nat.exists_eq_add_of_lt (Nat.lt_of_not_le beyond)
    have member : '\n' ∈ (digits ++ '\n' :: rest).take (digits.length + more + 1) := by
      simp [List.take_append, Nat.add_assoc]
    exact absurd (List.all_eq_true.mp numeric _ member) (by decide)
  rw [List.drop_append_of_le_length inside]
  cases left : digits.drop width with
  | nil => simp [expect?, unbroken.symm]
  | cons c others =>
    have digit := ascii c (List.mem_of_mem_drop (left ▸ List.mem_cons_self))
    have other : c ≠ separator := by
      rintro rfl
      cases strange.symm.trans digit
    simp [expect?, other]

theorem moment?_append (ascii : ∀ c ∈ digits, c.isDigit = true) :
    moment? (digits ++ '\n' :: rest) = none := by
  have undated : date? (digits ++ '\n' :: rest) = none := by
    rw [date?]
    cases read : fixedNumber? 4 (digits ++ '\n' :: rest) with
    | none => rfl
    | some year =>
      have stopped := expect?_drop ascii '-' rfl (by decide) read
      simp [stopped]
  have untimed : time? (digits ++ '\n' :: rest) = none := by
    rw [time?]
    cases read : fixedNumber? 2 (digits ++ '\n' :: rest) with
    | none => rfl
    | some hour =>
      have stopped := expect?_drop ascii ':' rfl (by decide) read
      simp [stopped]
  rw [moment?, undated, untimed]
  rfl

/-- Digits up to the end of a line are a decimal integer if no zero leads them. -/
theorem number?_append (ascii : ∀ c ∈ d :: digits, c.isDigit = true)
    (canonical : d = '0' → digits = []) (rest : List Char) :
    number? (d :: (digits ++ '\n' :: rest)) =
      (integer? (Nat.ofDigitChars 10 (d :: digits) 0)).map (·, '\n' :: rest) := by
  have first := ascii d List.mem_cons_self
  have others : ∀ c ∈ digits, c.isDigit = true :=
    fun c member => ascii c (List.mem_cons_of_mem _ member)
  have apart {c : Char} (strange : c.isDigit = false) : d ≠ c := by
    rintro rfl
    cases strange.symm.trans first
  have unsigned :
      splitSign (d :: (digits ++ '\n' :: rest)) = (false, d :: (digits ++ '\n' :: rest)) := by
    simp [splitSign, apart]
  have read :
      decimalDigits? (d :: (digits ++ '\n' :: rest)) = some (d :: digits, '\n' :: rest) := by
    by_cases zero : d = '0'
    · rw [zero, canonical zero]
      rfl
    · rw [decimalDigits?]
      · simp [digits?, first, moreDigits?_append others]
      · exact fun _ same => absurd (List.cons.inj same).1 zero
  have whole : decimal? (d :: (digits ++ '\n' :: rest)) =
      (integer? (Nat.ofDigitChars 10 (d :: digits) 0)).map (·, '\n' :: rest) := by
    rw [decimal?, unsigned]
    split
    · rename_i same
      exact absurd (List.cons.inj (Prod.mk.inj same).2).1 (apart rfl)
    · rename_i same
      exact absurd (List.cons.inj (Prod.mk.inj same).2).1 (apart rfl)
    · rename_i same
      cases same
      simp only [read, Option.bind_eq_bind, Option.bind_some, decimalEnd?]
      simp only [goesOn, Char.reduceBEq, Bool.or_self, Bool.false_eq_true, ↓reduceIte]
      cases integer? (Nat.ofDigitChars 10 (d :: digits) 0) <;> rfl
  -- What follows the first digit is a digit or the end of the line, so no base is named.
  have unbased {c : Char} (strange : c.isDigit = false) (unbroken : c ≠ '\n') (after : List Char) :
      d :: (digits ++ '\n' :: rest) ≠ '0' :: c :: after := by
    intro begun
    cases digits with
    | nil => exact unbroken (List.cons.inj (List.cons.inj begun).2).1.symm
    | cons next more =>
      have digit := others next List.mem_cons_self
      rw [(List.cons.inj (List.cons.inj begun).2).1] at digit
      cases strange.symm.trans digit
  rw [number?, ← List.cons_append, moment?_append ascii, List.cons_append]
  · exact whole
  · exact unbased rfl (by decide)
  · exact unbased rfl (by decide)
  · exact unbased rfl (by decide)

end Digits

/-- Only zero is written with a leading zero. -/
theorem eq_zero_of_head?_toDigits {number : Nat}
    (head : (Nat.toDigits 10 number).head? = some '0') : number = 0 := by
  have single : ∀ digit < 10, Nat.digitChar digit = '0' → digit = 0 := by decide
  induction number using Nat.strongRecOn with
  | ind number ih =>
    by_cases small : number < 10
    · rw [Nat.toDigits_of_lt_base small] at head
      exact single number small (Option.some.inj head)
    · rw [Nat.toDigits_of_base_le (by decide) (by omega), List.head?_append,
        List.head?_eq_some_head Nat.toDigits_ne_nil, Option.some_or,
        ← List.head?_eq_some_head] at head
      have least := ih (number / 10) (by omega) head
      omega

theorem denotes_toDigits {number : Nat} (fits : (number : Int) ≤ Int64.maxValue.toInt) :
    Denotes (Nat.toDigits 10 number) (.int number) := by
  have ascii : ∀ c ∈ Nat.toDigits 10 number, c.isDigit = true :=
    fun _ member => Nat.isDigit_of_mem_toDigits (by decide) (by decide) member
  have denoted : Nat.ofDigitChars 10 (Nat.toDigits 10 number) 0 = number :=
    Nat.ofDigitChars_toDigits (by decide) (by decide)
  have canonical : (Nat.toDigits 10 number).head? = some '0' → number = 0 :=
    eq_zero_of_head?_toDigits
  have whole : integer? number = some (.int number) := by simp [integer?, fits]
  cases digits : Nat.toDigits 10 number with
  | nil => exact absurd digits Nat.toDigits_ne_nil
  | cons d others =>
    rw [digits] at ascii denoted canonical
    have leading : d = '0' → others = [] := by
      intro zero
      have least : number = 0 := canonical (by rw [zero]; rfl)
      rw [least] at digits
      exact (List.cons.inj digits).2.symm
    have apart {c : Char} (strange : c.isDigit = false) : d ≠ c := by
      rintro rfl
      cases strange.symm.trans (ascii d List.mem_cons_self)
    refine ⟨fun rest => ?_, fun rest => ?_⟩
    · simp [skipBlanks, isBlank, apart]
    · have read := number?_append ascii leading rest
      rw [denoted, whole] at read
      have scalar : scalar? (d :: (others ++ '\n' :: rest)) = some (.int number, '\n' :: rest) := by
        rw [scalar?]
        · exact read
        all_goals exact fun _ same => apart rfl (List.cons.inj same).1
      rw [value?, List.cons_append, nested?]
      · exact scalar
      all_goals exact fun _ _ _ same => apart rfl (List.cons.inj same).1

/-! ## Lines -/

section Lines

variable {key chars : List Char} {value : Value}

/-- A bare key begins with no character that means something else. -/
theorem IsBareKey.exists_cons (bare : IsBareKey key) :
    ∃ c rest, key = c :: rest ∧ ∀ d, isBare d = false → c ≠ d := by
  obtain ⟨c, rest, rfl⟩ := List.exists_cons_of_ne_nil bare.nonempty
  refine ⟨c, rest, rfl, fun d strange same => ?_⟩
  rw [← same, bare.bare c List.mem_cons_self] at strange
  cases strange

theorem skipBlanks_append (bare : IsBareKey key) (rest : List Char) :
    skipBlanks (key ++ rest) = key ++ rest := by
  obtain ⟨c, others, rfl, apart⟩ := bare.exists_cons
  simp [skipBlanks, isBlank, apart ' ' rfl, apart '\t' rfl]

theorem skipMark_append (bare : IsBareKey key) (rest : List Char) :
    skipMark (key ++ rest) = key ++ rest := by
  obtain ⟨c, others, rfl, apart⟩ := bare.exists_cons
  rw [List.cons_append, skipMark]
  exact fun _ same => apart _ rfl (List.cons.inj same).1

theorem key?_append (bare : IsBareKey key) (rest : List Char) :
    key? (key ++ ' ' :: rest) = some (.ofList key, ' ' :: rest) := by
  have taken : (key ++ ' ' :: rest).takeWhile isBare = key := by
    rw [List.takeWhile_append_of_pos bare.bare, List.takeWhile_cons_of_neg (by decide),
      List.append_nil]
  have dropped : (key ++ ' ' :: rest).dropWhile isBare = ' ' :: rest := by
    rw [List.dropWhile_append_of_pos bare.bare, List.dropWhile_cons_of_neg (by decide)]
  obtain ⟨c, others, rfl, apart⟩ := bare.exists_cons
  rw [List.cons_append] at taken dropped ⊢
  rw [key?, taken, dropped]
  · exact fun _ same => apart _ rfl (List.cons.inj same).1
  · exact fun _ same => apart _ rfl (List.cons.inj same).1

theorem keys?_append (bare : IsBareKey key) (rest : List Char) (limit : Nat) :
    keys? (limit + 1) (key ++ ' ' :: '=' :: rest) = some (⟨[], .ofList key⟩, '=' :: rest) := by
  rw [keys?, skipBlanks_append bare, key?_append bare]
  rfl

theorem assignment?_line (bare : IsBareKey key) (denotes : Denotes chars value)
    (rest : List Char) :
    assignment? value? (key ++ ' ' :: '=' :: ' ' :: (chars ++ '\n' :: rest)) =
      some (⟨⟨[], .ofList key⟩, value⟩, '\n' :: rest) := by
  have path : path? (key ++ ' ' :: '=' :: ' ' :: (chars ++ '\n' :: rest)) =
      some (⟨[], .ofList key⟩, '=' :: ' ' :: (chars ++ '\n' :: rest)) := keys?_append bare _ _
  have spaced : skipBlanks (' ' :: (chars ++ '\n' :: rest)) = chars ++ '\n' :: rest :=
    denotes.unblanked rest
  simp [assignment?, path, expect?, spaced, denotes.read]

theorem statement?_line (bare : IsBareKey key) (denotes : Denotes chars value) (rest : List Char) :
    statement? (key ++ ' ' :: '=' :: ' ' :: (chars ++ '\n' :: rest)) =
      some (some (.assign ⟨⟨[], .ofList key⟩, value⟩), '\n' :: rest) := by
  have read := assignment?_line bare denotes rest
  obtain ⟨c, others, rfl, apart⟩ := bare.exists_cons
  rw [List.cons_append] at read ⊢
  have begun (after : List Char) : lineEnd? (skipComment (c :: after)) = none := by
    rw [skipComment, lineEnd?, newline?]
    · exact fun _ same => apart _ rfl (List.cons.inj same).1
    · exact fun _ same => apart _ rfl (List.cons.inj same).1
    · exact List.cons_ne_nil _ _
    · exact fun _ same => apart _ rfl (List.cons.inj same).1
  rw [statement?, begun, read]
  · rfl
  · exact fun _ same => apart _ rfl (List.cons.inj same).1
  · exact fun _ same => apart _ rfl (List.cons.inj same).1

/-- A line with a key and a value is read as one assignment. -/
theorem statements?_line (bare : IsBareKey key) (denotes : Denotes chars value) (rest : List Char)
    (fuel : Nat) :
    statements? (fuel + 1) (key ++ ' ' :: '=' :: ' ' :: (chars ++ '\n' :: rest)) =
      (statements? fuel rest).map (.assign ⟨⟨[], .ofList key⟩, value⟩ :: ·) := by
  have ended : trailing? ('\n' :: rest) = some rest := rfl
  rw [statements?, skipBlanks_append bare, statement?_line bare denotes]
  · cases read : statements? fuel rest <;> simp [ended, read]
  · simp [bare.nonempty]

end Lines

/-! ## Tables -/

theorem put_append {entries : Entries} {key : String} (node : Node)
    (fresh : key ∉ entries.map (·.1)) : entries.put key node = entries ++ [(key, node)] := by
  induction entries with
  | nil => rfl
  | cons entry rest ih =>
    obtain ⟨other, old⟩ := entry
    obtain ⟨apart, later⟩ : key ≠ other ∧ key ∉ rest.map (·.1) := by simpa using fresh
    simp [Entries.put, apart.symm, ih later]

/-- Assignments to keys that are not there yet add them, one after the other. -/
theorem foldlM_perform {entries : List (String × Value)} (root : Entries)
    (distinct : (root.map (·.1) ++ entries.map (·.1)).Nodup) :
    (entries.map fun (key, value) => Statement.assign ⟨⟨[], key⟩, value⟩).foldlM
        Construction.perform ⟨root, []⟩ =
      some ⟨root ++ entries.map fun (key, value) => (key, .leaf value), []⟩ := by
  induction entries generalizing root with
  | nil => simp
  | cons entry rest ih =>
    obtain ⟨key, value⟩ := entry
    have fresh : key ∉ root.map (·.1) := fun known =>
      (List.nodup_append.mp distinct).2.2 key known key List.mem_cons_self rfl
    have absent : root.lookup key = none := by
      refine List.lookup_eq_none_iff.mpr fun entry member => ?_
      exact bne_iff_ne.mpr fun same => fresh (same ▸ List.mem_map_of_mem member)
    have performed : Construction.perform ⟨root, []⟩ (.assign ⟨⟨[], key⟩, value⟩) =
        some ⟨root ++ [(key, .leaf value)], []⟩ := by
      simp [Construction.perform, Entries.changeAt, Entries.assign, Entries.assignAt, absent,
        put_append _ fresh]
    have rest := ih (root ++ [(key, .leaf value)]) (by simpa using distinct)
    rw [List.append_assoc] at rest
    rw [List.map_cons, List.foldlM_cons, performed]
    exact rest

theorem toValues_leaves (entries : List (String × Value)) :
    Entries.toValues (entries.map fun (key, value) => (key, .leaf value)) = entries := by
  induction entries with
  | nil => rfl
  | cons entry rest ih => simp [Entries.toValues, Node.toValue, ih]

/-- Assignments to different keys build the table of these keys. -/
theorem build?_assignments {entries : List (String × Value)}
    (distinct : (entries.map (·.1)).Nodup) :
    build? (entries.map fun (key, value) => .assign ⟨⟨[], key⟩, value⟩) =
      some (.table entries) := by
  rw [build?, foldlM_perform [] (by simpa using distinct)]
  simp [toValues_leaves]

/-! ## The format -/

theorem Spells.denotes {chars : List Char} {value : Value} (spells : Spells chars value) :
    Denotes chars value := by
  cases spells with
  | yes => exact ⟨fun _ => rfl, fun _ => rfl⟩
  | no => exact ⟨fun _ => rfl, fun _ => rfl⟩
  | text plain => exact quote_eq plain ▸ denotes_quote plain
  | int fits => exact denotes_toDigits (Int.ofNat_le.mpr fits)

theorem Spells.scalarChars?_eq {chars : List Char} {value : Value} (spells : Spells chars value) :
    scalarChars? value = some chars := by
  cases spells with
  | yes => rfl
  | no => rfl
  | text plain => simp [scalarChars?, quote_eq plain]
  | @int number fits =>
    have bounds : Int64.minValue.toInt ≤ (number : Int) ∧ (number : Int) ≤ Int64.maxValue.toInt :=
      ⟨Int.le_trans (by decide) (Int.natCast_nonneg number), Int.ofNat_le.mpr fits⟩
    rw [scalarChars?, if_pos bounds]
    rfl

section Entries

variable {lines : List (List Char)} {entries : Fields}

theorem statements?_lines (spelled : List.Forall₂ IsLine lines entries) {fuel : Nat}
    (enough : lines.length < fuel) :
    statements? fuel lines.flatten =
      some (entries.map fun (key, value) => .assign ⟨⟨[], key⟩, value⟩) := by
  induction spelled generalizing fuel with
  | nil =>
    cases fuel with
    | zero => cases enough
    | succ fuel => rfl
  | @cons line entry lines entries here _ ih =>
    cases fuel with
    | zero => cases enough
    | succ fuel =>
      obtain ⟨bare, chars, spells, rfl⟩ := here
      have read := statements?_line bare spells.denotes lines.flatten fuel
      rw [ih (Nat.lt_of_succ_lt_succ enough)] at read
      simpa using read

theorem length_le_length_flatten (spelled : List.Forall₂ IsLine lines entries) :
    lines.length ≤ lines.flatten.length := by
  induction spelled with
  | nil => exact Nat.le_refl _
  | cons here _ ih =>
    obtain ⟨_, _, _, rfl⟩ := here
    simp only [List.flatten_cons, List.length_append, List.length_cons]
    omega

/-- Lines with different keys are read as the table of their entries. -/
theorem document?_lines (spelled : List.Forall₂ IsLine lines entries)
    (distinct : (entries.map (·.1)).Nodup) :
    document? (.ofList lines.flatten) = some (.table entries) := by
  have unmarked : skipMark lines.flatten = lines.flatten := by
    cases spelled with
    | nil => rfl
    | cons here _ =>
      obtain ⟨bare, _, _, rfl⟩ := here
      simp only [List.flatten_cons, List.append_assoc, skipMark_append bare]
  have read := statements?_lines spelled (Nat.lt_succ_of_le (length_le_length_flatten spelled))
  rw [document?, String.toList_ofList, unmarked, read]
  exact build?_assignments distinct

theorem keyChars_of_isBareKey {key : String} (bare : IsBareKey key.toList) :
    keyChars key = key.toList := by
  have given : key ≠ "" := fun empty => bare.nonempty (congrArg String.toList empty)
  have all : key.toList.all isBare = true := List.all_eq_true.mpr bare.bare
  simp only [keyChars, bne_iff_ne.mpr given, all, Bool.and_self, if_true]

/-- There is one line for an entry, and it is the one that is written. -/
theorem lineChars?_of_isLine {line : List Char} {entry : String × Value}
    (spelled : IsLine line entry) : lineChars? entry = some line := by
  obtain ⟨bare, chars, spells, rfl⟩ := spelled
  simp [lineChars?, spells.scalarChars?_eq, keyChars_of_isBareKey bare]

theorem exists_mapM_lineChars? (scalar : ∀ entry ∈ entries, ∃ line, IsLine line entry) :
    ∃ lines, entries.mapM lineChars? = some lines ∧ List.Forall₂ IsLine lines entries := by
  induction entries with
  | nil => exact ⟨[], rfl, .nil⟩
  | cons entry rest ih =>
    obtain ⟨line, spelled⟩ := scalar entry List.mem_cons_self
    obtain ⟨lines, written, others⟩ := ih fun other member =>
      scalar other (List.mem_cons_of_mem _ member)
    refine ⟨line :: lines, ?_, .cons spelled others⟩
    simp [List.mapM_cons, lineChars?_of_isLine spelled, written]

theorem mapM_lineChars?_eq_none {entry : String × Value} (member : entry ∈ entries)
    (refused : lineChars? entry = none) : entries.mapM lineChars? = none := by
  induction entries with
  | nil => cases member
  | cons other rest ih =>
    rw [List.mapM_cons]
    rcases List.mem_cons.mp member with rfl | later
    · rw [refused]
      rfl
    · rw [ih later]
      cases lineChars? other <;> rfl

end Entries

theorem isToml_format : format.IsToml where
  print {entries} _ scalar := by
    obtain ⟨lines, written, spelled⟩ := exists_mapM_lineChars? scalar
    have table : tableChars? entries = some lines.flatten := by rw [tableChars?, written]; rfl
    exact ⟨.ofList lines.flatten, by simp only [format, table], lines, spelled, rfl⟩
  parse {entries text} distinct lines := by
    obtain ⟨lines, spelled, rfl⟩ := lines
    exact ⟨entries, by simp only [format, document?_lines spelled distinct], .refl _⟩
  refuse {entries key number} member beyond := by
    have present : (key, Value.int number) ∈ entries.present :=
      List.mem_filter.mpr ⟨member, rfl⟩
    have unfit : ¬(Int64.minValue.toInt ≤ number ∧ number ≤ Int64.maxValue.toInt) := fun fits =>
      Int.not_le.mpr beyond fits.2
    have refused : lineChars? (key, .int number) = none := by
      simp only [lineChars?, scalarChars?, unfit, if_false, Option.map_none]
    have table : tableChars? entries = none := by
      rw [tableChars?, mapM_lineChars?_eq_none present refused]
      rfl
    exact ⟨"value out of range", by simp only [format, table]⟩

end SchemaLedger.Document.Toml
