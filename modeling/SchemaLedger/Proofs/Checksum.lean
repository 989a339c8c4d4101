import SchemaLedger.Checksum

/-!
# Spellings of scripts

The lines of a script can be written down in many ways: each line may end in a line feed or in a
carriage return and a line feed, the last one need not end at all, and a byte-order mark may stand
first. All these spellings feed the same bytes, those of the lines one after the other, so they have
one checksum; and spellings feed the same bytes only if their lines amount to the same text.
-/

namespace SchemaLedger

/-- How a line ends. -/
inductive LineEnd where
  | lineFeed
  | returnAndFeed

def LineEnd.text : LineEnd → String
  | lineFeed => "\n"
  | returnAndFeed => "\r\n"

/-- A way of writing lines down. -/
structure Spelling where
  /-- A byte-order mark stands first. -/
  marked : Bool
  /-- The lines that end, and how each of them ends. -/
  ended : List (String × LineEnd)
  /-- The last line, if it does not end. -/
  unended : Option String

namespace Spelling

def lines (spelling : Spelling) : List String :=
  spelling.ended.map (·.1) ++ spelling.unended.toList

def body (spelling : Spelling) : String :=
  String.join (spelling.ended.map fun (line, ending) => line ++ ending.text)
    ++ spelling.unended.getD ""

def text (spelling : Spelling) : String :=
  (if spelling.marked then "\uFEFF" else "") ++ spelling.body

end Spelling

/-- The texts can be lines of a script: they can be told from what ends them, and the first one from
a byte-order mark. -/
structure AreLines (lines : List String) : Prop where
  unbroken : ∀ line ∈ lines, '\n' ∉ line.toList
  unreturned : ∀ line ∈ lines, line.toList.getLast? ≠ some '\r'
  unmarked : ∀ first ∈ lines.head?, first.toList.head? ≠ some '\uFEFF'

namespace Fingerprint

section Terminators

variable {line rest : List Char}

/-- What does not belong to a line end is kept. -/
theorem dropTerminators_append (unbroken : '\n' ∉ line) (unreturned : line.getLast? ≠ some '\r')
    (rest : List Char) :
    dropTerminators (line ++ rest) = line ++ dropTerminators rest := by
  induction line with
  | nil => rfl
  | cons c others ih =>
    obtain ⟨here, later⟩ : '\n' ≠ c ∧ '\n' ∉ others := by simpa using unbroken
    have kept : dropTerminators (others ++ rest) = others ++ dropTerminators rest := by
      refine ih later fun last => unreturned ?_
      rw [List.getLast?_cons, last, Option.getD_some]
    rw [List.cons_append, dropTerminators, kept, List.cons_append]
    · -- A carriage return is not the last character, and no line feed follows it within the line.
      rintro after rfl begun
      cases others with
      | nil => exact unreturned rfl
      | cons next others => exact later ((List.cons.inj begun).1 ▸ List.mem_cons_self)
    · exact fun feed => here feed.symm

theorem dropTerminators_lineEnd (ending : LineEnd) :
    dropTerminators (ending.text.toList ++ rest) = dropTerminators rest := by
  cases ending <;> simp [LineEnd.text, dropTerminators]

/-- Lines that end are left without their ends. -/
theorem dropTerminators_join {ended : List (String × LineEnd)}
    (unbroken : ∀ line ∈ ended.map (·.1), '\n' ∉ line.toList)
    (unreturned : ∀ line ∈ ended.map (·.1), line.toList.getLast? ≠ some '\r') :
    dropTerminators
        ((String.join (ended.map fun (line, ending) => line ++ ending.text)).toList ++ rest) =
      (String.join (ended.map (·.1))).toList ++ dropTerminators rest := by
  induction ended with
  | nil => simp
  | cons first others ih =>
    obtain ⟨line, ending⟩ := first
    rw [List.map_cons, List.forall_mem_cons] at unbroken unreturned
    have left := ih unbroken.2 unreturned.2
    simp only [List.map_cons, String.join_cons, String.toList_append, List.append_assoc] at left ⊢
    rw [dropTerminators_append unbroken.1 unreturned.1, dropTerminators_lineEnd, left]

end Terminators

theorem utf8_toList (text : String) : utf8 text.toList = text.toUTF8.data.toList := by
  rw [String.toUTF8_eq_toByteArray, ← String.utf8Encode_toList, List.utf8Encode,
    List.toList_data_toByteArray]
  rfl

/-- Of a mark and a text without one, the text is left. -/
theorem dropMark_append {chars : List Char} (unmarked : chars.head? ≠ some '\uFEFF')
    (marked : Bool) :
    dropMark ((if marked then "\uFEFF" else "").toList ++ chars) = chars := by
  cases marked with
  | true => rfl
  | false =>
    cases chars with
    | nil => rfl
    | cons c rest =>
      have other : c ≠ '\uFEFF' := by simpa using unmarked
      simp [dropMark, other]

section Spellings

variable {spelling other : Spelling}

/-- The lines are what is left when line ends are dropped. -/
theorem dropTerminators_body (proper : AreLines spelling.lines) :
    dropTerminators spelling.body.toList = (String.join spelling.lines).toList := by
  obtain ⟨marked, ended, unended⟩ := spelling
  obtain ⟨unbroken, unreturned, _⟩ := proper
  simp only [Spelling.lines, List.forall_mem_append] at unbroken unreturned
  have last : dropTerminators (unended.getD "").toList = (unended.getD "").toList := by
    cases unended with
    | none => rfl
    | some line =>
      simpa [dropTerminators] using dropTerminators_append
        (unbroken.2 line List.mem_cons_self) (unreturned.2 line List.mem_cons_self) []
  rw [Spelling.body, String.toList_append, dropTerminators_join unbroken.1 unreturned.1, last]
  cases unended <;> simp [Spelling.lines]

/-- Without a mark before it, the first line begins with none. -/
theorem head?_body_ne (proper : AreLines spelling.lines) :
    spelling.body.toList.head? ≠ some '\uFEFF' := by
  obtain ⟨marked, ended, unended⟩ := spelling
  have unmarked := proper.unmarked
  cases ended with
  | nil =>
    cases unended with
    | none => simp [Spelling.body]
    | some line => simpa [Spelling.body, Spelling.lines] using unmarked
  | cons first others =>
    obtain ⟨line, ending⟩ := first
    have here : line.toList.head? ≠ some '\uFEFF' := by simpa [Spelling.lines] using unmarked
    cases begun : line.toList with
    | nil => cases ending <;> simp [Spelling.body, LineEnd.text, begun]
    | cons c rest => simpa [Spelling.body, begun] using here

/-- A spelling feeds the lines, one after the other. -/
theorem feedScript_text (fingerprint : Fingerprint) (proper : AreLines spelling.lines) :
    (fingerprint.feedScript spelling.text).bytes =
      fingerprint.bytes ++ (String.join spelling.lines).toUTF8.data.toList := by
  rw [feedScript, bytes_feed, Spelling.text, String.toList_append,
    dropMark_append (head?_body_ne proper), dropTerminators_body proper, utf8_toList]

/-- Texts of different characters have different bytes. -/
theorem bytes_inj {first second : String} :
    first.toUTF8.data.toList = second.toUTF8.data.toList ↔ first = second := by
  rw [Array.toList_inj, ← ByteArray.ext_iff, String.toUTF8_eq_toByteArray,
    String.toUTF8_eq_toByteArray, String.toByteArray_inj]

/-- The checksum of a script is made of the digest of its lines, one after the other. -/
theorem scriptChecksum_text (proper : AreLines spelling.lines) :
    scriptChecksum spelling.text = .ofInt (Digest.ofBigEndian
      ((Digest.sha256 (String.join spelling.lines).toUTF8.data.toList).take 4)) := by
  rw [scriptChecksum, checksum, feedScript_text empty proper]
  rfl

/-- Scripts feed their lines, one after the other, whatever their line ends and whether or not a
mark stands first, and the checksum is made of the digest of these bytes. So spellings of the same
lines have one checksum, and spellings of lines that amount to different texts feed different
bytes. -/
theorem spelling_irrelevant (proper : AreLines spelling.lines) (properly : AreLines other.lines) :
    (∀ fingerprint : Fingerprint,
      (fingerprint.feedScript spelling.text).bytes =
        fingerprint.bytes ++ (String.join spelling.lines).toUTF8.data.toList) ∧
      scriptChecksum spelling.text = .ofInt (Digest.ofBigEndian
        ((Digest.sha256 (String.join spelling.lines).toUTF8.data.toList).take 4)) ∧
      (spelling.lines = other.lines → scriptChecksum spelling.text = scriptChecksum other.text) ∧
      (String.join spelling.lines ≠ String.join other.lines → ∀ fingerprint : Fingerprint,
        (fingerprint.feedScript spelling.text).bytes ≠
          (fingerprint.feedScript other.text).bytes) := by
  refine ⟨fun fingerprint => feedScript_text fingerprint proper, scriptChecksum_text proper,
    fun same => ?_, ?_⟩
  · rw [scriptChecksum_text proper, scriptChecksum_text properly, same]
  · intro different fingerprint equal
    rw [feedScript_text _ proper, feedScript_text _ properly] at equal
    exact different (bytes_inj.mp (List.append_cancel_left equal))

end Spellings

section Invoices

/-- Lines of which one is empty and one holds a carriage return, as one system writes them. -/
def markedInvoices : Spelling :=
  ⟨true, [("crée\rtable;", .returnAndFeed), ("", .lineFeed), ("commit;", .returnAndFeed)], none⟩

/-- The same lines as another system writes them. -/
def plainInvoices : Spelling :=
  ⟨false, [("crée\rtable;", .lineFeed), ("", .lineFeed)], some "commit;"⟩

/-- Other lines. -/
def editedInvoices : Spelling := ⟨false, [("crée table;", .lineFeed)], some "commit;"⟩

theorem spelling_irrelevant_invoices :
    (AreLines markedInvoices.lines ∧ AreLines plainInvoices.lines ∧ AreLines editedInvoices.lines) ∧
      (empty.feedScript markedInvoices.text).bytes =
        "crée\rtable;commit;".toUTF8.data.toList ∧
      scriptChecksum markedInvoices.text = .ofInt (Digest.ofBigEndian
        ((Digest.sha256 "crée\rtable;commit;".toUTF8.data.toList).take 4)) ∧
      scriptChecksum markedInvoices.text = scriptChecksum plainInvoices.text ∧
      (empty.feedScript markedInvoices.text).bytes ≠
        (empty.feedScript editedInvoices.text).bytes := by
  have marked : AreLines markedInvoices.lines := ⟨by decide, by decide, by decide⟩
  have plain : AreLines plainInvoices.lines := ⟨by decide, by decide, by decide⟩
  have edited : AreLines editedInvoices.lines := ⟨by decide, by decide, by decide⟩
  refine ⟨⟨marked, plain, edited⟩, (spelling_irrelevant marked plain).1 empty,
    (spelling_irrelevant marked plain).2.1, (spelling_irrelevant marked plain).2.2.1 rfl, ?_⟩
  exact (spelling_irrelevant marked edited).2.2.2 (by decide) empty

end Invoices

end Fingerprint

end SchemaLedger
