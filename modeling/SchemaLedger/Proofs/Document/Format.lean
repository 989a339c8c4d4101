import Mathlib.Data.List.Forall2
import SchemaLedger.Document.Toml.Term

/-!
# What a TOML format is trusted with

Of TOML 1.0, a table of scalars takes little: an assignment to a line, with a bare key, an equals
sign and the spelling of a Boolean, of a text in double quotes that needs no escapes, or of a
decimal integer. A format is trusted to print such tables as such lines, to parse such lines as what
they assign, in whatever order it keeps the keys, and to refuse integers beyond 64 signed bits.
-/

namespace SchemaLedger.Document

namespace Toml

/-- The characters stand for themselves between double quotes. -/
def IsPlainText (chars : List Char) : Prop :=
  ∀ c ∈ chars, c ≠ '"' ∧ c ≠ '\\' ∧ isControl c = false

instance (chars : List Char) : Decidable (IsPlainText chars) :=
  decidable_of_iff (chars.all fun c => c != '"' && c != '\\' && !isControl c)
    (by simp [IsPlainText, and_assoc])

/-- A key that needs no quotes. -/
structure IsBareKey (key : List Char) : Prop where
  bare : ∀ c ∈ key, isBare c = true
  nonempty : key ≠ []

/-- The characters spell the scalar. -/
inductive Spells : List Char → Value → Prop where
  | yes : Spells "true".toList (.bool true)
  | no : Spells "false".toList (.bool false)
  | text {chars : List Char} (plain : IsPlainText chars) :
      Spells ('"' :: (chars ++ ['"'])) (.text (.ofList chars))
  | int {number : Nat} (fits : number ≤ 9223372036854775807) :
      Spells (Nat.toDigits 10 number) (.int number)

/-- The line assigns the value of an entry to its key. -/
structure IsLine (line : List Char) (entry : String × Value) : Prop where
  bare : IsBareKey entry.1.toList
  spelled : ∃ chars, Spells chars entry.2 ∧
    line = entry.1.toList ++ ' ' :: '=' :: ' ' :: (chars ++ ['\n'])

/-- The text has a line for each entry. -/
def IsTableText (text : String) (entries : Fields) : Prop :=
  ∃ lines, List.Forall₂ IsLine lines entries ∧ text = .ofList lines.flatten

end Toml

open Toml

/-- A format of TOML texts, as far as tables of scalars are concerned. -/
structure Format.IsToml (toml : Format) : Prop where
  /-- Entries without a value are left out. -/
  print {entries : Fields} (distinct : (entries.map (·.1)).Nodup)
    (scalar : ∀ entry ∈ entries.present, ∃ line, IsLine line entry) :
    ∃ text, toml.print (.table entries) = .ok text ∧ IsTableText text entries.present
  parse {entries : Fields} {text : String} (distinct : (entries.map (·.1)).Nodup)
    (lines : IsTableText text entries) :
    ∃ read : Fields, toml.parse text = .ok (.table read) ∧ read.Perm entries
  refuse {entries : Fields} {key : String} {number : Int} (member : (key, .int number) ∈ entries)
    (beyond : 9223372036854775807 < number) :
    ∃ detail, toml.print (.table entries) = .error detail

end SchemaLedger.Document
