import SchemaLedger.Version.Basic

/-!
# The text of a version

A version is written as its components in decimal, joined by `.`. Reading is more liberal: a
component is any non-empty run of ASCII digits that denotes a number below `2 ^ 64`, and both `.`
and `_` separate components. What is written reads back as the same components.
-/

namespace SchemaLedger

/-- Why a text is not a version. -/
inductive VersionFault where
  /-- Nothing is written. -/
  | emptyText
  /-- Two separators meet, or one stands at an end. -/
  | emptyComponent
  /-- A component holds something other than a digit. -/
  | notANumber
  /-- A component does not fit into 64 bits. -/
  | outOfRange
  /-- A reason in the words of whoever rejected the text. -/
  | reported (reason : String)

namespace VersionFault

def reason : VersionFault → String
  | emptyText => "version is empty"
  | emptyComponent => "empty version component"
  | notANumber => "version components must be non-negative integers"
  | outOfRange => "version component out of range"
  | reported reason => reason

end VersionFault

namespace Version

def chars (version : Version) : List Char :=
  ['.'].intercalate (version.parts.map fun part => Nat.toDigits 10 part.toNat)

/-- The components in decimal, joined by points. -/
def text (version : Version) : String := String.ofList version.chars

@[simp]
theorem toList_text (version : Version) : version.text.toList = version.chars :=
  String.toList_ofList

/-- Components are separated by points or underscores. -/
def isSeparator (c : Char) : Bool := c == '.' || c == '_'

def readComponent (digits : List Char) : Except VersionFault UInt64 :=
  if digits.isEmpty then .error .emptyComponent
  else if !digits.all Char.isDigit then .error .notANumber
  else if fits : Nat.ofDigitChars 10 digits 0 < UInt64.size then .ok (.ofNatLT _ fits)
  else .error .outOfRange

/-- Reads the components between separators; the first faulty component decides the fault. -/
def readComponents (chars : List Char) : Except VersionFault (List UInt64) :=
  (chars.splitOnP isSeparator).mapM readComponent

theorem readComponents_ne_nil {chars : List Char} {parts : List UInt64}
    (success : readComponents chars = .ok parts) : parts ≠ [] := by
  have some : chars.splitOnP isSeparator ≠ [] := List.splitOnP_ne_nil _ _
  unfold readComponents at success
  cases pieces : chars.splitOnP isSeparator with
  | nil => exact absurd pieces some
  | cons piece rest =>
    rw [pieces, List.mapM_cons] at success
    cases first : readComponent piece with
    | error fault => simp [first, bind, Except.bind] at success
    | ok part =>
      cases others : rest.mapM readComponent with
      | error fault => simp [first, others, bind, Except.bind] at success
      | ok parts =>
        simp only [first, others, bind, Except.bind, pure, Except.pure] at success
        cases success
        exact List.cons_ne_nil _ _

def ofChars (chars : List Char) : Except VersionFault Version :=
  if chars.isEmpty then .error .emptyText
  else
    match success : readComponents chars with
    | .error fault => .error fault
    | .ok parts => .ok ⟨parts, readComponents_ne_nil success⟩

def ofText (text : String) : Except VersionFault Version := ofChars text.toList

end Version

end SchemaLedger
