/-!
# Values of documents

What a document holds once it has been read, whether it was written in one format or another:
scalars, lists, and tables from keys to values. Dates and fractional numbers are values that no
record of this library takes, so they are not told apart. How a format prints and parses values is
up to that format.
-/

namespace SchemaLedger.Document

inductive Value where
  | null
  | bool (value : Bool)
  | int (value : Int)
  | text (value : String)
  | list (elements : List Value)
  | table (entries : List (String × Value))
  /-- A scalar of a type that no record takes. -/
  | other
  deriving Inhabited

namespace Value

def isNull : Value → Bool
  | null => true
  | _ => false

def bool? : Value → Option Bool
  | bool value => some value
  | _ => none

def text? : Value → Option String
  | text value => some value
  | _ => none

/-- The value as an integer between bounds, both included. -/
def int? (low high : Int) : Value → Option Int
  | int value => if low ≤ value && value ≤ high then some value else none
  | _ => none

def uint64? : Value → Option UInt64
  | int value =>
      if value < 0 then none
      else if fits : value.toNat < UInt64.size then some (.ofNatLT _ fits)
      else none
  | _ => none

def int32? (value : Value) : Option Int32 :=
  (value.int? Int32.minValue.toInt Int32.maxValue.toInt).map Int32.ofInt

/-- Null as none, and else what a reader makes of the value. -/
def optional? {α : Type} (read : Value → Option α) : Value → Option (Option α)
  | null => some none
  | value => (read value).map some

/-- A text, or a table that assigns null to a single key: the spelling of a tag. -/
def tag? : Value → Option String
  | text tag => some tag
  | table [(tag, null)] => some tag
  | _ => none

/-- The fields of a record: those of a table, or those of a list by their positions. -/
def fields? (names : List String) : Value → Option (List (String × Value))
  | table entries => some entries
  | list elements =>
      if elements.length ≤ names.length then some (names.zip elements) else none
  | _ => none

end Value

/-- The fields of a record as they were read. -/
abbrev Fields := List (String × Value)

namespace Fields

/-- The fields that have a value. -/
def present (fields : Fields) : Fields := fields.filter (!·.2.isNull)

/-- The field with a name, read by a reader; a field that is absent takes a default. -/
def get {α : Type} (fields : Fields) (name : String) (read : Value → Option α) (default : α) :
    Option α :=
  match fields.lookup name with
  | none => some default
  | some value => read value

/-- The field with a name, read by a reader, which has to be present. -/
def require {α : Type} (fields : Fields) (name : String) (read : Value → Option α) : Option α :=
  (fields.lookup name).bind read

end Fields

/-- A format of documents; where it fails, it says why. -/
structure Format where
  print : Value → Except String String
  parse : String → Except String Value

end SchemaLedger.Document
