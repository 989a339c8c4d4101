import SchemaLedger.Instant.Basic
import SchemaLedger.Instant.Calendar
import SchemaLedger.Text.Blank

/-!
# The text of an instant

Instants are written in UTC as `YYYY-MM-DDThh:mm:ssZ`, with 3, 6 or 9 digits of a fraction if it
takes them. Reading accepts any offset from UTC, also blanks before a number or a separator, numbers
of fewer digits, a signed year of any length, a blank or a small letter for `T`, and `UTC` for `Z`.
The second 60 is a leap second.
-/

namespace SchemaLedger.Instant

/-! ## Writing -/

/-- A number in decimal, padded with zeros to a width. -/
def padded (width number : Nat) : String :=
  let digits := toString number
  "".pushn '0' (width - digits.length) ++ digits

/-- A year: four digits, or a sign and at least four digits where four do not suffice. -/
def yearText (year : Int) : String :=
  if 0 ≤ year && year ≤ 9999 then padded 4 year.toNat
  else (if year < 0 then "-" else "+") ++ padded 4 year.natAbs

/-- The fraction of a second, in as many groups of three digits as it takes. -/
def fractionText (nanos : Nat) : String :=
  if nanos == 0 then ""
  else if nanos % 1000000 == 0 then "." ++ padded 3 (nanos / 1000000)
  else if nanos % 1000 == 0 then "." ++ padded 6 (nanos / 1000)
  else "." ++ padded 9 nanos

/-- The nanoseconds of a second. -/
def billion : Nat := 1000000000

/-- The seconds of a day. -/
def daySeconds : Nat := 86400

def text (instant : Instant) : String :=
  let date := Calendar.Date.ofNumber (instant.seconds.ediv daySeconds)
  let second := (instant.seconds.emod daySeconds).toNat
  let leap := instant.nanos / billion
  yearText date.year ++ "-" ++ padded 2 date.month ++ "-" ++ padded 2 date.day ++ "T"
    ++ padded 2 (second / 3600) ++ ":" ++ padded 2 (second / 60 % 60) ++ ":"
    ++ padded 2 (second % 60 + leap) ++ fractionText (instant.nanos - leap * billion) ++ "Z"

/-! ## Reading

Each reader returns what it has read and the characters that follow. -/

/-- Splits off the digits at the start, up to a number of them. -/
def spanDigits : Nat → List Char → List Char × List Char
  | limit + 1, c :: rest =>
      if c.isDigit then
        let (digits, after) := spanDigits limit rest
        (c :: digits, after)
      else ([], c :: rest)
  | _, chars => ([], chars)

/-- Reads a number of one to so many digits. -/
def number? (limit : Nat) (chars : List Char) : Option (Nat × List Char) :=
  match spanDigits limit chars with
  | ([], _) => none
  | (digits, rest) => some (Nat.ofDigitChars 10 digits 0, rest)

/-- Reads a number of one or two digits after blanks. -/
def pair? (chars : List Char) : Option (Nat × List Char) := number? 2 (Text.trimStart chars)

/-- Reads a separator after blanks. -/
def separator? (separator : Char) (chars : List Char) : Option (List Char) :=
  match Text.trimStart chars with
  | c :: rest => if c == separator then some rest else none
  | [] => none

/-- Reads a year of up to four digits, or of any number of digits after a sign. -/
def year? (chars : List Char) : Option (Int × List Char) :=
  match Text.trimStart chars with
  | '-' :: rest => (number? rest.length rest).map fun (year, after) => (-year, after)
  | '+' :: rest => (number? rest.length rest).map fun (year, after) => (year, after)
  | rest => (number? 4 rest).map fun (year, after) => (year, after)

def date? (chars : List Char) : Option (Calendar.Date × List Char) := do
  let (year, rest) ← year? chars
  let (month, rest) ← pair? (← separator? '-' rest)
  let (day, rest) ← pair? (← separator? '-' rest)
  let date : Calendar.Date := { year, month, day }
  guard date.isValid
  return (date, rest)

/-- Reads a fraction of a second in nanoseconds; digits after the ninth do not count. -/
def fraction? (chars : List Char) : Option (Nat × List Char) :=
  match chars with
  | '.' :: rest =>
      match spanDigits 9 rest with
      | ([], _) => none
      | (digits, after) =>
          some (Nat.ofDigitChars 10 (digits.rightpad 9 '0') 0, after.dropWhile Char.isDigit)
  | _ => some (0, chars)

/-- Reads a time of day: the second of the day and the nanoseconds, a billion more of them in a
leap second. -/
def time? (chars : List Char) : Option (Nat × Nat × List Char) := do
  let (hour, rest) ← pair? chars
  let (minute, rest) ← pair? (← separator? ':' rest)
  let (second, rest) ← pair? (← separator? ':' rest)
  let (nanos, rest) ← fraction? rest
  guard (hour < 24 && minute < 60 && second ≤ 60)
  let before := hour * 3600 + minute * 60
  if second == 60 then return (before + 59, billion + nanos, rest)
  else return (before + second, nanos, rest)

def twoDigits? : List Char → Option (Nat × List Char)
  | tens :: ones :: rest =>
      if tens.isDigit && ones.isDigit then some (Nat.ofDigitChars 10 [tens, ones] 0, rest)
      else none
  | _ => none

/-- The direction of an offset: east of UTC is ahead of it. -/
def offsetSign? : Char → Option Int
  | '+' => some 1
  | '-' => some (-1)
  | '\u2212' => some (-1)
  | _ => none

/-- Reads an offset from UTC in seconds, hours and minutes being set apart by colons or blanks. -/
def numericOffset? : List Char → Option (Int × List Char)
  | [] => none
  | c :: rest => do
      let sign ← offsetSign? c
      let (hours, rest) ← twoDigits? rest
      let (minutes, rest) ← twoDigits? (rest.dropWhile fun c => c == ':' || Text.isBlank c)
      guard (minutes < 60 && hours < 24)
      return (sign * (hours * 3600 + minutes * 60 : Nat), rest)

/-- Reads an offset from UTC: `UTC` or `Z` in letters of any size, or a number. -/
def offset? : List Char → Option (Int × List Char)
  | u :: t :: c :: rest =>
      if [u, t, c].map Char.toUpper == ['U', 'T', 'C'] then some (0, rest)
      else if u == 'Z' || u == 'z' then some (0, t :: c :: rest)
      else numericOffset? (u :: t :: c :: rest)
  | c :: rest => if c == 'Z' || c == 'z' then some (0, rest) else numericOffset? (c :: rest)
  | [] => none

/-- The years that instants can lie in. -/
def isInRange (instant : Instant) : Bool :=
  let year := (Calendar.Date.ofNumber (instant.seconds.ediv daySeconds)).year
  year ≤ 262142 && -262143 ≤ year

def ofChars? (chars : List Char) : Option Instant := do
  let (date, rest) ← date? chars
  match rest with
  | [] => none
  | c :: rest =>
      guard (c == 'T' || c == 't' || c == ' ')
      let (second, nanos, rest) ← time? rest
      let (offset, rest) ← offset? (Text.trimStart rest)
      guard (Text.trimStart rest).isEmpty
      let instant : Instant := ⟨date.number * daySeconds + second - offset, nanos⟩
      guard (isInRange ⟨date.number * daySeconds, 0⟩ && instant.isInRange)
      return instant

def ofText? (text : String) : Option Instant := ofChars? text.toList

end SchemaLedger.Instant
