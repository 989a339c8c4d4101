import SchemaLedger.Document.Toml.Quoted
import SchemaLedger.Document.Value
import SchemaLedger.Instant.Calendar

/-!
# Numbers, dates and times

Integers are decimal with an optional sign and no leading zeros, or hexadecimal, octal or binary
without a sign; single underscores may stand between digits, and the value has to fit into 64 signed
bits. Of fractional numbers, dates and times only the form is checked, and of a fractional number
that it is not beyond the greatest finite one.
-/

namespace SchemaLedger.Document.Toml

/-! ## Digits -/

/-- Reads the digits after the first, underscores between digits being dropped. -/
def moreDigits? (isDigit : Char → Bool) : List Char → Option (List Char × List Char)
  | '_' :: c :: rest =>
      if isDigit c then
        (moreDigits? isDigit rest).map fun (digits, after) => (c :: digits, after)
      else none
  | ['_'] => none
  | c :: rest =>
      if isDigit c then
        (moreDigits? isDigit rest).map fun (digits, after) => (c :: digits, after)
      else some ([], c :: rest)
  | [] => some ([], [])

def digits? (isDigit : Char → Bool) : List Char → Option (List Char × List Char)
  | c :: rest =>
      if isDigit c then
        (moreDigits? isDigit rest).map fun (digits, after) => (c :: digits, after)
      else none
  | [] => none

/-- Splits off a sign: whether it is a minus, and what follows. -/
def splitSign : List Char → Bool × List Char
  | '-' :: rest => (true, rest)
  | '+' :: rest => (false, rest)
  | chars => (false, chars)

/-- Reads the digits of a decimal number, which begins with a zero only if it is one. -/
def decimalDigits? : List Char → Option (List Char × List Char)
  | '0' :: rest => some (['0'], rest)
  | chars => digits? Char.isDigit chars

/-! ## Integers -/

/-- An integer of 64 signed bits. -/
def integer? (number : Int) : Option Value :=
  if Int64.minValue.toInt ≤ number && number ≤ Int64.maxValue.toInt then some (.int number)
  else none

/-- Reads the digits of a number to a base that is a power of two. -/
def based? (base : Nat) (chars : List Char) : Option (Value × List Char) := do
  let isDigit (c : Char) : Bool := (hexDigit? c).any (· < base)
  let (digits, rest) ← digits? isDigit chars
  let number := digits.foldl (fun value digit => value * base + (hexDigit? digit).getD 0) 0
  return (← integer? number, rest)

/-! ## Fractional numbers -/

/-- Halfway between the greatest finite number of 64 bits and what would be the next. -/
def finiteBound : Nat := 0x3FFFFFFFFFFFFF <<< 970

/-- A fraction's digits and an exponent do not take a number beyond the greatest finite one of 64
bits, nor halfway to what would be the next. -/
def isFinite (digits : List Char) (exponent : Int) : Bool :=
  let number := Nat.ofDigitChars 10 digits 0
  let magnitude : Int := (Nat.toDigits 10 number).length + exponent
  if number == 0 || magnitude ≤ 308 then true
  else if 309 < magnitude then false
  else if 0 ≤ exponent then number * Nat.pow 10 exponent.toNat < finiteBound
  else number < finiteBound * Nat.pow 10 exponent.natAbs

def exponent? : List Char → Option (Int × List Char)
  | c :: rest =>
      if c == 'e' || c == 'E' then do
        let (negative, unsigned) := splitSign rest
        let (digits, after) ← digits? Char.isDigit unsigned
        let number : Int := Nat.ofDigitChars 10 digits 0
        return (if negative then -number else number, after)
      else some (0, c :: rest)
  | [] => some (0, [])

def fraction? : List Char → Option (List Char × List Char)
  | '.' :: rest => digits? Char.isDigit rest
  | chars => some ([], chars)

/-- A number goes on with a point or an exponent. -/
def goesOn : List Char → Bool
  | c :: _ => c == '.' || c == 'e' || c == 'E'
  | [] => false

/-- Reads what follows the digits before the point: the number is an integer if nothing does. -/
def decimalEnd? (negative : Bool) (digits rest : List Char) : Option (Value × List Char) := do
  if goesOn rest then
    let (fraction, unscaled) ← fraction? rest
    let (exponent, after) ← exponent? unscaled
    guard (negative || isFinite (digits ++ fraction) (exponent - fraction.length))
    return (.other, after)
  else
    let number : Int := Nat.ofDigitChars 10 digits 0
    return (← integer? (if negative then -number else number), rest)

/-- Reads a decimal number, or an infinity or what is not a number. -/
def decimal? (chars : List Char) : Option (Value × List Char) :=
  match splitSign chars with
  | (_, 'i' :: 'n' :: 'f' :: rest) => some (.other, rest)
  | (_, 'n' :: 'a' :: 'n' :: rest) => some (.other, rest)
  | (negative, unsigned) => do
      let (digits, rest) ← decimalDigits? unsigned
      decimalEnd? negative digits rest

/-! ## Dates and times -/

/-- Reads a number of exactly so many digits. -/
def fixedNumber? (width : Nat) (chars : List Char) : Option (Nat × List Char) :=
  let digits := chars.take width
  if digits.length == width && digits.all Char.isDigit then
    some (Nat.ofDigitChars 10 digits 0, chars.drop width)
  else none

def expect? (expected : Char) : List Char → Option (List Char)
  | c :: rest => if c == expected then some rest else none
  | [] => none

def date? (chars : List Char) : Option (List Char) := do
  let (year, rest) ← fixedNumber? 4 chars
  let (month, rest) ← fixedNumber? 2 (← expect? '-' rest)
  let (day, rest) ← fixedNumber? 2 (← expect? '-' rest)
  guard ({ year, month, day : Calendar.Date }).isValid
  return rest

def skipFraction (chars : List Char) : List Char :=
  match chars with
  | '.' :: c :: rest => if c.isDigit then rest.dropWhile Char.isDigit else chars
  | _ => chars

def time? (chars : List Char) : Option (List Char) := do
  let (hour, rest) ← fixedNumber? 2 chars
  let (minute, rest) ← fixedNumber? 2 (← expect? ':' rest)
  let (second, rest) ← fixedNumber? 2 (← expect? ':' rest)
  guard (hour < 24 && minute < 60 && second ≤ 60)
  return skipFraction rest

def offset? (chars : List Char) : Option (List Char) :=
  match chars with
  | c :: rest =>
      if c == 'Z' || c == 'z' then some rest
      else if c == '+' || c == '-' then do
        let (hour, rest) ← fixedNumber? 2 rest
        let (minute, rest) ← fixedNumber? 2 (← expect? ':' rest)
        guard (hour < 24 && minute < 60)
        return rest
      else none
  | [] => none

/-- Skips the time after a date, if there is one, and its offset from UTC, if it has one. -/
def skipTime (chars : List Char) : List Char :=
  match chars with
  | c :: rest =>
      if c == 'T' || c == 't' || c == ' ' then
        match time? rest with
        | some after => (offset? after).getD after
        | none => chars
      else chars
  | [] => chars

/-- Reads a date, a time, or both. -/
def moment? (chars : List Char) : Option (Value × List Char) :=
  match date? chars with
  | some rest => some (.other, skipTime rest)
  | none => (time? chars).map fun rest => (.other, rest)

/-! ## Any of them -/

/-- Reads a number, a date or a time. -/
def number? (chars : List Char) : Option (Value × List Char) :=
  match moment? chars with
  | some read => some read
  | none =>
      match chars with
      | '0' :: 'x' :: rest => based? 16 rest
      | '0' :: 'o' :: rest => based? 8 rest
      | '0' :: 'b' :: rest => based? 2 rest
      | _ => decimal? chars

end SchemaLedger.Document.Toml
