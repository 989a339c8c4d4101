/-!
# The calendar

Days of the Gregorian calendar, extended to all years, and their numbers counted from the start of
1970. Years are counted from March, so that a leap day is the last day of its year, and grouped in
eras of 400 years, all of which have the same length.
-/

namespace SchemaLedger.Calendar

structure Date where
  year : Int
  month : Nat
  day : Nat
  deriving DecidableEq

def isLeap (year : Int) : Bool := year % 4 == 0 && (year % 100 != 0 || year % 400 == 0)

/-- The number of days of a month, or zero if there is no such month. -/
def daysInMonth (year : Int) (month : Nat) : Nat :=
  match month with
  | 2 => if isLeap year then 29 else 28
  | 4 | 6 | 9 | 11 => 30
  | 1 | 3 | 5 | 7 | 8 | 10 | 12 => 31
  | _ => 0

/-- The month exists and has the day. -/
def Date.isValid (date : Date) : Bool :=
  1 ≤ date.day && date.day ≤ daysInMonth date.year date.month

/-- The number of days in an era. -/
def eraDays : Nat := 146097

/-- The number of days from the first of March of year 0 to the start of 1970. -/
def epochDay : Int := 719468

/-- The number of a day, counted from the start of 1970. -/
def Date.number (date : Date) : Int :=
  let year := if date.month ≤ 2 then date.year - 1 else date.year
  let yearOfEra := (year.emod 400).toNat
  let dayOfYear := (153 * ((date.month + 9) % 12) + 2) / 5 + date.day - 1
  let dayOfEra := yearOfEra * 365 + yearOfEra / 4 - yearOfEra / 100 + dayOfYear
  year.ediv 400 * eraDays + dayOfEra - epochDay

def Date.ofNumber (number : Int) : Date :=
  let sinceMarch := number + epochDay
  let dayOfEra := (sinceMarch.emod eraDays).toNat
  let yearOfEra :=
    (dayOfEra - dayOfEra / 1460 + dayOfEra / 36524 - dayOfEra / 146096) / 365
  let dayOfYear := dayOfEra - (365 * yearOfEra + yearOfEra / 4 - yearOfEra / 100)
  let monthFromMarch := (5 * dayOfYear + 2) / 153
  let month := if monthFromMarch < 10 then monthFromMarch + 3 else monthFromMarch - 9
  let year := sinceMarch.ediv eraDays * 400 + yearOfEra
  { year := if month ≤ 2 then year + 1 else year
    month
    day := dayOfYear - (153 * monthFromMarch + 2) / 5 + 1 }

end SchemaLedger.Calendar
