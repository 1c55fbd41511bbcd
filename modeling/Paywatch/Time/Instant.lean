/-!
# Instants

A moment in coordinated universal time, kept as the fields of its calendar date and
clock, down to the nanosecond. Second 60 is a leap second. The order of instants is
the order of their fields.
-/

namespace Paywatch

namespace Calendar

def isLeapYear (year : Int) : Bool :=
  year % 4 == 0 && (year % 100 != 0 || year % 400 == 0)

def daysInMonth (year : Int) (month : Nat) : Nat :=
  match month with
  | 2 => if isLeapYear year then 29 else 28
  | 4 | 6 | 9 | 11 => 30
  | _ => 31

/-- Years that a date can lie in. -/
def minYear : Int := -262143
def maxYear : Int := 262142

def isDate (year : Int) (month day : Nat) : Bool :=
  minYear ≤ year && year ≤ maxYear && 1 ≤ month && month ≤ 12
    && 1 ≤ day && day ≤ daysInMonth year month

/-- Days from 1970-01-01 to a date. Years are counted from March, so that
a leap day ends one. -/
def daysSince1970 (year : Int) (month day : Nat) : Int :=
  let y := if month ≤ 2 then year - 1 else year
  let era := y.fdiv 400
  let yearOfEra := y - era * 400
  let monthFromMarch := (month + 9) % 12
  let dayOfYear := (153 * monthFromMarch + 2) / 5 + day - 1
  let dayOfEra := yearOfEra * 365 + yearOfEra.fdiv 4 - yearOfEra.fdiv 100 + dayOfYear
  era * 146097 + dayOfEra - 719468

/-- The date that lies so many days after 1970-01-01. -/
def dateOfDays (days : Int) : Int × Nat × Nat :=
  let shifted := days + 719468
  let era := shifted.fdiv 146097
  let dayOfEra := (shifted - era * 146097).toNat
  let yearOfEra :=
    (dayOfEra - dayOfEra / 1460 + dayOfEra / 36524 - dayOfEra / 146096) / 365
  let dayOfYear := dayOfEra - (365 * yearOfEra + yearOfEra / 4 - yearOfEra / 100)
  let monthFromMarch := (5 * dayOfYear + 2) / 153
  let day := dayOfYear - (153 * monthFromMarch + 2) / 5 + 1
  let month := if monthFromMarch < 10 then monthFromMarch + 3 else monthFromMarch - 9
  let year : Int := yearOfEra + era * 400
  (if month ≤ 2 then year + 1 else year, month, day)

end Calendar

/-- A moment in coordinated universal time. -/
structure Instant where
  year : Int
  month : Nat
  day : Nat
  hour : Nat
  minute : Nat
  second : Nat
  nanos : Nat
  valid : (Calendar.isDate year month day && (hour < 24 && minute < 60 && second ≤ 60
    && nanos < 1000000000)) = true
deriving DecidableEq

namespace Instant

instance : Inhabited Instant := ⟨⟨1970, 1, 1, 0, 0, 0, 0, by decide⟩⟩

/-- The instant with these fields, if there is one. -/
def ofFields? (year : Int) (month day hour minute second nanos : Nat) : Option Instant :=
  if h : (Calendar.isDate year month day && (hour < 24 && minute < 60 && second ≤ 60
      && nanos < 1000000000)) = true then
    some ⟨year, month, day, hour, minute, second, nanos, h⟩
  else none

/-- The fields in the order of their weight. -/
def fields (t : Instant) : List Int :=
  [t.year, t.month, t.day, t.hour, t.minute, t.second, t.nanos]

/-- Earlier than. -/
def before (t u : Instant) : Bool := decide (t.fields < u.fields)

/-- Whole minutes since 1970. -/
def epochMinutes (t : Instant) : Int :=
  Calendar.daysSince1970 t.year t.month t.day * 1440 + (t.hour * 60 + t.minute : Nat)

/-- Milliseconds since 1970, rounded down; a leap second counts on past
its thousandth one. -/
def epochMillis (t : Instant) : Int :=
  t.epochMinutes * 60000 + (t.second * 1000 + t.nanos / 1000000 : Nat)

/-- The instant so many seconds and nanoseconds after the start of 1970. -/
def ofEpoch? (seconds : Int) (nanos : Nat) : Option Instant :=
  let days := seconds.fdiv 86400
  let rest := (seconds - days * 86400).toNat
  let (year, month, day) := Calendar.dateOfDays days
  ofFields? year month day (rest / 3600) (rest / 60 % 60) (rest % 60) nanos

/-- The instant whose fields are those of `t` on a clock that stands `offset` minutes
ahead of universal time. -/
def atOffset? (t : Instant) (offset : Int) : Option Instant :=
  if offset = 0 then some t
  else do
    let start ← ofEpoch? ((t.epochMinutes - offset) * 60) 0
    ofFields? start.year start.month start.day start.hour start.minute t.second t.nanos

end Instant

end Paywatch
