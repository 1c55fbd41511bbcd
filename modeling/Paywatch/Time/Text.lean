import Paywatch.Text.Blank
import Paywatch.Text.Bytes
import Paywatch.Text.Digits
import Paywatch.Time.Instant

/-!
# Instants as text

Reading and writing of dates with a clock time in the form of RFC 3339. A layout lists
what a reader expects; three layouts are in use: the strict form, a form with free
blanks for stored values, and the form of payment histories, which names no offset.
-/

namespace Paywatch

/-- Why a text is no instant. -/
inductive TimeError where
  | outOfRange
  | invalid
  | tooShort
  | tooLong
deriving DecidableEq, Repr

namespace TimeError

def message : TimeError → String
  | outOfRange => "input is out of range"
  | invalid => "input contains invalid characters"
  | tooShort => "premature end of input"
  | tooLong => "trailing input"

end TimeError

namespace TimeLayout

/-- The numbers of a date with a clock time. -/
inductive Field where
  | year | month | day | hour | minute | second
deriving DecidableEq, Repr

/-- What a layout expects next. -/
inductive Item where
  /-- A number of exactly so many digits. -/
  | fixed (field : Field) (width : Nat)
  /-- A number of at most so many digits, with blanks and, for a year, a sign in front. -/
  | free (field : Field) (width : Nat)
  /-- Any number of blanks. -/
  | blanks
  /-- This character. -/
  | mark (c : Char)
  /-- The letter T in either case, or a space. -/
  | separator
  /-- Nothing, or a point and the digits of a fraction of a second. -/
  | fraction
deriving DecidableEq, Repr

/-- The numbers read so far. -/
structure Reading where
  year : Int := 0
  month : Nat := 1
  day : Nat := 1
  hour : Nat := 0
  minute : Nat := 0
  second : Nat := 0
  nanos : Nat := 0

def isDigit (c : Char) : Bool := '0' ≤ c && c ≤ '9'

def skipBlanks (cs : List Char) : List Char := cs.dropWhile Text.isBlank

/-- Reads at least `least` and at most `most` digits; with no `most`, all of them. -/
def number (least : Nat) (most : Option Nat) (cs : List Char) :
    Except TimeError (Nat × List Char) :=
  if Text.byteCount cs < least then .error .tooShort
  else
    let digits := ((cs.take (most.getD cs.length)).takeWhile isDigit)
    let value := (Text.Digits.read 10 digits).getD 0
    if digits.length < least then .error .invalid
    else if 1 <<< 63 ≤ value then .error .outOfRange
    else .ok (value, cs.drop digits.length)

/-- Reads a year: four digits at most, or a sign and any number of digits. -/
def signedYear (width : Nat) (cs : List Char) : Except TimeError (Int × List Char) := do
  match cs with
  | '-' :: rest =>
    let (n, rest) ← number 1 none rest
    return (-(n : Int), rest)
  | '+' :: rest =>
    let (n, rest) ← number 1 none rest
    return (n, rest)
  | _ =>
    let (n, rest) ← number 1 (some width) cs
    return (n, rest)

/-- Stores a number, if it can stand in its place. -/
def Reading.set (r : Reading) (field : Field) (n : Int) : Except TimeError Reading :=
  let within (low high : Int) (set : Nat → Reading) : Except TimeError Reading :=
    if low ≤ n ∧ n ≤ high then .ok (set n.toNat) else .error .outOfRange
  match field with
  | .year =>
    if Int32.minValue.toInt ≤ n ∧ n ≤ Int32.maxValue.toInt then .ok { r with year := n }
      else .error .outOfRange
  | .month => within 1 12 fun v => { r with month := v }
  | .day => within 1 31 fun v => { r with day := v }
  | .hour => within 0 23 fun v => { r with hour := v }
  | .minute => within 0 59 fun v => { r with minute := v }
  | .second => within 0 60 fun v => { r with second := v }

/-- Reads one item. -/
def Item.read (item : Item) (r : Reading) (cs : List Char) :
    Except TimeError (Reading × List Char) := do
  match item with
  | .fixed field width =>
    let (n, rest) ← number width (some width) cs
    return (← r.set field n, rest)
  | .free .year width =>
    let (n, rest) ← signedYear width (skipBlanks cs)
    return (← r.set .year n, rest)
  | .free field width =>
    let (n, rest) ← number 1 (some width) (skipBlanks cs)
    return (← r.set field n, rest)
  | .blanks => return (r, skipBlanks cs)
  | .mark expected =>
    match cs with
    | [] => throw .tooShort
    | c :: rest => if c = expected then return (r, rest) else throw .invalid
  | .separator =>
    match cs with
    | [] => throw .tooShort
    | c :: rest =>
        if c = 't' ∨ c = 'T' ∨ c = ' ' then return (r, rest) else throw .invalid
  | .fraction =>
    match cs with
    | '.' :: rest =>
      let (n, after) ← number 1 (some 9) rest
      let width := rest.length - after.length
      return ({ r with nanos := n * Nat.pow 10 (9 - width) }, after.dropWhile isDigit)
    | _ => return (r, cs)

/-- Reads the items of a layout in turn. -/
def read : List Item → Reading → List Char → Except TimeError (Reading × List Char)
  | [], r, cs => .ok (r, cs)
  | item :: items, r, cs => do
    let (r, rest) ← item.read r cs
    read items r rest

/-- Exact widths, as in `2024-03-01T10:15:30.25`. -/
def strict : List Item :=
  [.fixed .year 4, .mark '-', .fixed .month 2, .mark '-', .fixed .day 2, .separator,
    .fixed .hour 2, .mark ':', .fixed .minute 2, .mark ':', .fixed .second 2, .fraction]

/-- Free blanks and short numbers. -/
def relaxed : List Item :=
  [.free .year 4, .blanks, .mark '-', .free .month 2, .blanks, .mark '-', .free .day 2,
    .separator, .free .hour 2, .blanks, .mark ':', .free .minute 2, .blanks, .mark ':',
    .free .second 2, .fraction, .blanks]

/-- A date and a clock time around a capital T. -/
def plain : List Item :=
  [.free .year 4, .mark '-', .free .month 2, .mark '-', .free .day 2, .mark 'T',
    .free .hour 2, .mark ':', .free .minute 2, .mark ':', .free .second 2, .fraction]

/-- The two digits of the hours or the minutes of an offset. -/
def twoDigits (cs : List Char) : Except TimeError (Nat × Nat × List Char) :=
  if Text.byteCount cs < 2 then .error .tooShort
  else match cs with
    | a :: b :: rest =>
      if isDigit a && isDigit b then .ok (a.toNat - '0'.toNat, b.toNat - '0'.toNat, rest)
      else .error .invalid
    | _ => .error .invalid

/-- Reads an offset from universal time, in minutes. `colon` passes over what stands
between hours and minutes. -/
def offset (colon : List Char → Except TimeError (List Char)) (cs : List Char) :
    Except TimeError (Int × List Char) := do
  match cs with
  | [] => throw .tooShort
  | c :: rest =>
    if c = 'Z' ∨ c = 'z' then return (0, rest)
    let sign : Int ←
      if c = '+' then pure 1
      else if c = '-' ∨ c = Char.ofNat 0x2212 then pure (-1)
      else throw .invalid
    let (h₁, h₂, rest) ← twoDigits rest
    let rest ← colon rest
    let (m₁, m₂, rest) ← twoDigits rest
    if 6 ≤ m₁ then throw .outOfRange
    return (sign * ((h₁ * 10 + h₂) * 60 + (m₁ * 10 + m₂) : Nat), rest)

/-- One colon. -/
def oneColon (cs : List Char) : Except TimeError (List Char) :=
  match cs with
  | [] => .error .tooShort
  | c :: rest => if c = ':' then .ok rest else .error .invalid

/-- Any number of colons and blanks. -/
def anyColons (cs : List Char) : Except TimeError (List Char) :=
  .ok (cs.dropWhile fun c => c == ':' || Text.isBlank c)

/-- The instant of the numbers read, on a clock `offset` minutes ahead of
universal time. -/
def Reading.instant (r : Reading) (offset : Int) : Except TimeError Instant :=
  if offset.natAbs < 1440 then
    match (Instant.ofFields? r.year r.month r.day r.hour r.minute r.second r.nanos).bind
        (Instant.atOffset? · offset) with
    | some t => .ok t
    | none => .error .outOfRange
  else .error .outOfRange

end TimeLayout

namespace Instant

open TimeLayout

/-- Reads the strict form with an offset. -/
def ofStrict (s : String) : Except TimeError Instant := do
  let (r, rest) ← read strict {} s.toList
  let (minutes, rest) ← offset oneColon rest
  if rest.isEmpty then r.instant minutes else throw .tooLong

/-- Reads the form of stored values: blanks are free, and the offset may
be the letters UTC. -/
def ofText (s : String) : Except TimeError Instant := do
  let (r, rest) ← read relaxed {} s.toList
  let (minutes, rest) ←
    if (rest.take 3).map Text.lowerAscii = ['u', 't', 'c'] then pure (0, rest.drop 3)
    else offset anyColons rest
  if (skipBlanks rest).isEmpty then r.instant minutes else throw .tooLong

/-- Reads the strict form or, as universal time, the plain form without an offset. -/
def ofLogTime (s : String) : Except TimeError Instant :=
  match ofStrict s with
  | .ok t => .ok t
  | .error _ => do
    let (r, rest) ← read plain {} s.toList
    if rest.isEmpty then r.instant 0 else throw .tooLong

/-- A year in four digits; outside of them it carries a sign. -/
def yearDigits (year : Int) : List Char :=
  if 0 ≤ year ∧ year ≤ 9999 then Text.decimalWidth 4 year.toNat
  else (if year < 0 then '-' else '+') :: Text.decimalWidth 4 year.natAbs

/-- The fraction of a second in the fewest groups of three digits that lose nothing. -/
def fractionDigits (nanos : Nat) : List Char :=
  if nanos = 0 then []
  else if nanos % 1000000 = 0 then '.' :: Text.decimalWidth 3 (nanos / 1000000)
  else if nanos % 1000 = 0 then '.' :: Text.decimalWidth 6 (nanos / 1000)
  else '.' :: Text.decimalWidth 9 nanos

def chars (t : Instant) : List Char :=
  yearDigits t.year ++ '-' :: Text.decimalWidth 2 t.month ++
    '-' :: Text.decimalWidth 2 t.day
    ++ 'T' :: Text.decimalWidth 2 t.hour ++ ':' :: Text.decimalWidth 2 t.minute
    ++ ':' :: Text.decimalWidth 2 t.second ++ fractionDigits t.nanos ++ ['Z']

/-- The instant in universal time, as in `2024-03-01T10:15:30.250Z`. -/
def text (t : Instant) : String := String.ofList t.chars

end Instant

end Paywatch
