import Netconf.Text.Numeral

/-! Instants of universal time in the proleptic Gregorian calendar, counted in seconds from 1970
with nanoseconds. A leap second is kept as a part of the second before it: its nanoseconds run on
past one thousand million. -/
namespace Netconf.Time

/-- A day of the calendar. -/
structure Date where
  year : Int
  month : Nat
  day : Nat
deriving DecidableEq, Repr

namespace Date

/-- Years that four divides, without the centuries that four hundred does not divide. -/
def isLeapYear (year : Int) : Bool := year % 4 == 0 && (year % 100 != 0 || year % 400 == 0)

/-- The number of days of a month. -/
def daysInMonth (year : Int) (month : Nat) : Nat :=
  if month = 2 then if isLeapYear year then 29 else 28
  else if month = 4 ∨ month = 6 ∨ month = 9 ∨ month = 11 then 30
  else 31

/-- A year, a month and a day of it that exist. -/
def isValid (d : Date) : Bool :=
  1 ≤ d.month && d.month ≤ 12 && 1 ≤ d.day && d.day ≤ daysInMonth d.year d.month

/-- The number of days from 1970-01-01. Years are counted from March, so that the leap day is the
last of its year; 146097 days make four hundred years. -/
def toDays (d : Date) : Int :=
  let year := if d.month ≤ 2 then d.year - 1 else d.year
  let era := year / 400
  let yearOfEra := year % 400
  let month : Int := if d.month > 2 then d.month - 3 else d.month + 9
  let dayOfYear := (153 * month + 2) / 5 + (d.day : Int) - 1
  let dayOfEra := yearOfEra * 365 + yearOfEra / 4 - yearOfEra / 100 + dayOfYear
  era * 146097 + dayOfEra - 719468

/-- The day that so many days from 1970-01-01 lead to. -/
def ofDays (days : Int) : Date :=
  let shifted := days + 719468
  let era := shifted / 146097
  let dayOfEra := shifted % 146097
  let yearOfEra := (dayOfEra - dayOfEra / 1460 + dayOfEra / 36524 - dayOfEra / 146096) / 365
  let dayOfYear := dayOfEra - (365 * yearOfEra + yearOfEra / 4 - yearOfEra / 100)
  let month := (5 * dayOfYear + 2) / 153
  let day := dayOfYear - (153 * month + 2) / 5 + 1
  let calendarMonth := if month < 10 then month + 3 else month - 9
  let year := yearOfEra + era * 400 + (if calendarMonth ≤ 2 then 1 else 0)
  { year, month := calendarMonth.toNat, day := day.toNat }

/-- The first day of the calendar. -/
def first : Date := { year := -262143, month := 1, day := 1 }

/-- The last day of the calendar. -/
def last : Date := { year := 262142, month := 12, day := 31 }

/-- Whether so many days from 1970-01-01 lead to a day of the calendar. -/
def hasDay (days : Int) : Bool := first.toDays ≤ days && days ≤ last.toDays

end Date

/-- An instant: whole seconds since 1970, and nanoseconds, which reach one thousand million and more
within a leap second. -/
structure Instant where
  seconds : Int
  nanos : Nat := 0
deriving DecidableEq, Repr, Inhabited

namespace Instant

/-- One instant is before another. -/
def before (a b : Instant) : Bool :=
  a.seconds < b.seconds || (a.seconds == b.seconds && a.nanos < b.nanos)

/-- One instant is not after another. -/
def notAfter (a b : Instant) : Bool := !b.before a

/-- The second of a leap second is written as the sixtieth. -/
def leapNanos : Nat := 1000000000

/-- An instant some milliseconds later. -/
def addMillis (t : Instant) (millis : Int) : Instant :=
  let nanos := (t.nanos : Int) + millis * 1000000
  { seconds := t.seconds + nanos / 1000000000, nanos := (nanos % 1000000000).toNat }

/-- The instant of a day and a time of day, read with an offset from universal time. A sixtieth
second is a leap second. There is none for a day or a time that does not exist, nor where the
calendar ends before universal time gets there. -/
def ofCivil? (date : Date) (hour minute second nanos : Nat) (offset : Int) : Option Instant :=
  if date.isValid && hour < 24 && minute < 60 && second ≤ 60 then
    let leap := second == 60
    let inDay : Int := hour * 3600 + minute * 60 + (if leap then 59 else second)
    let seconds := date.toDays * 86400 + inDay - offset
    if Date.hasDay date.toDays && Date.hasDay (seconds / 86400) then
      some { seconds, nanos := if leap then leapNanos + nanos else nanos }
    else none
  else none

/-- How many digits a fraction of a second is written with. -/
inductive Fraction where
  /-- Three, the rest cut off. -/
  | millis
  /-- None, three, six or nine, the fewest that lose nothing. -/
  | shortest
deriving DecidableEq, Repr

/-- A year has four digits at least, and a sign if it is not from 0 to 9999. -/
def yearChars (year : Int) : List Char :=
  if year < 0 then '-' :: Text.paddedChars 4 year.natAbs
  else if year ≤ 9999 then Text.paddedChars 4 year.natAbs
  else '+' :: Text.paddedChars 4 year.natAbs

/-- A fraction of a second with the point before it. -/
def fractionChars (form : Fraction) (nanos : Nat) : List Char :=
  match form with
  | .millis => '.' :: Text.paddedChars 3 (nanos / 1000000)
  | .shortest =>
    if nanos = 0 then []
    else if nanos % 1000000 = 0 then '.' :: Text.paddedChars 3 (nanos / 1000000)
    else if nanos % 1000 = 0 then '.' :: Text.paddedChars 6 (nanos / 1000)
    else '.' :: Text.paddedChars 9 nanos

/-- The written form of an instant in universal time, with the given text for the zone. -/
def format (form : Fraction) (zone : String) (t : Instant) : String :=
  let date := Date.ofDays (t.seconds / 86400)
  let inDay := (t.seconds % 86400).toNat
  let leap := leapNanos ≤ t.nanos
  let second := inDay % 60 + (if leap then 1 else 0)
  let nanos := if leap then t.nanos - leapNanos else t.nanos
  String.ofList <|
    yearChars date.year ++ '-' :: Text.paddedChars 2 date.month ++ '-' ::
      Text.paddedChars 2 date.day ++ 'T' :: Text.paddedChars 2 (inDay / 3600) ++ ':' ::
      Text.paddedChars 2 (inDay / 60 % 60) ++ ':' :: Text.paddedChars 2 second ++
      fractionChars form nanos ++ zone.toList

/-- The form with milliseconds, as notifications carry it. -/
def toMillisText (t : Instant) : String := t.format .millis "Z"

/-- The shortest exact form, with the letter for universal time. -/
def toText (t : Instant) : String := t.format .shortest "Z"

/-- The shortest exact form, with a numeric offset of zero. -/
def toOffsetText (t : Instant) : String := t.format .shortest "+00:00"

end Instant
end Netconf.Time
