import Netconf.Text.Blank
import Netconf.Time.Instant

/-! Timestamps as RFC 3339 writes them. The strict form has its fields at fixed places; the lenient
form admits fields without leading zeros, blanks between the fields and around them, years with a
sign, the zone `UTC`, and offsets without a colon. -/
namespace Netconf.Time

/-- Why a text is no timestamp. -/
inductive TimestampError where
  | tooShort
  | invalid
  | outOfRange
  | tooLong
deriving DecidableEq, Repr

/-- The cause in words. -/
def TimestampError.message : TimestampError → String
  | .tooShort => "premature end of input"
  | .invalid => "input contains invalid characters"
  | .outOfRange => "input is out of range"
  | .tooLong => "trailing input"

namespace Timestamp

/-- What a reader of a part of a timestamp gives: a value and the characters behind it. -/
abbrev Part (α : Type) := Except TimestampError (α × List Char)

/-- The length of characters in UTF-8. -/
def byteLength (cs : List Char) : Nat := cs.foldl (fun n c => n + c.utf8Size) 0

/-- Reads a digit. -/
def digit : List Char → Part Nat
  | c :: cs => if c.isDigit then .ok (c.toNat - '0'.toNat, cs) else .error .invalid
  | [] => .error .invalid

/-- Reads exactly so many digits. -/
def digits : (count : Nat) → (start : Nat) → List Char → Part Nat
  | 0, n, cs => .ok (n, cs)
  | count + 1, n, cs =>
    match digit cs with
    | .ok (d, rest) => digits count (n * 10 + d) rest
    | .error e => .error e

/-- Reads one of some characters. -/
def oneOf (allowed : List Char) : List Char → Part Unit
  | c :: cs => if c ∈ allowed then .ok ((), cs) else .error .invalid
  | [] => .error .invalid

/-- Reads a fraction of a second behind its point: at least one digit, those past the ninth without
meaning. -/
def fraction (cs : List Char) : Part Nat :=
  let ds := cs.takeWhile (·.isDigit)
  let rest := cs.dropWhile (·.isDigit)
  if cs.isEmpty then .error .tooShort
  else if ds.isEmpty then .error .invalid
  else
    let kept := ds.take 9
    let n := kept.foldl (fun n c => n * 10 + (c.toNat - '0'.toNat)) 0
    .ok (n * Nat.pow 10 (9 - kept.length), rest)

/-- Reads two digits of an offset, for which there must be room. -/
def offsetDigits (cs : List Char) : Part (Nat × Nat) :=
  if byteLength cs < 2 then .error .tooShort
  else match digit cs with
    | .error e => .error e
    | .ok (a, rest) =>
      match digit rest with
      | .error e => .error e
      | .ok (b, rest) => .ok ((a, b), rest)

/-- Reads an offset from universal time, in seconds. The given reader passes over what stands
between its hours and its minutes. The minus sign may be the hyphen or U+2212. -/
def offset (separator : List Char → Part Unit) (cs : List Char) :
    Except TimestampError (Int × List Char) := do
  match cs with
  | [] => .error .tooShort
  | c :: rest =>
    if c = 'Z' ∨ c = 'z' then return (0, rest)
    else if c = '+' ∨ c = '-' ∨ c = '−' then
      let ((h1, h2), rest) ← offsetDigits rest
      let (_, rest) ← separator rest
      let ((m1, m2), rest) ← offsetDigits rest
      if 6 ≤ m1 then .error .outOfRange
      else
        let seconds : Int := (h1 * 10 + h2) * 3600 + (m1 * 10 + m2) * 60
        return (if c = '+' then seconds else -seconds, rest)
    else .error .invalid

/-- An offset is less than a day. -/
def isOffset (seconds : Int) : Bool := seconds.natAbs < 86400

/-- The colon of a strict offset. -/
def colon : List Char → Part Unit
  | [] => .error .tooShort
  | c :: cs => if c = ':' then .ok ((), cs) else .error .invalid

/-- A time of day. -/
structure Clock where
  hour : Nat
  minute : Nat
  second : Nat
  nanos : Nat
deriving DecidableEq, Repr

/-- Reads a strict date, which must exist. -/
def fullDate (cs : List Char) : Except TimestampError (Date × List Char) := do
  let (year, cs) ← digits 4 0 cs
  let (_, cs) ← oneOf ['-'] cs
  let (month, cs) ← digits 2 0 cs
  let (_, cs) ← oneOf ['-'] cs
  let (day, cs) ← digits 2 0 cs
  let date : Date := { year, month, day }
  if date.isValid then return (date, cs) else throw .outOfRange

/-- Reads a fraction of a second with its point, if there is one. -/
def pointedFraction (cs : List Char) : Part Nat :=
  match cs with
  | '.' :: rest => fraction rest
  | _ => .ok (0, cs)

/-- Reads a strict time of day, which must exist; there may be a sixtieth second in any minute. -/
def timeOfDay (cs : List Char) : Except TimestampError (Clock × List Char) := do
  let (hour, cs) ← digits 2 0 cs
  let (_, cs) ← oneOf [':'] cs
  let (minute, cs) ← digits 2 0 cs
  let (_, cs) ← oneOf [':'] cs
  let (second, cs) ← digits 2 0 cs
  let (nanos, cs) ← pointedFraction cs
  if hour ≤ 23 && minute ≤ 59 && second ≤ 60 then return ({ hour, minute, second, nanos }, cs)
  else throw .outOfRange

/-- The instant that what has been read stands for, if nothing is left. -/
def concluded (date : Date) (clock : Clock) (offset : Int) (rest : List Char) :
    Except TimestampError Instant :=
  if !rest.isEmpty then .error .tooLong
  else if !isOffset offset then .error .outOfRange
  else match Instant.ofCivil? date clock.hour clock.minute clock.second clock.nanos offset with
    | some t => .ok t
    | none => .error .outOfRange

/-- Reads a strict timestamp. The date is checked before the time is read, the time before the zone,
and the length of the offset when nothing is left. -/
def strict (cs : List Char) : Except TimestampError Instant :=
  if byteLength cs < 19 then .error .tooShort
  else do
    let (date, cs) ← fullDate cs
    let (_, cs) ← oneOf ['T', 't', ' '] cs
    let (clock, cs) ← timeOfDay cs
    let (offset, cs) ← offset colon cs
    concluded date clock offset cs

/-- Reads a number of one digit at least and so many at most, behind any blanks. -/
def number? (most : Nat) (cs : List Char) : Option (Nat × List Char) :=
  let cs := Text.trimStart cs
  let ds := (cs.take most).takeWhile (·.isDigit)
  if ds.isEmpty then none
  else some (ds.foldl (fun n c => n * 10 + (c.toNat - '0'.toNat)) 0, cs.drop ds.length)

/-- Reads a year: four digits at most, or a sign and any number of them. -/
def year? (cs : List Char) : Option (Int × List Char) :=
  match Text.trimStart cs with
  | '-' :: rest => signed rest (-1)
  | '+' :: rest => signed rest 1
  | rest => (number? 4 rest).map fun p => ((p.1 : Int), p.2)
where
  signed (rest : List Char) (sign : Int) : Option (Int × List Char) :=
    if (rest.head?.map (·.isDigit)).getD false then
      (number? rest.length rest).map fun p => (sign * p.1, p.2)
    else none

/-- Reads a mark between two fields, behind any blanks. -/
def mark? (mark : Char) (cs : List Char) : Option (List Char) :=
  match Text.trimStart cs with
  | c :: rest => if c = mark then some rest else none
  | [] => none

/-- Colons and blanks between the hours and the minutes of a lenient offset. -/
def colonsAndBlanks (cs : List Char) : Part Unit :=
  .ok ((), cs.dropWhile fun c => c == ':' || Text.isBlank c)

/-- Reads the zone of a lenient timestamp. -/
def zone? (cs : List Char) : Option (Int × List Char) :=
  let cs := Text.trimStart cs
  if (cs.take 3).map Char.toUpper = ['U', 'T', 'C'] then some (0, cs.drop 3)
  else (offset colonsAndBlanks cs).toOption

/-- Reads a lenient timestamp. -/
def lenient? (cs : List Char) : Option Instant := do
  let (year, cs) ← year? cs
  let cs ← mark? '-' cs
  let (month, cs) ← number? 2 cs
  let cs ← mark? '-' cs
  let (day, cs) ← number? 2 cs
  let (_, cs) ← (oneOf ['T', 't', ' '] cs).toOption
  let (hour, cs) ← number? 2 cs
  let cs ← mark? ':' cs
  let (minute, cs) ← number? 2 cs
  let cs ← mark? ':' cs
  let (second, cs) ← number? 2 cs
  let (nanos, cs) ← match cs with
    | '.' :: rest => (fraction rest).toOption
    | _ => some (0, cs)
  let (offset, cs) ← zone? cs
  if isOffset offset && (Text.trimStart cs).isEmpty then
    Instant.ofCivil? { year, month, day } hour minute second nanos offset
  else none

end Timestamp

/-- Reads an instant from a strict timestamp. -/
def Instant.ofText (s : String) : Except TimestampError Instant := Timestamp.strict s.toList

/-- Reads an instant from a lenient timestamp. -/
def Instant.ofLenientText? (s : String) : Option Instant := Timestamp.lenient? s.toList

end Netconf.Time
