import TraceAudit.Time.Calendar
import TraceAudit.Text.Decimal

/-!
# Timestamps

A `Timestamp` is a date and a time of day with an offset from universal time, to the nanosecond.

* `Timestamp.read` reads the internet date and time format, with any ASCII character between the
  date and the time: a fraction is cut after nine digits, and a leap second stands for the last
  nanosecond before it. A `TimestampFault` tells what is wrong with other texts;
* `Timestamp.render` writes it in its own offset, which is the format again for those that
  `Timestamp.isWritable` admits;
* `Timestamp.ofEpoch`, `Timestamp.ofEpochNanos` and `Timestamp.epochNanos` convert from and to time
  since 1970.
-/

namespace TraceAudit

/-- A date and a time of day, with an offset from universal time in minutes. -/
structure Timestamp where
  year : Nat
  month : Nat
  day : Nat
  hour : Nat
  minute : Nat
  second : Nat
  nanosecond : Nat
  offset : Int
deriving DecidableEq, Repr, Inhabited

namespace Timestamp

/-! ## Time since 1970 -/

/-- Seconds since 1970-01-01T00:00:00Z, without the fraction. -/
def epochSeconds (t : Timestamp) : Int :=
  Calendar.dayNumber t.year t.month t.day * 86400 + t.hour * 3600 + t.minute * 60 + t.second -
    t.offset * 60

/-- Nanoseconds since 1970-01-01T00:00:00Z. -/
def epochNanos (t : Timestamp) : Int := t.epochSeconds * 1000000000 + t.nanosecond

/-- The timestamp, in universal time, of a number of seconds since 1970. -/
def ofEpoch (seconds : Int) : Timestamp :=
  let (year, month, day) := Calendar.ofDayNumber (seconds.fdiv 86400)
  let ofDay := (seconds.fmod 86400).toNat
  { year := year.toNat
    month
    day
    hour := ofDay / 3600
    minute := ofDay / 60 % 60
    second := ofDay % 60
    nanosecond := 0
    offset := 0 }

/-- The timestamp, in universal time, of a number of nanoseconds since 1970. -/
def ofEpochNanos (nanos : Int) : Timestamp :=
  { ofEpoch (nanos.fdiv 1000000000) with nanosecond := (nanos.fmod 1000000000).toNat }

/-! ## Reading -/

end Timestamp

/-- A part of a written time. -/
inductive TimestampPart where
  | year
  | month
  | day
  | separator
  | hour
  | minute
  | second
  | subsecond
  | offsetHour
  | offsetMinute
deriving DecidableEq, Repr, Inhabited

def TimestampPart.name : TimestampPart → String
  | .year => "year"
  | .month => "month"
  | .day => "day"
  | .separator => "separator"
  | .hour => "hour"
  | .minute => "minute"
  | .second => "second"
  | .subsecond => "subsecond"
  | .offsetHour => "offset hour"
  | .offsetMinute => "offset minute"

/-- What is wrong with a written time. -/
inductive TimestampFault where
  /-- A part is not written as it should be. -/
  | badPart (part : TimestampPart)
  /-- There is no dash or colon where one should be. -/
  | badMark
  | trailingText
  | outOfRange (part : TimestampPart)
deriving DecidableEq, Repr, Inhabited

def TimestampFault.message : TimestampFault → String
  | .badPart part => s!"the '{part.name}' component could not be parsed"
  | .badMark => "a character literal was not valid"
  | .trailingText => "unexpected trailing characters; the end of input was expected"
  | .outOfRange part => s!"{part.name} was not in range"

namespace Timestamp

/-- A part of exactly `width` digits, and what follows it. -/
def digits (part : TimestampPart) (width : Nat) (text : List Char) :
    Except TimestampFault (Nat × List Char) :=
  let numeral := text.take width
  if numeral.length = width ∧ numeral.all Text.isDigit then
    .ok (Decimal.valueOf numeral, text.drop width)
  else .error (.badPart part)

def mark (c : Char) : List Char → Except TimestampFault (List Char)
  | [] => .error .badMark
  | d :: rest => if c = d then .ok rest else .error .badMark

/-- What follows the separator of date and time, which is a single octet. -/
def separator : List Char → Except TimestampFault (List Char)
  | [] => .error (.badPart .separator)
  | c :: rest => if c.toNat < 0x80 then .ok rest else .error (.badPart .hour)

/-- An optional fraction in nanoseconds, cut after nine digits, and what follows it. -/
def fraction : List Char → Except TimestampFault (Nat × List Char)
  | '.' :: text =>
    let written := text.takeWhile Text.isDigit
    if written = [] then .error (.badPart .subsecond)
    else
      let kept := written.take 9
      .ok (Decimal.valueOf kept * Nat.pow 10 (9 - kept.length), text.dropWhile Text.isDigit)
  | text => .ok (0, text)

/-- The offset in minutes, and what follows it. -/
def zone : List Char → Except TimestampFault (Int × List Char)
  | [] => .error (.badPart .offsetHour)
  | sign :: text =>
    if sign = 'Z' ∨ sign = 'z' then .ok (0, text)
    else if sign ≠ '+' ∧ sign ≠ '-' then .error (.badPart .offsetHour)
    else do
      let (hours, text) ← digits .offsetHour 2 text
      if 23 < hours then .error (.badPart .offsetHour)
      let text ← mark ':' text
      let (minutes, text) ← digits .offsetMinute 2 text
      if 59 < minutes then .error (.outOfRange .offsetMinute)
      let total : Int := hours * 60 + minutes
      .ok (if sign = '-' then -total else total, text)

/-- Second 60 follows: the next second starts a month in universal time. -/
def endsMonth (t : Timestamp) : Bool :=
  let next := t.epochSeconds + 1
  next.fmod 86400 == 0 && (Calendar.ofDayNumber (next.fdiv 86400)).2.2 == 1

/-- The first part that is beyond what the calendar or the clock has. The month is not zero. -/
def excess? (t : Timestamp) : Option TimestampPart :=
  if 12 < t.month then some .month
  else if t.day < 1 ∨ Calendar.daysInMonth t.year t.month < t.day then some .day
  else if 23 < t.hour then some .hour
  else if 59 < t.minute then some .minute
  else if 59 < t.second then some .second
  else none

/-- The time itself, unless it is beyond what the calendar or the clock has. -/
def checked (t : Timestamp) : Except TimestampFault Timestamp :=
  match t.excess? with
  | some part => .error (.outOfRange part)
  | none => .ok t

/-- A time whose second is written as 60 stands for the last nanosecond before it. -/
def ofLeapSecond (t : Timestamp) : Except TimestampFault Timestamp := do
  let t ← checked { t with second := 59, nanosecond := 999999999 }
  if t.endsMonth then .ok t else .error (.outOfRange .second)

/-- Read a time. Months count from 1, so that two zeros are not the month of any date; all other
parts are compared with the calendar and the clock once the whole text is read. -/
def read (text : List Char) : Except TimestampFault Timestamp := do
  let (year, text) ← digits .year 4 text
  let text ← mark '-' text
  let (month, text) ← digits .month 2 text
  if month = 0 then .error (.badPart .month)
  let text ← mark '-' text
  let (day, text) ← digits .day 2 text
  let text ← separator text
  let (hour, text) ← digits .hour 2 text
  let text ← mark ':' text
  let (minute, text) ← digits .minute 2 text
  let text ← mark ':' text
  let (second, text) ← digits .second 2 text
  let (nanosecond, text) ← fraction text
  let (offset, text) ← zone text
  if text ≠ [] then .error .trailingText
  let t : Timestamp := { year, month, day, hour, minute, second, nanosecond, offset }
  if second = 60 then t.ofLeapSecond else t.checked

/-- The time that a text stands for, if it is one. -/
def ofText? (text : List Char) : Option Timestamp := (read text).toOption

/-! ## Writing -/

/-- The fraction of a second without trailing zeros, nothing when it is zero. -/
def fractionText (nanosecond : Nat) : String :=
  if nanosecond = 0 then ""
  else
    let digits := (Decimal.padded 9 nanosecond).toList
    "." ++ String.ofList (Text.dropEndWhile (· == '0') digits)

def offsetText (offset : Int) : String :=
  if offset = 0 then "Z"
  else
    let sign := if offset < 0 then "-" else "+"
    let minutes := offset.natAbs
    sign ++ Decimal.padded 2 (minutes / 60) ++ ":" ++ Decimal.padded 2 (minutes % 60)

def render (t : Timestamp) : String :=
  Decimal.padded 4 t.year ++ "-" ++ Decimal.padded 2 t.month ++ "-" ++ Decimal.padded 2 t.day ++
    "T" ++ Decimal.padded 2 t.hour ++ ":" ++ Decimal.padded 2 t.minute ++ ":" ++
    Decimal.padded 2 t.second ++ fractionText t.nanosecond ++ offsetText t.offset

/-- The format has four digits for the year and less than a day for the offset. -/
def isWritable (t : Timestamp) : Bool := t.year < 10000 && t.offset.natAbs < 1440

end Timestamp
end TraceAudit
