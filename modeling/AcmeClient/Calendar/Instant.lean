import AcmeClient.Calendar.Date
import AcmeClient.Number.Numeral

/-!
# Points in time

A point in time is what a clock shows, in microseconds since the first midnight of the calendar,
with the clock's distance from universal time. A clock reading without that distance is not yet a
point in time and cannot be compared with others.

* **`Instant`** is a clock reading with an optional offset.
* **`Instant.shift?`** moves the clock and stays within the calendar.
* **`Instant.toUtc?`** moves an instant to universal time.
* **`Instant.text`** is the usual text of a reading, **`Instant.stamp`** that of whole seconds in
  universal time, and **`Instant.literal`** the notation of messages.
* **`spanLiteral`** is the notation of a length of time, and **`RangeDefect`** says why one, or an
  instant, is out of range.
-/

namespace AcmeClient.Calendar

open Number

/-- Microseconds in a second. -/
def second : Nat := 1000000

/-- Microseconds in a day. -/
def dayLength : Nat := 86400 * second

/-- A clock reading: microseconds since the first midnight, and those by which the clock is ahead
of universal time, if known. -/
structure Instant where
  reading : Nat
  offset : Option Int
  deriving DecidableEq, Repr

/-- The fields that a clock shows. -/
structure Reading where
  date : Date
  hour : Nat
  minute : Nat
  second : Nat
  micro : Nat
  deriving DecidableEq, Repr

namespace Reading

/-- The defect of the time of a day; the hour is looked at first and the second last. -/
def timeDefect? (hour minute second : Int) : Option FieldDefect :=
  if hour < 0 ∨ 23 < hour then some .hour
  else if minute < 0 ∨ 59 < minute then some .minute
  else if second < 0 ∨ 59 < second then some .second
  else none

/-- The microseconds since the first midnight. -/
def micros (r : Reading) : Nat :=
  (r.date.ordinal - 1) * dayLength
    + ((r.hour * 60 + r.minute) * 60 + r.second) * Calendar.second + r.micro

/-- What a clock shows. -/
def ofMicros (n : Nat) : Reading :=
  let s := n % dayLength / Calendar.second
  ⟨Date.ofOrdinal (n / dayLength + 1), s / 3600, s / 60 % 60, s % 60, n % Calendar.second⟩

end Reading

/-- Why a length of time or an instant is out of range: its days need more than 32 bits, they are
more than 999999999, or the instant lies beyond the calendar. -/
inductive RangeDefect where
  | daysBeyond32 : RangeDefect
  | days (n : Int) : RangeDefect
  | calendar : RangeDefect
  deriving DecidableEq, Repr

namespace RangeDefect

def message : RangeDefect → String
  | .daysBeyond32 => "Python int too large to convert to C int"
  | .days n => "days=" ++ toString n ++ "; must have magnitude <= 999999999"
  | .calendar => "date value out of range"

def ofSeconds? (seconds : Int) : Option RangeDefect :=
  let days := seconds / 86400
  if days < -Nat.pow 2 31 ∨ Nat.pow 2 31 ≤ days then some .daysBeyond32
  else if 999999999 < days.natAbs then some (.days days)
  else none

end RangeDefect

def endOfTime : Nat :=
  lastOrdinal * dayLength

namespace Instant

/-- The clock moved by a number of microseconds; none beyond the calendar. -/
def shift? (t : Instant) (micros : Int) : Option Instant :=
  let n := (t.reading : Int) + micros
  if 0 ≤ n ∧ n < (endOfTime : Int) then some ⟨n.toNat, t.offset⟩ else none

/-- The clock moved by whole seconds. -/
def later (t : Instant) (seconds : Int) : Except RangeDefect Instant :=
  match RangeDefect.ofSeconds? seconds with
  | some d => .error d
  | none =>
      match t.shift? (seconds * (Calendar.second : Int)) with
      | some u => .ok u
      | none => .error .calendar

/-- The same instant on a clock of universal time. A reading without an offset is taken to be in
universal time. -/
def toUtc? (t : Instant) : Option Instant :=
  (t.shift? (-(t.offset.getD 0))).map fun u => ⟨u.reading, some 0⟩

/-- Hours, minutes and, when they are not zero, seconds and microseconds of a distance. -/
def offsetText (micros : Int) : String :=
  let n := micros.natAbs
  let s := n / Calendar.second
  let micro := n % Calendar.second
  let sign := if micros < 0 then "-" else "+"
  let base := sign ++ padded 2 (s / 3600) ++ ":" ++ padded 2 (s / 60 % 60)
  if micro ≠ 0 then base ++ ":" ++ padded 2 (s % 60) ++ "." ++ padded 6 micro
  else if s % 60 ≠ 0 then base ++ ":" ++ padded 2 (s % 60)
  else base

/-- Date and time of a reading up to whole seconds. -/
def secondsText (r : Reading) : String :=
  padded 4 r.date.year ++ "-" ++ padded 2 r.date.month ++ "-" ++ padded 2 r.date.day ++ "T"
    ++ padded 2 r.hour ++ ":" ++ padded 2 r.minute ++ ":" ++ padded 2 r.second

/-- The text of an instant: microseconds only when they are not zero, and the offset if known. -/
def text (t : Instant) : String :=
  let r := Reading.ofMicros t.reading
  secondsText r ++ (if r.micro = 0 then "" else "." ++ padded 6 r.micro)
    ++ (match t.offset with
      | some o => offsetText o
      | none => "")

/-- The text of whole seconds in universal time; none when the instant in universal time lies
beyond the calendar. -/
def stamp? (t : Instant) : Option String :=
  t.toUtc?.map fun u => secondsText (Reading.ofMicros u.reading) ++ "Z"

/-- The notation of a reading without an offset: seconds and microseconds are left out at the end
when they are zero. -/
def literal (t : Instant) : String :=
  let r := Reading.ofMicros t.reading
  let ending :=
    if r.micro ≠ 0 then [r.second, r.micro]
    else if r.second ≠ 0 then [r.second]
    else []
  let fields := [r.date.year, r.date.month, r.date.day, r.hour, r.minute] ++ ending
  "datetime.datetime(" ++ ", ".intercalate (fields.map toString) ++ ")"

end Instant

/-- The notation of a length of time in microseconds: days of either sign, and seconds and
microseconds of the remaining day when they are not zero. -/
def spanLiteral (micros : Int) : String :=
  let days := micros / dayLength
  let rest := micros % dayLength
  let seconds := rest / second
  let micro := rest % second
  let part (name : String) (n : Int) : List String :=
    if n = 0 then [] else [name ++ "=" ++ toString n]
  let parts := part "days" days ++ part "seconds" seconds ++ part "microseconds" micro
  "datetime.timedelta(" ++ (if parts = [] then "0" else ", ".intercalate parts) ++ ")"

end AcmeClient.Calendar
