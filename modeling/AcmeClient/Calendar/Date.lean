/-!
# The calendar

Days are counted from the first of January of the year 1, which has the number 1. Every fourth year
is a leap year, apart from every hundredth, except every four hundredth.

* **`Date`** is a year, a month and a day; **`Date.defect?`** says what is wrong with one.
* **`Date.ordinal`** and **`Date.ofOrdinal`** convert between dates and day numbers.
* **`weekday`** counts the days of a week from Monday.
* **`ofWeek?`** finds the day of a numbered week.
-/

namespace AcmeClient.Calendar

/-- A day of a month of a year, as written. -/
structure Date where
  year : Nat
  month : Nat
  day : Nat
  deriving DecidableEq, Repr

def isLeap (year : Nat) : Bool :=
  year % 4 = 0 && (year % 100 ≠ 0 || year % 400 = 0)

/-- The number of days of a month. -/
def daysInMonth (year month : Nat) : Nat :=
  if month = 2 then (if isLeap year then 29 else 28)
  else if month = 4 ∨ month = 6 ∨ month = 9 ∨ month = 11 then 30
  else 31

/-- The number of days of a year. -/
def daysInYear (year : Nat) : Nat :=
  if isLeap year then 366 else 365

/-- The number of days of all years before a positive one. -/
def daysBeforeYear (year : Nat) : Nat :=
  let y := year - 1
  y * 365 + y / 4 - y / 100 + y / 400

/-- The number of days of a year before a month. -/
def daysBeforeMonth (year : Nat) : Nat → Nat
  | 0 => 0
  | 1 => 0
  | m + 2 => daysBeforeMonth year (m + 1) + daysInMonth year (m + 1)

def lastYear : Nat := 9999

def lastOrdinal : Nat := 3652059

inductive FieldDefect where
  | year (n : Int) : FieldDefect
  | month : FieldDefect
  | day : FieldDefect
  | hour : FieldDefect
  | minute : FieldDefect
  | second : FieldDefect
  deriving DecidableEq, Repr

namespace FieldDefect

def message : FieldDefect → String
  | .year n => "year " ++ toString n ++ " is out of range"
  | .month => "month must be in 1..12"
  | .day => "day is out of range for month"
  | .hour => "hour must be in 0..23"
  | .minute => "minute must be in 0..59"
  | .second => "second must be in 0..59"

end FieldDefect

namespace Date

/-- The defect of a year, a month and a day; the year is looked at first and the day last. -/
def defect? (year month day : Int) : Option FieldDefect :=
  if year < 1 ∨ (lastYear : Int) < year then some (.year year)
  else if month < 1 ∨ 12 < month then some .month
  else if day < 1 ∨ (daysInMonth year.toNat month.toNat : Int) < day then some .day
  else none

def ordinal (d : Date) : Nat :=
  daysBeforeYear d.year + daysBeforeMonth d.year d.month + d.day

/-- The year of the day that has `n` days of the calendar before it. -/
def yearOf (n : Nat) : Nat :=
  let q400 := n / 146097
  let r400 := n % 146097
  let q100 := min 3 (r400 / 36524)
  let r100 := r400 - q100 * 36524
  let q4 := r100 / 1461
  let r4 := r100 % 1461
  let q1 := min 3 (r4 / 365)
  q400 * 400 + q100 * 100 + q4 * 4 + q1 + 1

/-- The last month, of those up to the given one, with at most `n` days of the year before it. -/
def monthOf (year n : Nat) : Nat → Nat
  | 0 => 1
  | m + 1 => if daysBeforeMonth year (m + 1) ≤ n then m + 1 else monthOf year n m

def ofOrdinal (ordinal : Nat) : Date :=
  let n := ordinal - 1
  let year := yearOf n
  let inYear := n - daysBeforeYear year
  let month := monthOf year inYear 12
  ⟨year, month, inYear - daysBeforeMonth year month + 1⟩

end Date

/-- The place of a day in its week, from Monday as zero. -/
def weekday (ordinal : Nat) : Nat :=
  (ordinal + 6) % 7

/-- The number of the Monday that starts the first week of a year: the week of its first Thursday.
It may lie before the first day of the calendar. -/
def firstMonday (year : Nat) : Int :=
  let first := Date.ordinal ⟨year, 1, 1⟩
  let place := weekday first
  (first : Int) - place + (if 3 < place then 7 else 0)

/-- Whether a year has a fifty-third week. -/
def hasLongYear (year : Nat) : Bool :=
  let place := weekday (Date.ordinal ⟨year, 1, 1⟩)
  place = 3 || (place = 2 && isLeap year)

/-- The number of a day, from Monday as one, of a numbered week; none for a week or a day that does
not exist. -/
def ofWeek? (year week day : Nat) : Option Int :=
  if (1 ≤ week ∧ week ≤ 52 ∨ week = 53 ∧ hasLongYear year) ∧ 1 ≤ day ∧ day ≤ 7 then
    some (firstMonday year + 7 * ((week : Int) - 1) + ((day : Int) - 1))
  else none

end AcmeClient.Calendar
