import AcmeClient.Calendar.Instant
import AcmeClient.Text.Digit
import AcmeClient.Text.Pieces

/-!
# Dates of mail and HTTP

The dates of mail and HTTP headers come in many forms: with or without the day of the week, with
hyphens or blanks, with the year before or after the time, with a named zone or an offset in hours
and minutes. A reader of such dates finds day, month, year, time and zone among the words and leaves
the fields unchecked.

* **`HttpDate.fields?`** finds the fields.
* **`HttpDate.parse`** gives the instant; it fails when a field is out of range.
* **`HttpDate.Defect`** says which fields make no instant.
-/

namespace AcmeClient.Calendar.HttpDate

open Text

/-- The months by their short names and then by their full names. -/
def monthNames : List String :=
  ["jan", "feb", "mar", "apr", "may", "jun", "jul", "aug", "sep", "oct", "nov", "dec", "january",
    "february", "march", "april", "may", "june", "july", "august", "september", "october",
    "november", "december"]

/-- The days of the week that may stand in front without a comma. -/
def dayNames : List String :=
  ["mon", "tue", "wed", "thu", "fri", "sat", "sun"]

/-- The named zones, as hours and minutes in one number. -/
def zones : List (String × Int) :=
  [("UT", 0), ("UTC", 0), ("GMT", 0), ("Z", 0), ("AST", -400), ("ADT", -300), ("EST", -500),
    ("EDT", -400), ("CST", -600), ("CDT", -500), ("MST", -700), ("MDT", -600), ("PST", -800),
    ("PDT", -700)]

/-- The words between blanks. -/
def wordsOf : List Char → List Char → List (List Char)
  | [], word => if word = [] then [] else [word]
  | c :: cs, word =>
      if isBlank c then (if word = [] then wordsOf cs [] else word :: wordsOf cs [])
      else wordsOf cs (word ++ [c])

def words (s : String) : List (List Char) :=
  wordsOf s.toList []

def lower (cs : List Char) : String :=
  String.ofList (cs.map Char.toLower)

/-- A word in upper case; the long s and its ligatures are letters too. -/
def upper (cs : List Char) : String :=
  String.ofList (cs.flatMap fun c =>
    if c.toNat = 0x17f then ['S']
    else if c.toNat = 0xfb05 ∨ c.toNat = 0xfb06 then ['S', 'T']
    else [c.toUpper])

/-- The words after the day of the week, which ends in a comma or is a known name; a comma inside
the first word cuts off what stands before it. -/
def withoutDayName : List (List Char) → List (List Char)
  | [] => []
  | w :: rest =>
      if w.getLast? = some ',' ∨ lower w ∈ dayNames then rest
      else (cutLast ',' w).2 :: rest

/-- Three words are taken as date, time and zone, with the date in hyphens. -/
def withoutHyphens : List (List Char) → List (List Char)
  | [date, time, zone] =>
      let parts := pieces '-' date
      if parts.length = 3 then parts ++ [time, zone] else [date, time, zone]
  | ws => ws

/-- Cuts a word in front of a sign that is not its first character. A plus goes before a minus. -/
def cutZone (w : List Char) : Option (List Char × List Char) :=
  let sign := if '+' ∈ w then '+' else '-'
  let before := w.takeWhile (· ≠ sign)
  if sign ∈ w ∧ before ≠ [] then some (before, w.dropWhile (· ≠ sign)) else none

/-- Day, month, year, time and zone; of four words the last may hold time and zone. -/
def fiveWords? :
    List (List Char) → Option (List Char × List Char × List Char × List Char × List Char)
  | [a, b, c, d] =>
      match cutZone d with
      | some (time, zone) => some (a, b, c, time, zone)
      | none => some (a, b, c, d, [])
  | a :: b :: c :: d :: e :: _ => some (a, b, c, d, e)
  | _ => none

def withoutComma (w : List Char) : List Char :=
  if w.getLast? = some ',' then w.dropLast else w

def month? (w : List Char) : Option Nat :=
  (monthNames.idxOf? (lower w)).map fun i => i % 12 + 1

/-- Hours, minutes and seconds between colons, or between points when there is no colon. -/
def clock? (w : List Char) : Option (List Char × List Char × List Char) :=
  match pieces ':' w with
  | [h, m] => some (h, m, ['0'])
  | [h, m, s] => some (h, m, s)
  | [t] =>
      match pieces '.' t with
      | [h, m] => some (h, m, ['0'])
      | [h, m, s] => some (h, m, s)
      | _ => none
  | _ => none

/-- The seconds by which a zone is ahead: a named zone, or hours and minutes in one number. Anything
else counts as universal time. -/
def zoneSeconds (w : List Char) : Int :=
  let name := upper w
  let n := match zones.lookup name with
    | some n => n
    | none => (readInt? name).getD 0
  let size := n.natAbs
  let seconds : Int := size / 100 * 3600 + size % 100 * 60
  if n < 0 then -seconds else seconds

/-- Years of two digits lie between 1969 and 2068. -/
def fullYear (y : Int) : Int :=
  if y < 100 then (if 68 < y then y + 1900 else y + 2000) else y

/-- The fields of a date, not yet checked against the calendar. -/
structure Fields where
  year : Int
  month : Int
  day : Int
  hour : Int
  minute : Int
  second : Int
  ahead : Int
  deriving DecidableEq, Repr

def number? (w : List Char) : Option Int :=
  readInt? (String.ofList w)

/-- The fields among five words. Month and day may change places, so may time and year, and year
and zone. -/
def fieldsOf? (dd mm yy tm tz : List Char) : Option Fields := do
  if dd = [] ∨ mm = [] ∨ yy = [] then none
  else
    let (day, month) ←
      match month? mm with
      | some m => some (dd, m)
      | none => (month? dd).map fun m => (mm.map Char.toLower, m)
    let day := withoutComma day
    let (yy, tm) := if ':' ∈ yy ∧ yy.head? ≠ some ':' then (tm, yy) else (yy, tm)
    let yy := withoutComma yy
    match yy with
    | [] => none
    | y :: _ =>
        let (yy, tz) := if isDigitLike y then (yy, tz) else (tz, yy)
        let (h, m, s) ← clock? (withoutComma tm)
        let year ← number? yy
        let day ← number? day
        let hour ← number? h
        let minute ← number? m
        let second ← number? s
        return ⟨fullYear year, month, day, hour, minute, second, zoneSeconds tz⟩

def fields? (s : String) : Option Fields := do
  let (dd, mm, yy, tm, tz) ← fiveWords? (withoutHyphens (withoutDayName (words s)))
  fieldsOf? dd mm yy tm tz

/-- Why fields make no instant: a number beyond a width of 32 or 64 bits, a field out of range, or a
length of time or an instant out of range. -/
inductive Defect where
  | beyond64 : Defect
  | above32 : Defect
  | below32 : Defect
  | field (d : FieldDefect) : Defect
  | range (d : RangeDefect) : Defect
  deriving DecidableEq, Repr

namespace Defect

def message : Defect → String
  | .beyond64 => "Python int too large to convert to C long"
  | .above32 => "signed integer is greater than maximum"
  | .below32 => "signed integer is less than minimum"
  | .field d => d.message
  | .range d => d.message

end Defect

/-- The defect of a number that is to fit a field of 32 bits. -/
def widthDefect? (n : Int) : Option Defect :=
  if n < -Nat.pow 2 63 ∨ Nat.pow 2 63 ≤ n then some .beyond64
  else if Nat.pow 2 31 ≤ n then some .above32
  else if n < -Nat.pow 2 31 then some .below32
  else none

namespace Fields

/-- The first defect of the fields: the zone, the width of the numbers, the date, the time. -/
def defect? (f : Fields) : Option Defect :=
  (RangeDefect.ofSeconds? f.ahead).map .range
    <|> [f.year, f.month, f.day, f.hour, f.minute, f.second].findSome? widthDefect?
    <|> (Date.defect? f.year f.month f.day).map .field
    <|> (Reading.timeDefect? f.hour f.minute f.second).map .field

/-- The instant that the fields denote, in universal time. -/
def toInstant (f : Fields) : Except Defect Instant :=
  match f.defect? with
  | some d => .error d
  | none =>
      let date : Date := ⟨f.year.toNat, f.month.toNat, f.day.toNat⟩
      let r : Reading := ⟨date, f.hour.toNat, f.minute.toNat, f.second.toNat, 0⟩
      match (Instant.mk r.micros (some 0)).shift? (-f.ahead * (Calendar.second : Int)) with
      | some t => .ok t
      | none => .error (.range .calendar)

end Fields

end AcmeClient.Calendar.HttpDate
