import AcmeClient.Calendar.Instant
import AcmeClient.Text.Quoted
import AcmeClient.Text.Utf8

/-!
# Timestamps

A timestamp is a date, any one character, a time of day and an offset from universal time. The date
is written with or without hyphens, with a month and a day or with a week and a day of the week; the
time with or without colons, and from hours alone down to a fraction of a second, of which six
digits count. The offset is the letter `Z` or a signed time.

The text is read as octets; past its end they read as zero.

* **`Timestamp.parse`** reads a timestamp in which a final `z` of either case stands for no offset.
* **`Timestamp.read`** reads a timestamp as it stands.
* **`Timestamp.Defect`** says why a text is none.
-/

namespace AcmeClient.Calendar.Timestamp

open Text

inductive Defect where
  | shape (text : String) : Defect
  | field (d : FieldDefect) : Defect
  | offset (micros : Int) : Defect
  deriving DecidableEq, Repr

namespace Defect

def message : Defect → String
  | .shape text => "Invalid isoformat string: " ++ quoted text
  | .field d => d.message
  | .offset micros =>
      "offset must be a timedelta strictly between -timedelta(hours=24) and timedelta(hours=24), "
        ++ "not " ++ spanLiteral micros ++ "."

end Defect

/-- The octet at the front, or zero past the end. -/
def front (bs : List UInt8) : Nat :=
  match bs with
  | [] => 0
  | b :: _ => b.toNat

def digit? (n : Nat) : Option Nat :=
  if 48 ≤ n ∧ n ≤ 57 then some (n - 48) else none

/-- The number of a fixed count of digits, and the rest. -/
def digits? : Nat → Nat → List UInt8 → Option (Nat × List UInt8)
  | 0, n, bs => some (n, bs)
  | count + 1, n, bs =>
      match digit? (front bs) with
      | some d => digits? count (10 * n + d) bs.tail
      | none => none

def octetAt (bs : List UInt8) (place : Nat) : Nat :=
  front (bs.drop place)

/-- The end of the run of digits that starts at a place, within the text. -/
def digitsEnd (bs : List UInt8) (place : Nat) : Nat :=
  place + ((bs.drop place).takeWhile fun b => (digit? b.toNat).isSome).length

/-- Where the date ends; none for a week date that breaks off after its second hyphen. A hyphen
after a week separates the day of the week unless two digits follow it. -/
def dateLength? (bs : List UInt8) : Option Nat :=
  let hyphen := 45
  let week := 87
  if bs.length = 7 then some 7
  else if octetAt bs 4 = hyphen then
    if octetAt bs 5 = week then
      if 8 < bs.length ∧ octetAt bs 8 = hyphen then
        if bs.length = 9 then none
        else if 10 < bs.length ∧ (digit? (octetAt bs 10)).isSome then some 8
        else some 10
      else some 8
    else some 10
  else if octetAt bs 4 = week then
    let e := digitsEnd bs 7
    some (if e < 9 then e else if e % 2 = 0 then 7 else 8)
  else some 8

/-- A date as read: the fields are not yet checked against the calendar. -/
structure RawDate where
  year : Int
  month : Int
  day : Int

/-- The date of a day number; numbers outside the calendar give the year that is missing. -/
def RawDate.ofOrdinal (n : Int) : RawDate :=
  if n < 1 then ⟨0, 1, 1⟩
  else
    let d := Date.ofOrdinal n.toNat
    ⟨d.year, d.month, d.day⟩

/-- The octets after a hyphen, when one is due. -/
def afterHyphen? (due : Bool) (bs : List UInt8) : Option (List UInt8) :=
  if due then (if front bs = 45 then some bs.tail else none) else some bs

/-- The date in the first `length` octets. -/
def date? (length : Nat) (bs : List UInt8) : Option RawDate := do
  let (year, r) ← digits? 4 0 bs
  let hyphens := front r = 45
  let r := if hyphens then r.tail else r
  if front r = 87 then
    let (week, r) ← digits? 2 0 r.tail
    let day ←
      if bs.length - r.length < length then do
        let r ← afterHyphen? hyphens r
        let (day, _) ← digits? 1 0 r
        pure day
      else pure 1
    let n ← ofWeek? year week day
    return .ofOrdinal n
  else
    let (month, r) ← digits? 2 0 r
    let r ← afterHyphen? hyphens r
    let (day, r) ← digits? 2 0 r
    if r.length + length = bs.length then return ⟨year, month, day⟩ else none

/-- A time of day as read, and whether it stopped at the end of the text. -/
structure RawTime where
  hour : Nat
  minute : Nat
  second : Nat
  micro : Nat
  atEnd : Bool

/-- The six decimal places that a run of at most six digits stands for. -/
def fractionPlaces (count n : Nat) : Nat :=
  n * Nat.pow 10 (6 - count)

/-- The fraction of a second in the octets before `stop`; digits after the sixth are passed over
also behind it. -/
def fraction? (t : RawTime) (stop : Nat) (bs : List UInt8) : Option RawTime := do
  let count := min 6 stop
  let (n, r) ← digits? count 0 bs
  let r := r.dropWhile fun b => (digit? b.toNat).isSome
  return { t with micro := fractionPlaces count n, atEnd := front r = 0 }

/-- What follows two digits of a time: the end, the next field, or the fraction. `stop` counts the
octets up to the end of the time. -/
inductive Step where
  | ended (atEnd : Bool) : Step
  | field (stop : Nat) (rest : List UInt8) : Step
  | fraction (stop : Nat) (rest : List UInt8) : Step

/-- The step after a field, in a time with or without colons. -/
def step? (colons : Bool) (stop : Nat) (bs : List UInt8) : Option Step :=
  let c := front bs
  if stop ≤ 1 then some (.ended (c = 0))
  else if colons ∧ c = 58 then some (.field (stop - 1) bs.tail)
  else if c = 46 ∨ c = 44 then some (.fraction (stop - 1) bs.tail)
  else if !colons then some (.field stop bs)
  else none

/-- The time of day in the first `stop` octets: hours, minutes, seconds and their fraction, of which
any may be missing from the right. -/
def time? (stop : Nat) (bs : List UInt8) : Option RawTime := do
  let (hour, r) ← digits? 2 0 bs
  let colons := front r = 58
  let t : RawTime := ⟨hour, 0, 0, 0, true⟩
  match ← step? colons (stop - 2) r with
  | .ended e => return { t with atEnd := e }
  | .fraction stop r => fraction? t stop r
  | .field stop r =>
      let (minute, r) ← digits? 2 0 r
      let t := { t with minute := minute }
      match ← step? colons (stop - 2) r with
      | .ended e => return { t with atEnd := e }
      | .fraction stop r => fraction? t stop r
      | .field stop r =>
          let (second, r) ← digits? 2 0 r
          let t := { t with second := second }
          match ← step? colons (stop - 2) r with
          | .ended e => return { t with atEnd := e }
          | .fraction stop r => fraction? t stop r
          | .field stop r => fraction? t stop r

def startsOffset (b : UInt8) : Bool :=
  b.toNat = 43 || b.toNat = 45 || b.toNat = 90

/-- A time of day with its offset in microseconds; no offset when none is written. An offset of less
than a second counts as none at all. -/
def timeAndOffset? (bs : List UInt8) : Option (RawTime × Option Int) := do
  let stop := (bs.takeWhile (!startsOffset ·)).length
  let t ← time? stop bs
  match bs.drop stop with
  | [] => if t.atEnd then return (t, none) else none
  | mark :: r =>
      if mark.toNat = 90 then (if front r = 0 then return (t, some 0) else none)
      else
        let o ← time? r.length r
        if o.atEnd then
          let seconds := (o.hour * 60 + o.minute) * 60 + o.second
          let micros : Int := seconds * second + o.micro
          let signed := if mark.toNat = 45 then -micros else micros
          return (t, some (if seconds = 0 then 0 else signed))
        else none

/-- The octets after the character that separates date and time. -/
def afterSeparator (bs : List UInt8) : List UInt8 :=
  let b := front bs
  if b < 0x80 then bs.drop 1
  else if b / 16 = 0xe then bs.drop 3
  else if b / 16 = 0xf then bs.drop 4
  else bs.drop 2

def parts? (s : String) : Option (RawDate × RawTime × Option Int) := do
  let bs := Utf8.encode s
  if s.length < 7 then none
  else
    let length ← dateLength? bs
    let date ← date? length bs
    if bs.length ≤ length then return (date, ⟨0, 0, 0, 0, true⟩, none)
    else
      let (time, offset) ← timeAndOffset? (afterSeparator (bs.drop length))
      return (date, time, offset)

/-- Reads a timestamp. The offset is checked first, then the fields from the year on. -/
def read (s : String) : Except Defect Instant :=
  match parts? s with
  | none => .error (.shape s)
  | some (date, time, offset) =>
      let ahead := offset.getD 0
      if dayLength ≤ ahead.natAbs then .error (.offset ahead)
      else
        match Date.defect? date.year date.month date.day with
        | some d => .error (.field d)
        | none =>
            match Reading.timeDefect? time.hour time.minute time.second with
            | some d => .error (.field d)
            | none =>
                let date : Date := ⟨date.year.toNat, date.month.toNat, date.day.toNat⟩
                let r : Reading := ⟨date, time.hour, time.minute, time.second, time.micro⟩
                .ok ⟨r.micros, offset⟩

/-- A text with a final `z` of either case, also one before a final line end, replaced by a zero
offset. -/
def withoutZulu (s : String) : String :=
  match s.toList.reverse with
  | 'Z' :: r => String.ofList (r.reverse ++ "+00:00".toList)
  | 'z' :: r => String.ofList (r.reverse ++ "+00:00".toList)
  | '\n' :: 'Z' :: r => String.ofList (r.reverse ++ "+00:00\n".toList)
  | '\n' :: 'z' :: r => String.ofList (r.reverse ++ "+00:00\n".toList)
  | _ => s

/-- Reads a timestamp in which a final `z` of either case stands for universal time. -/
def parse (s : String) : Except Defect Instant :=
  read (withoutZulu s)

end AcmeClient.Calendar.Timestamp
