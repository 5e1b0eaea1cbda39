import AcmeClient.Calendar.Timestamp
import AcmeClient.Proofs.Calendar.Days
import AcmeClient.Proofs.Numerals
import AcmeClient.Proofs.Utf8

/-!
# Timestamps read back

A timestamp is written with fields of fixed widths, and read octet by octet:

* `fieldOctets` — the octets of a field, with `digits?_fieldOctets`: they are read as the number;
* `dateOctets`, `clockOctets` — the octets of a date and of a time, with `date?_dateOctets` and
  `timeAndOffset?_clockOctets`, and `encode_withoutZulu` for those of a whole timestamp;
* `parse_seconds` — a timestamp that is written is read as the instant without its fraction of a
  second.
-/

namespace AcmeClient.Calendar.Timestamp

open Number Text

/-! ### Fields -/

def asciiOctets (cs : List Char) : List UInt8 :=
  cs.map fun c => UInt8.ofNat c.toNat

/-- The octets of a number that is written with a width. -/
def fieldOctets (width n : Nat) : List UInt8 :=
  asciiOctets (padded width n).toList

theorem toNat_of_isDigit {c : Char} (h : isDigit c = true) :
    (UInt8.ofNat c.toNat).toNat = c.toNat ∧ 48 ≤ c.toNat ∧ c.toNat ≤ 57 := by
  simp only [isDigit, Bool.and_eq_true, decide_eq_true_eq] at h
  exact ⟨Utf8.toNat_ofNat_of_lt (by omega), h⟩

/-- Digits are read one by one. -/
theorem digits?_asciiOctets {ds : List Char} (h : ∀ c ∈ ds, isDigit c = true) (acc : Nat)
    (rest : List UInt8) :
    digits? ds.length acc (asciiOctets ds ++ rest)
      = some (ds.foldl (fun n c => 10 * n + (c.toNat - 48)) acc, rest) := by
  induction ds generalizing acc with
  | nil => rfl
  | cons c ds ih =>
    obtain ⟨hc, hds⟩ := List.forall_mem_cons.1 h
    obtain ⟨hoctet, hrange⟩ := toNat_of_isDigit hc
    have hdigit : digit? (front (asciiOctets (c :: ds) ++ rest)) = some (c.toNat - 48) := by
      show digit? (UInt8.ofNat c.toNat).toNat = _
      rw [hoctet, digit?, if_pos hrange]
    rw [List.length_cons, digits?, hdigit]
    exact ih hds _

section Field

variable {width n : Nat} (hwidth : 0 < width) (hn : n < 10 ^ width)
include hwidth hn

theorem length_fieldOctets : (fieldOctets width n).length = width := by
  rw [fieldOctets, asciiOctets, List.length_map, length_padded hwidth hn]

/-- The octets of a field are read as its number. -/
theorem digits?_fieldOctets (rest : List UInt8) :
    digits? width 0 (fieldOctets width n ++ rest) = some (n, rest) := by
  have hall : ∀ c ∈ (padded width n).toList, isDigit c = true := fun _ => isDigit_of_mem_padded
  have hdigits := digits?_asciiOctets hall 0 rest
  rw [length_padded hwidth hn] at hdigits
  rw [fieldOctets, hdigits]
  exact congrArg (fun m => some (m, rest)) ofDigits_padded

theorem drop_fieldOctets (rest : List UInt8) :
    (fieldOctets width n ++ rest).drop width = rest :=
  List.drop_left' (length_fieldOctets hwidth hn)

theorem front_fieldOctets (rest : List UInt8) :
    48 ≤ front (fieldOctets width n ++ rest) ∧ front (fieldOctets width n ++ rest) ≤ 57 := by
  obtain ⟨c, cs, hcs⟩ := List.exists_cons_of_length_pos
    (Nat.lt_of_lt_of_eq hwidth (length_padded hwidth hn).symm)
  have hc : c ∈ (padded width n).toList := by
    rw [hcs]
    exact List.mem_cons_self
  obtain ⟨hoctet, hrange⟩ := toNat_of_isDigit (isDigit_of_mem_padded hc)
  have hfront : front (fieldOctets width n ++ rest) = (UInt8.ofNat c.toNat).toNat := by
    rw [fieldOctets, hcs]
    rfl
  rw [hfront, hoctet]
  exact hrange

end Field

theorem startsOffset_of_mem_fieldOctets {width n : Nat} {b : UInt8} (h : b ∈ fieldOctets width n) :
    startsOffset b = false := by
  obtain ⟨c, hc, rfl⟩ := List.mem_map.1 h
  obtain ⟨hoctet, hrange⟩ := toNat_of_isDigit (isDigit_of_mem_padded hc)
  simp only [startsOffset, hoctet]
  simp
  omega

/-! ### The date -/

def dateOctets (d : Date) (rest : List UInt8) : List UInt8 :=
  fieldOctets 4 d.year ++ 45 :: (fieldOctets 2 d.month ++ 45 :: (fieldOctets 2 d.day ++ rest))

section Date

variable {d : Date} (h : d.IsValid) (rest : List UInt8)
include h

theorem year_lt : d.year < 10 ^ 4 :=
  Nat.lt_succ_of_le h.year_le

theorem month_lt : d.month < 10 ^ 2 :=
  Nat.lt_of_le_of_lt h.month_le (by decide)

theorem day_lt : d.day < 10 ^ 2 :=
  Nat.lt_trans h.day_lt (by decide)

theorem drop_dateOctets : (dateOctets d rest).drop 10 = rest := by
  have hcons (b : UInt8) (n : Nat) (bs : List UInt8) : (b :: bs).drop (n + 1) = bs.drop n := rfl
  rw [dateOctets, ← List.drop_drop (i := 6) (j := 4), drop_fieldOctets (by decide) (year_lt h), hcons,
    ← List.drop_drop (i := 3) (j := 2), drop_fieldOctets (by decide) (month_lt h), hcons,
    drop_fieldOctets (by decide) (day_lt h)]

theorem length_dateOctets : (dateOctets d rest).length = rest.length + 10 := by
  simp only [dateOctets, List.length_append, List.length_cons,
    length_fieldOctets (by decide : 0 < 4) (year_lt h),
    length_fieldOctets (by decide : 0 < 2) (month_lt h),
    length_fieldOctets (by decide : 0 < 2) (day_lt h)]
  omega

/-- The octets after the year are a hyphen and then no week. -/
theorem dateLength?_dateOctets : dateLength? (dateOctets d rest) = some 10 := by
  have hcount := length_dateOctets h rest
  have hyphen : octetAt (dateOctets d rest) 4 = 45 := by
    rw [octetAt, dateOctets, drop_fieldOctets (by decide) (year_lt h)]
    rfl
  have hweek : octetAt (dateOctets d rest) 5 ≠ 87 := by
    rw [octetAt, dateOctets, ← List.drop_drop (i := 1) (j := 4),
      drop_fieldOctets (by decide) (year_lt h)]
    have := front_fieldOctets (by decide) (month_lt h) (45 :: (fieldOctets 2 d.day ++ rest))
    rw [List.drop_one, List.tail_cons]
    omega
  rw [dateLength?, if_neg (by omega), if_pos hyphen, if_neg hweek]

/-- A date is read up to its end. -/
theorem date?_dateOctets : date? 10 (dateOctets d rest) = some ⟨d.year, d.month, d.day⟩ := by
  have hhyphen (bs : List UInt8) : (front (45 :: bs) = 45) = True := eq_true rfl
  have hafter (bs : List UInt8) : afterHyphen? (decide True) (45 :: bs) = some bs := rfl
  have hweek := front_fieldOctets (by decide) (month_lt h) (45 :: (fieldOctets 2 d.day ++ rest))
  rw [date?, length_dateOctets h, dateOctets, digits?_fieldOctets (by decide) (year_lt h)]
  simp only [Option.bind_eq_bind, Option.bind_some, hhyphen, if_true, List.tail_cons]
  rw [if_neg (by omega)]
  simp only [digits?_fieldOctets (by decide : 0 < 2) (month_lt h), Option.bind_some, hafter,
    digits?_fieldOctets (by decide : 0 < 2) (day_lt h), if_true, Option.pure_def]

end Date

/-! ### The time -/

/-- The octets of the time of day in front of others. -/
def clockOctets (r : Reading) (rest : List UInt8) : List UInt8 :=
  fieldOctets 2 r.hour ++ 58 :: (fieldOctets 2 r.minute ++ 58 :: (fieldOctets 2 r.second ++ rest))

section Time

variable {r : Reading} (h : r.IsValid) (rest : List UInt8)
include h

theorem hour_lt : r.hour < 10 ^ 2 :=
  Nat.lt_trans h.hour_lt (by decide)

theorem minute_lt : r.minute < 10 ^ 2 :=
  Nat.lt_trans h.minute_lt (by decide)

theorem second_lt : r.second < 10 ^ 2 :=
  Nat.lt_trans h.second_lt (by decide)

omit h in
/-- A colon before the end of the time leads to the next field. -/
theorem step?_colon {stop : Nat} (hstop : 1 < stop) (bs : List UInt8) :
    step? true stop (58 :: bs) = some (.field (stop - 1) bs) :=
  if_neg (Nat.not_le.2 hstop)

/-- The time is read up to the sign of the offset. -/
theorem time?_clockOctets :
    time? 8 (clockOctets r (43 :: rest)) = some ⟨r.hour, r.minute, r.second, 0, false⟩ := by
  have hcolon (bs : List UInt8) : decide (front (58 :: bs) = 58) = true := rfl
  have hend (bs : List UInt8) : step? true 0 (43 :: bs) = some (.ended false) := rfl
  rw [time?, clockOctets, digits?_fieldOctets (by decide) (hour_lt h)]
  simp only [Option.bind_eq_bind, Option.bind_some, hcolon, step?_colon, Nat.reduceSub, Nat.reduceLT,
    digits?_fieldOctets (by decide : 0 < 2) (minute_lt h),
    digits?_fieldOctets (by decide : 0 < 2) (second_lt h), hend, Option.pure_def]

/-- The octets of a time, up to the offset. -/
theorem clockOctets_eq_append : ∃ clock : List UInt8, clock.length = 8 ∧
    (∀ b ∈ clock, startsOffset b = false) ∧ ∀ bs, clockOctets r bs = clock ++ bs := by
  refine ⟨clockOctets r [], ?_, fun b hb => ?_, fun bs => ?_⟩
  · simp only [clockOctets, List.length_append, List.length_cons, List.length_nil,
      length_fieldOctets (by decide : 0 < 2) (hour_lt h),
      length_fieldOctets (by decide : 0 < 2) (minute_lt h),
      length_fieldOctets (by decide : 0 < 2) (second_lt h)]
  · simp only [clockOctets, List.append_nil, List.mem_append, List.mem_cons] at hb
    rcases hb with hb | rfl | hb | rfl | hb
    · exact startsOffset_of_mem_fieldOctets hb
    · rfl
    · exact startsOffset_of_mem_fieldOctets hb
    · rfl
    · exact startsOffset_of_mem_fieldOctets hb
  · simp only [clockOctets, List.append_assoc, List.cons_append, List.append_nil]

/-- A time with the offset zero. -/
theorem timeAndOffset?_clockOctets :
    timeAndOffset? (clockOctets r [43, 48, 48, 58, 48, 48])
      = some (⟨r.hour, r.minute, r.second, 0, false⟩, some 0) := by
  obtain ⟨clock, hlength, hclock, heq⟩ := clockOctets_eq_append h
  have hstop : (clockOctets r [43, 48, 48, 58, 48, 48]).takeWhile (!startsOffset ·) = clock := by
    rw [heq, List.takeWhile_append_of_pos fun b hb => by simp [hclock b hb]]
    exact List.append_nil clock
  rw [timeAndOffset?, hstop, hlength, time?_clockOctets h, heq, List.drop_left' hlength]
  rfl

end Time

/-! ### The whole timestamp -/

/-- The characters of a timestamp, with `rest` behind them. -/
theorem toList_secondsText (r : Reading) (rest : List Char) :
    (Instant.secondsText r).toList ++ rest
      = (padded 4 r.date.year).toList ++ '-' :: ((padded 2 r.date.month).toList
        ++ '-' :: ((padded 2 r.date.day).toList ++ 'T' :: ((padded 2 r.hour).toList
        ++ ':' :: ((padded 2 r.minute).toList ++ ':' :: ((padded 2 r.second).toList ++ rest))))) := by
  simp only [Instant.secondsText, String.toList_append, String.reduceToList, List.append_assoc,
    List.cons_append, List.nil_append]

/-- The letter at the end stands for the offset zero. -/
theorem withoutZulu_append (s : String) :
    withoutZulu (s ++ "Z") = String.ofList (s.toList ++ "+00:00".toList) := by
  have hlast : (s ++ "Z").toList.reverse = 'Z' :: s.toList.reverse := by
    rw [String.toList_append, List.reverse_append]
    rfl
  rw [withoutZulu, hlast]
  simp only [List.reverse_reverse]

variable {r : Reading}

theorem toNat_lt_of_mem_padded {width n : Nat} {c : Char} (h : c ∈ (padded width n).toList) :
    c.toNat < 128 := by
  have := (toNat_of_isDigit (isDigit_of_mem_padded h)).2
  omega

/-- The octets of a timestamp are those of its date and of its time. -/
theorem encode_withoutZulu (r : Reading) :
    Utf8.encode (withoutZulu (Instant.secondsText r ++ "Z"))
      = dateOctets r.date (84 :: clockOctets r [43, 48, 48, 58, 48, 48]) := by
  rw [withoutZulu_append, toList_secondsText, Utf8.encode_of_ascii, String.toList_ofList]
  · simp only [List.map_append, List.map_cons]
    rfl
  · have hfield (width n : Nat) : ∀ c ∈ (padded width n).toList, c.toNat < 128 :=
      fun _ => toNat_lt_of_mem_padded
    have hzone : "+00:00".toList.all (·.toNat < 128) = true := by decide
    rw [String.toList_ofList]
    simp only [List.forall_mem_append, List.forall_mem_cons]
    exact ⟨hfield _ _, by decide, hfield _ _, by decide, hfield _ _, by decide, hfield _ _, by decide,
      hfield _ _, by decide, hfield _ _, fun c hc => of_decide_eq_true (List.all_eq_true.1 hzone c hc)⟩

/-- A timestamp is read as what the clock shows up to whole seconds. -/
theorem parse_secondsText (h : r.IsValid) :
    parse (Instant.secondsText r ++ "Z") = .ok ⟨Reading.micros { r with micro := 0 }, some 0⟩ := by
  have hoctets := encode_withoutZulu r
  have hlong : ¬ (withoutZulu (Instant.secondsText r ++ "Z")).length < 7 := by
    rw [← String.length_toList, withoutZulu_append, String.toList_ofList, List.length_append]
    show ¬ (Instant.secondsText r).toList.length + 6 < 7
    have := congrArg List.length (toList_secondsText r [])
    simp only [List.length_append, List.length_cons, List.length_nil] at this
    omega
  have hparts : parts? (withoutZulu (Instant.secondsText r ++ "Z"))
      = some (⟨r.date.year, r.date.month, r.date.day⟩, ⟨r.hour, r.minute, r.second, 0, false⟩,
          some 0) := by
    have hbehind (bs : List UInt8) : afterSeparator (84 :: bs) = bs := rfl
    rw [parts?, if_neg hlong, hoctets]
    simp only [dateLength?_dateOctets h.date, date?_dateOctets h.date, drop_dateOctets h.date,
      length_dateOctets h.date, hbehind, timeAndOffset?_clockOctets h, Option.bind_eq_bind,
      Option.bind_some, Option.pure_def, List.length_cons]
    rw [if_neg (by omega)]
  rw [parse, read, hparts]
  simp only [Option.getD_some, Int.natAbs_zero, h.date.defect?_eq_none, h.timeDefect?_eq_none]
  rfl

/-- The timestamp of an instant in universal time is read as the instant without its fraction of a
second. -/
theorem parse_seconds {n : Nat} (h : n < endOfTime) :
    parse (Instant.secondsText (Reading.ofMicros n) ++ "Z") = .ok ⟨n / second * second, some 0⟩ := by
  rw [parse_secondsText (Reading.isValid_ofMicros h), Reading.micros_seconds h]

end AcmeClient.Calendar.Timestamp
