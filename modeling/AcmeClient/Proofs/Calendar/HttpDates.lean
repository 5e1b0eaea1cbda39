import AcmeClient.Proofs.Calendar.DateWords
import AcmeClient.Proofs.Calendar.Days

/-!
# Dates of mail and HTTP read back

Three forms of dates are in use: the one of mail with a zone, an older one with hyphens and a year of
two digits, and the one that the clocks of some systems show. Each of them is written here, and the one
reader of them finds the fields that were written:

* `HttpDate.mailText`, `HttpDate.hyphenText`, `HttpDate.clockText` — the three forms;
* `HttpDate.fieldsOf?_dayFirst`, `HttpDate.fieldsOf?_monthFirst` — the fields of five words in the two
  orders;
* `HttpDate.zoneSeconds_numericZone` — the distance of a zone of hours and minutes;
* `HttpDate.Fields.toInstant_of_isValid` — the instant of the fields that a clock shows;
* `HttpDate.parse_joined` — from the words of a text to its instant;
* `RetryAfter.dates_are_read_back` — what is read of every form of every instant.
-/

namespace AcmeClient.Calendar.HttpDate

open Number Text

/-! ### The three forms -/

/-- The days of the week from Monday, in full. -/
def weekdayNames : List String :=
  ["Monday", "Tuesday", "Wednesday", "Thursday", "Friday", "Saturday", "Sunday"]

/-- The months, in full. -/
def yearNames : List String :=
  ["January", "February", "March", "April", "May", "June", "July", "August", "September", "October",
    "November", "December"]

/-- The day of the week of a date. -/
def dayName (d : Date) : List Char :=
  (weekdayNames.getD (weekday d.ordinal) "").toList

def monthName (d : Date) : List Char :=
  (yearNames.getD (d.month - 1) "").toList.take 3

/-- Hours, minutes and seconds of two digits each. -/
def clockOf (r : Reading) : List Char :=
  joined ':' [digitsOf 2 r.hour, digitsOf 2 r.minute, digitsOf 2 r.second]

/-- A date of mail with a zone: `Sun, 06 Nov 1994 08:49:37 GMT`. -/
def mailText (r : Reading) (zone : List Char) : String :=
  String.ofList (joined ' ' [(dayName r.date).take 3 ++ [','], digitsOf 2 r.date.day, monthName r.date,
    digitsOf 4 r.date.year, clockOf r, zone])

/-- A date with hyphens and a year of two digits: `Sunday, 06-Nov-94 08:49:37 GMT`. -/
def hyphenText (r : Reading) : String :=
  String.ofList (joined ' ' [dayName r.date ++ [','],
    joined '-' [digitsOf 2 r.date.day, monthName r.date, digitsOf 2 (r.date.year % 100)], clockOf r,
    "GMT".toList])

/-- A date as clocks show it, with a blank in front of a day of one digit:
`Sun Nov  6 08:49:37 1994`. -/
def clockText (r : Reading) : String :=
  String.ofList (joined ' ' ((dayName r.date).take 3 :: monthName r.date ::
    ((if r.date.day < 10 then [[]] else []) ++ [numeral r.date.day, clockOf r,
    digitsOf 4 r.date.year])))

/-- A zone by its distance from universal time: a sign, and two digits each for hours and minutes. -/
def numericZone (isWest : Bool) (hours minutes : Nat) : List Char :=
  (if isWest then '-' else '+') :: (digitsOf 2 hours ++ digitsOf 2 minutes)

/-- The seconds by which such a zone is ahead of universal time. -/
def secondsAhead (isWest : Bool) (hours minutes : Nat) : Int :=
  let size : Nat := hours * 3600 + minutes * 60
  if isWest then -size else size

/-! ### The time of day -/

section Clock

variable {r : Reading}

theorem clock?_clockOf :
    clock? (clockOf r) = some (digitsOf 2 r.hour, digitsOf 2 r.minute, digitsOf 2 r.second) := by
  have hdigits {n : Nat} : ':' ∉ digitsOf 2 n :=
    notMem_of_digits (fun _ => isDigit_of_mem_padded) rfl
  have hpieces : pieces ':' (clockOf r)
      = [digitsOf 2 r.hour, digitsOf 2 r.minute, digitsOf 2 r.second] := by
    refine pieces_joined (List.cons_ne_nil _ _) ?_
    simp only [List.forall_mem_cons]
    exact ⟨hdigits, hdigits, hdigits, nofun⟩
  rw [clock?, hpieces]

/-- The characters of a time of day are digits and colons. -/
theorem mem_clockOf {c : Char} (hc : c ∈ clockOf r) : isDigit c = true ∨ c = ':' := by
  simp only [clockOf, joined, List.mem_append, List.mem_cons] at hc
  rcases hc with hc | hc | hc | hc | hc
  · exact .inl (isDigit_of_mem_padded hc)
  · exact .inr hc
  · exact .inl (isDigit_of_mem_padded hc)
  · exact .inr hc
  · exact .inl (isDigit_of_mem_padded hc)

theorem withoutComma_clockOf : withoutComma (clockOf r) = clockOf r := by
  refine if_neg fun hlast => ?_
  rcases mem_clockOf (List.mem_of_getLast? hlast) with hdigit | hcolon
  · cases hdigit
  · cases hcolon

variable (h : r.IsValid)
include h

theorem isNumber_hour : IsNumber (digitsOf 2 r.hour) r.hour :=
  isNumber_digitsOf (by decide) (Nat.lt_trans h.hour_lt (by decide)) (by decide)

theorem isNumber_minute : IsNumber (digitsOf 2 r.minute) r.minute :=
  isNumber_digitsOf (by decide) (Nat.lt_trans h.minute_lt (by decide)) (by decide)

theorem isNumber_second : IsNumber (digitsOf 2 r.second) r.second :=
  isNumber_digitsOf (by decide) (Nat.lt_trans h.second_lt (by decide)) (by decide)

theorem isWord_clockOf : IsWord (clockOf r) := by
  refine ⟨List.append_ne_nil_of_left_ne_nil (isNumber_hour h).ne_nil _, fun c hc => ?_⟩
  rcases mem_clockOf hc with hdigit | rfl
  · exact isBlank_of_isDigit hdigit
  · decide

theorem head?_clockOf : (clockOf r).head? ≠ some ':' := by
  intro hhead
  obtain ⟨c, cs, hcs⟩ := List.exists_cons_of_ne_nil (isNumber_hour h).ne_nil
  have hc : isDigit c = true := (isNumber_hour h).digits c (hcs ▸ List.mem_cons_self)
  rw [clockOf, joined, hcs] at hhead
  obtain rfl : c = ':' := Option.some.inj hhead
  cases hc

/-! ### The fields -/

variable {dd mm yy : List Char} (tz : List Char) {d m y : Nat} (hday : IsNumber dd d)
  (hyear : IsNumber yy y) (hmonth : month? mm = some m)
include hday hyear hmonth

omit h hday hyear in
theorem ne_nil_of_month? : mm ≠ [] := by
  rintro rfl
  have hnone : month? [] = none := by decide +kernel
  rw [hnone] at hmonth
  cases hmonth

/-- Day, month and year may stand in front of the time. -/
theorem fieldsOf?_dayFirst :
    fieldsOf? dd mm yy (clockOf r) tz
      = some ⟨fullYear y, m, d, r.hour, r.minute, r.second, zoneSeconds tz⟩ := by
  obtain ⟨hdigits, hyyne, hyear⟩ := hyear
  have hcolon : ':' ∉ yy := notMem_of_digits hdigits rfl
  obtain ⟨c, cs, rfl⟩ := List.exists_cons_of_ne_nil hyyne
  have hfirst := isDigitLike_of_isDigit (hdigits c List.mem_cons_self)
  simp only [fieldsOf?, hday.ne_nil, ne_nil_of_month? hmonth, hyyne, hmonth, or_self, if_false, hcolon,
    false_and, withoutComma_of_digits hday.digits, withoutComma_of_digits hdigits, hfirst, if_true,
    withoutComma_clockOf, clock?_clockOf, hday.value, hyear, Option.bind_eq_bind, Option.bind_some,
    (isNumber_hour h).value, (isNumber_minute h).value, (isNumber_second h).value, Option.pure_def]

/-- The month may stand in front of the day, and the year behind the time. -/
theorem fieldsOf?_monthFirst :
    fieldsOf? mm dd (clockOf r) yy tz
      = some ⟨fullYear y, m, d, r.hour, r.minute, r.second, zoneSeconds tz⟩ := by
  obtain ⟨hdigits, hyyne, hyear⟩ := hyear
  have hcolon : ':' ∈ clockOf r := by simp [clockOf, joined]
  have hclock : clockOf r ≠ [] := List.ne_nil_of_mem hcolon
  obtain ⟨c, cs, rfl⟩ := List.exists_cons_of_ne_nil hyyne
  have hfirst := isDigitLike_of_isDigit (hdigits c List.mem_cons_self)
  simp only [fieldsOf?, hday.ne_nil, ne_nil_of_month? hmonth, hclock,
    month?_of_digits hday.digits hday.ne_nil, hmonth, or_self, if_false, hcolon, head?_clockOf h, ne_eq,
    not_false_iff, and_self, Option.map_some, map_toLower_of_digits hday.digits,
    withoutComma_of_digits hday.digits, withoutComma_of_digits hdigits, hfirst, if_true,
    withoutComma_clockOf, clock?_clockOf, hday.value, hyear, Option.bind_eq_bind, Option.bind_some,
    (isNumber_hour h).value, (isNumber_minute h).value, (isNumber_second h).value, Option.pure_def]

end Clock

/-! ### Names -/

/-- The short name of a month is that of its number. -/
theorem monthName_spec {d : Date} (h : d.IsValid) :
    IsName (monthName d) ∧ month? (monthName d) = some d.month := by
  have all : ∀ k ∈ List.range 12, IsName ((yearNames.getD k "").toList.take 3) ∧
      month? ((yearNames.getD k "").toList.take 3) = some (k + 1) := by decide +kernel
  have hmonth := all (d.month - 1) (List.mem_range.2 (by have := h.month_le; omega))
  rwa [Nat.sub_add_cancel h.month_pos] at hmonth

/-- The names of a day of the week; the short one may stand without a comma. -/
theorem dayName_spec (d : Date) :
    IsName (dayName d) ∧ IsName ((dayName d).take 3) ∧ lower ((dayName d).take 3) ∈ dayNames := by
  have all : ∀ k ∈ List.range 7, IsName (weekdayNames.getD k "").toList ∧
      IsName ((weekdayNames.getD k "").toList.take 3) ∧
      lower ((weekdayNames.getD k "").toList.take 3) ∈ dayNames := by decide +kernel
  exact all _ (List.mem_range.2 (Nat.mod_lt _ (by decide)))

/-! ### Zones -/

theorem isWord_universal : IsWord "GMT".toList :=
  (by decide : IsName "GMT".toList).isWord

theorem zoneSeconds_universal : zoneSeconds "GMT".toList = 0 := by
  decide +kernel

theorem zoneSeconds_nil : zoneSeconds [] = 0 := by
  decide +kernel

/-- Signs and digits stay as they are in upper case. -/
theorem upper_of_signs {cs : List Char} (h : ∀ c ∈ cs, c ∈ '-' :: '+' :: tenDigits) :
    upper cs = String.ofList cs := by
  have all : ('-' :: '+' :: tenDigits).all (fun c => (upper [c]).toList = [c]) = true := by decide
  have hcons (c : Char) (cs : List Char) :
      (upper (c :: cs)).toList = (upper [c]).toList ++ (upper cs).toList := by
    simp only [upper, String.toList_ofList, List.flatMap_cons, List.flatMap_nil, List.append_nil]
  apply String.toList_injective
  rw [String.toList_ofList]
  induction cs with
  | nil => rfl
  | cons c cs ih =>
    obtain ⟨hc, hcs⟩ := List.forall_mem_cons.1 h
    rw [hcons, of_decide_eq_true (List.all_eq_true.1 all c hc), ih hcs, List.singleton_append]

theorem isWord_numericZone (isWest : Bool) (hours minutes : Nat) :
    IsWord (numericZone isWest hours minutes) := by
  refine ⟨List.cons_ne_nil _ _, List.forall_mem_cons.2 ⟨?_, List.forall_mem_append.2 ?_⟩⟩
  · cases isWest <;> decide
  · exact ⟨isBlank_of_digits fun _ => isDigit_of_mem_padded,
      isBlank_of_digits fun _ => isDigit_of_mem_padded⟩

section NumericZone

variable {hours minutes : Nat}

/-- The digits of a zone. -/
theorem isDigit_of_mem_zone :
    ∀ c ∈ digitsOf 2 hours ++ digitsOf 2 minutes, isDigit c = true :=
  List.forall_mem_append.2 ⟨fun _ => isDigit_of_mem_padded, fun _ => isDigit_of_mem_padded⟩

theorem upper_numericZone (isWest : Bool) :
    upper (numericZone isWest hours minutes) = String.ofList (numericZone isWest hours minutes) := by
  refine upper_of_signs (List.forall_mem_cons.2 ⟨?_, fun c hc => ?_⟩)
  · cases isWest <;> decide
  · have hdigit := isDigit_of_mem_zone c hc
    exact List.mem_cons_of_mem _ (List.mem_cons_of_mem _ (mem_of_isDigit hdigit))

/-- No zone that has a name begins with a sign. -/
theorem lookup_numericZone (isWest : Bool) :
    zones.lookup (String.ofList (numericZone isWest hours minutes)) = none := by
  have all : ∀ p ∈ zones, p.1.toList.head? ≠ some '-' ∧ p.1.toList.head? ≠ some '+' := by
    decide +kernel
  refine List.lookup_eq_none_iff.2 fun p hp => bne_iff_ne.2 ?_
  intro hname
  have hhead := all p hp
  rw [← hname, String.toList_ofList] at hhead
  cases isWest
  · exact hhead.2 rfl
  · exact hhead.1 rfl

variable (hhours : hours < 100) (hminutes : minutes < 100)
include hhours hminutes

/-- As a number, a zone has its hours in the hundreds. -/
theorem readInt?_numericZone (isWest : Bool) :
    readInt? (String.ofList (numericZone isWest hours minutes))
      = some (if isWest then -((hours * 100 + minutes : Nat) : Int)
          else (hours * 100 + minutes : Nat)) := by
  have hlength := length_digitsOf (by decide : 0 < 2) hminutes
  have hvalue : ofDigits (digitsOf 2 hours ++ digitsOf 2 minutes) = hours * 100 + minutes := by
    rw [ofDigits_append, hlength, digitsOf, digitsOf, ofDigits_padded, ofDigits_padded]
    rfl
  have hgrouped := isGrouped_of_digits (@isDigit_of_mem_zone hours minutes)
    (List.append_ne_nil_of_right_ne_nil _ (List.ne_nil_of_length_pos (by omega)))
  have hlimit : ((digitsOf 2 hours ++ digitsOf 2 minutes).map fun c => c.toNat - 48).length
      ≤ integerDigitLimit := by
    rw [List.length_map, List.length_append, length_digitsOf (by decide) hhours, hlength]
    decide
  rw [← hvalue, ← number_values]
  cases isWest
  · exact readInt?_ofList (.plus hgrouped) hlimit
  · exact readInt?_ofList (.minus hgrouped) hlimit

theorem natAbs_secondsAhead_lt (isWest : Bool) :
    (secondsAhead isWest hours minutes).natAbs < 1000000 := by
  rw [secondsAhead]
  cases isWest
  · simp only [Bool.false_eq_true, if_false]
    omega
  · simp only [if_true]
    omega

theorem zoneSeconds_numericZone (isWest : Bool) :
    zoneSeconds (numericZone isWest hours minutes) = secondsAhead isWest hours minutes := by
  have hneg (n : Nat) : -(n : Int) < 0 ↔ 0 < n := by omega
  rw [zoneSeconds]
  simp only [upper_numericZone, lookup_numericZone, readInt?_numericZone hhours hminutes,
    Option.getD_some, secondsAhead]
  cases isWest
  · simp only [Bool.false_eq_true, if_false, Int.natAbs_natCast]
    rw [if_neg (Int.not_lt.2 (Int.natCast_nonneg _))]
    omega
  · simp only [if_true, Int.natAbs_neg, Int.natAbs_natCast, hneg]
    split
    · omega
    · omega

end NumericZone

/-! ### Instants -/

theorem widthDefect?_natCast {n : Nat} (h : n < 100000) : widthDefect? n = none := by
  have h31 : Nat.pow 2 31 = 2147483648 := rfl
  have h63 : Nat.pow 2 63 = 9223372036854775808 := rfl
  rw [widthDefect?, h31, h63, if_neg (by omega), if_neg (by omega), if_neg (by omega)]

/-- The fields that a clock shows, with a zone that is some days ahead at most, denote the instant so
much earlier. -/
theorem Fields.toInstant_of_isValid {r : Reading} (h : r.IsValid) {ahead : Int}
    (hahead : ahead.natAbs < 1000000) {u : Nat}
    (hu : (u : Int) = Reading.micros { r with micro := 0 } - ahead * (Calendar.second : Int))
    (hend : u < endOfTime) :
    Fields.toInstant ⟨r.date.year, r.date.month, r.date.day, r.hour, r.minute, r.second, ahead⟩
      = .ok ⟨u, some 0⟩ := by
  have hrange : RangeDefect.ofSeconds? ahead = none := by
    have h31 : Nat.pow 2 31 = 2147483648 := rfl
    rw [RangeDefect.ofSeconds?, h31, if_neg (by omega), if_neg (by omega)]
  have hyear := h.date.year_le
  have hmonth := h.date.month_le
  have hday := h.date.day_lt
  have hhour := h.hour_lt
  have hminute := h.minute_lt
  have hsecond := h.second_lt
  rw [lastYear] at hyear
  have hwidth : [(r.date.year : Int), r.date.month, r.date.day, r.hour, r.minute, r.second].findSome?
      widthDefect? = none := by
    simp only [List.findSome?_eq_none_iff, List.forall_mem_cons]
    exact ⟨widthDefect?_natCast (by omega), widthDefect?_natCast (by omega),
      widthDefect?_natCast (by omega), widthDefect?_natCast (by omega),
      widthDefect?_natCast (by omega), widthDefect?_natCast (by omega), List.forall_mem_nil _⟩
  have hdefect : Fields.defect?
      ⟨r.date.year, r.date.month, r.date.day, r.hour, r.minute, r.second, ahead⟩ = none := by
    simp only [Fields.defect?, hrange, hwidth, h.date.defect?_eq_none, h.timeDefect?_eq_none]
    rfl
  have hshift : (Instant.mk (Reading.micros { r with micro := 0 }) (some 0)).shift?
      (-ahead * (Calendar.second : Int)) = some ⟨u, some 0⟩ :=
    Instant.shift?_eq_some_iff.2 ⟨u, by rw [hu, Int.neg_mul]; rfl, hend, rfl⟩
  simp only [Fields.toInstant, hdefect, Int.toNat_natCast, hshift]

theorem Fields.toInstant_of_universal {r : Reading} (h : r.IsValid)
    (hend : Reading.micros { r with micro := 0 } < endOfTime) :
    Fields.toInstant ⟨r.date.year, r.date.month, r.date.day, r.hour, r.minute, r.second, 0⟩
      = .ok ⟨Reading.micros { r with micro := 0 }, some 0⟩ :=
  toInstant_of_isValid h (by decide) (by rw [Int.zero_mul, Int.sub_zero]) hend

/-! ### The three forms read back -/

/-- Words that start with a name denote the instant that is found in them, however many blanks stand
between them. -/
theorem parse_joined {name first dd mm yy tm tz : List Char} {ws found : List (List Char)}
    {f : Fields} {t : Instant} (now : Instant) (hname : IsName name) (hfirst : name <+: first)
    (hlast : (first :: ws).getLast? ≠ some [])
    (hwords : (first :: ws).filter (· ≠ []) = found) (hfound : ∀ w ∈ found, IsWord w)
    (hfive : fiveWords? (withoutHyphens (withoutDayName found)) = some (dd, mm, yy, tm, tz))
    (hfields : fieldsOf? dd mm yy tm tz = some f) (hinstant : f.toInstant = .ok t) :
    RetryAfter.parse (String.ofList (joined ' ' (first :: ws))) now = .ok t := by
  have hblank : ∀ w ∈ first :: ws, ∀ c ∈ w, isBlank c = false := by
    intro w hw c hc
    refine (hfound w ?_).chars c hc
    rw [← hwords]
    exact List.mem_filter.2 ⟨hw, decide_eq_true (List.ne_nil_of_mem hc)⟩
  obtain ⟨rest, rfl⟩ := hfirst
  have hstrip := strip_joined hblank (List.append_ne_nil_of_left_ne_nil hname.ne_nil _) hlast
  have hread : readInt? (String.ofList (joined ' ' ((name ++ rest) :: ws))) = none := by
    obtain ⟨after, hafter⟩ := joined_cons_append ' ' (name ++ rest) ws
    rw [hafter, List.append_assoc] at hstrip ⊢
    exact readInt?_of_name hname hstrip
  have hdate : fields? (String.ofList (joined ' ' ((name ++ rest) :: ws))) = some f := by
    rw [fields?, words_joined hblank, hwords, hfive]
    exact hfields
  rw [RetryAfter.parse, hstrip, hread]
  simp only [RetryAfter.ofDate, hdate, hinstant]

theorem filter_of_isWord {ws : List (List Char)} (h : ∀ w ∈ ws, IsWord w) :
    ws.filter (· ≠ []) = ws :=
  List.filter_eq_self.2 fun w hw => decide_eq_true (h w hw).ne_nil

/-- A day of the week with a comma is left out. -/
theorem withoutDayName_comma (name : List Char) (ws : List (List Char)) :
    withoutDayName ((name ++ [',']) :: ws) = ws := by
  rw [withoutDayName, List.getLast?_concat]
  exact if_pos (.inl rfl)

/-- Three parts of a date take the place of the word that they were found in. -/
theorem fiveWords?_of_pieces {date dd mm yy time zone : List Char}
    (h : pieces '-' date = [dd, mm, yy]) :
    fiveWords? (withoutHyphens [date, time, zone]) = some (dd, mm, yy, time, zone) := by
  rw [withoutHyphens, h]
  rfl

/-- A year at the end holds no zone. -/
theorem fiveWords?_of_cutZone {a b c d : List Char} (h : cutZone d = none) :
    fiveWords? (withoutHyphens [a, b, c, d]) = some (a, b, c, d, []) := by
  simp only [withoutHyphens, fiveWords?, h]

section Forms

variable {r : Reading} (h : r.IsValid) (now : Instant)
include h

theorem isNumber_day : IsNumber (digitsOf 2 r.date.day) r.date.day :=
  isNumber_digitsOf (by decide) (Nat.lt_trans h.date.day_lt (by decide)) (by decide)

theorem isNumber_year : IsNumber (digitsOf 4 r.date.year) r.date.year :=
  isNumber_digitsOf (by decide) (Nat.lt_succ_of_le h.date.year_le) (by decide)

omit h in
/-- Years of more than two digits stand as they are. -/
theorem fullYear_of_le {y : Nat} (hy : 100 ≤ y) : fullYear y = y := by
  rw [fullYear, if_neg (by omega)]

omit h in
/-- Two digits tell the year among the hundred years from 1969. -/
theorem fullYear_mod {y : Nat} (hfirst : 1969 ≤ y) (hlast : y ≤ 2068) :
    fullYear (y % 100 : Nat) = y := by
  rw [fullYear, if_pos (by omega)]
  split <;> omega

/-- The form of mail is read with the distance of its zone taken off. -/
theorem parse_mailText (hyear : 100 ≤ r.date.year) {zone : List Char} (hzone : IsWord zone)
    (hsmall : (zoneSeconds zone).natAbs < 1000000) {u : Nat}
    (hu : (u : Int)
      = Reading.micros { r with micro := 0 } - zoneSeconds zone * (Calendar.second : Int))
    (hend : u < endOfTime) : RetryAfter.parse (mailText r zone) now = .ok ⟨u, some 0⟩ := by
  obtain ⟨hmonthName, hmonth⟩ := monthName_spec h.date
  obtain ⟨-, hdayName, -⟩ := dayName_spec r.date
  have hwords : ∀ w ∈ [(dayName r.date).take 3 ++ [','], digitsOf 2 r.date.day, monthName r.date,
      digitsOf 4 r.date.year, clockOf r, zone], IsWord w := by
    simp only [List.forall_mem_cons]
    exact ⟨hdayName.isWord.append (List.forall_mem_singleton.2 rfl), (isNumber_day h).isWord,
      hmonthName.isWord, (isNumber_year h).isWord, isWord_clockOf h, hzone, nofun⟩
  refine parse_joined now hdayName (List.prefix_append _ _) (mt Option.some.inj hzone.ne_nil)
    (filter_of_isWord hwords) hwords ?_
    (fieldsOf?_dayFirst h zone (isNumber_day h) (isNumber_year h) hmonth) ?_
  · rw [withoutDayName_comma]
    rfl
  · rw [fullYear_of_le hyear]
    exact Fields.toInstant_of_isValid h hsmall hu hend

/-- The form with hyphens is one word for the date, which is cut before the fields are looked for. -/
theorem parse_hyphenText (hfirst : 1969 ≤ r.date.year) (hlast : r.date.year ≤ 2068)
    (hend : Reading.micros { r with micro := 0 } < endOfTime) :
    RetryAfter.parse (hyphenText r) now
      = .ok ⟨Reading.micros { r with micro := 0 }, some 0⟩ := by
  obtain ⟨hmonthName, hmonth⟩ := monthName_spec h.date
  obtain ⟨hdayName, -⟩ := dayName_spec r.date
  have hyear : IsNumber (digitsOf 2 (r.date.year % 100)) (r.date.year % 100) :=
    isNumber_digitsOf (by decide) (Nat.mod_lt _ (by decide)) (by decide)
  have hparts : pieces '-' (joined '-' [digitsOf 2 r.date.day, monthName r.date,
      digitsOf 2 (r.date.year % 100)])
        = [digitsOf 2 r.date.day, monthName r.date, digitsOf 2 (r.date.year % 100)] := by
    refine pieces_joined (List.cons_ne_nil _ _) ?_
    simp only [List.forall_mem_cons]
    refine ⟨notMem_of_digits (isNumber_day h).digits rfl, fun hmem => ?_,
      notMem_of_digits hyear.digits rfl, nofun⟩
    exact (hmonthName.chars _ hmem).2.2 (by decide)
  have hdate : IsWord (joined '-' [digitsOf 2 r.date.day, monthName r.date,
      digitsOf 2 (r.date.year % 100)]) := by
    refine (isNumber_day h).isWord.append (List.forall_mem_cons.2 ⟨by decide, ?_⟩)
    exact List.forall_mem_append.2 ⟨hmonthName.isWord.chars,
      List.forall_mem_cons.2 ⟨by decide, hyear.isWord.chars⟩⟩
  have hwords : ∀ w ∈ [dayName r.date ++ [','], joined '-' [digitsOf 2 r.date.day, monthName r.date,
      digitsOf 2 (r.date.year % 100)], clockOf r, "GMT".toList], IsWord w := by
    simp only [List.forall_mem_cons]
    exact ⟨hdayName.isWord.append (List.forall_mem_singleton.2 rfl), hdate, isWord_clockOf h,
      isWord_universal, nofun⟩
  refine parse_joined now hdayName (List.prefix_append _ _)
    (mt Option.some.inj isWord_universal.ne_nil) (filter_of_isWord hwords) hwords ?_
    (fieldsOf?_dayFirst h "GMT".toList (isNumber_day h) hyear hmonth) ?_
  · rw [withoutDayName_comma, fiveWords?_of_pieces hparts]
  · rw [fullYear_mod hfirst hlast, zoneSeconds_universal]
    exact Fields.toInstant_of_universal h hend

/-- The form of clocks has no zone, and its last word is the year. -/
theorem parse_clockText (hyear : 100 ≤ r.date.year)
    (hend : Reading.micros { r with micro := 0 } < endOfTime) :
    RetryAfter.parse (clockText r) now
      = .ok ⟨Reading.micros { r with micro := 0 }, some 0⟩ := by
  obtain ⟨hmonthName, hmonth⟩ := monthName_spec h.date
  obtain ⟨-, hdayName, hknown⟩ := dayName_spec r.date
  have hday : IsNumber (numeral r.date.day) r.date.day :=
    isNumber_numeral (Nat.lt_trans h.date.day_lt (by decide))
  have hwords : ∀ w ∈ [(dayName r.date).take 3, monthName r.date, numeral r.date.day, clockOf r,
      digitsOf 4 r.date.year], IsWord w := by
    simp only [List.forall_mem_cons]
    exact ⟨hdayName.isWord, hmonthName.isWord, hday.isWord, isWord_clockOf h,
      (isNumber_year h).isWord, nofun⟩
  -- the blank in front of a day of one digit leaves no word between itself and the one before
  have hgap : ((dayName r.date).take 3 :: monthName r.date ::
      ((if r.date.day < 10 then [[]] else []) ++ [numeral r.date.day, clockOf r,
      digitsOf 4 r.date.year])).filter (· ≠ [])
        = [(dayName r.date).take 3, monthName r.date, numeral r.date.day, clockOf r,
          digitsOf 4 r.date.year] := by
    rw [← filter_of_isWord hwords]
    split <;> rfl
  have hzone : cutZone (digitsOf 4 r.date.year) = none := by
    have hdigits := (isNumber_year h).digits
    rw [cutZone, if_neg (notMem_of_digits hdigits rfl)]
    exact if_neg fun hmem => notMem_of_digits hdigits rfl hmem.1
  refine parse_joined now hdayName (List.prefix_refl _) ?_ hgap hwords ?_
    (fieldsOf?_monthFirst h [] hday (isNumber_year h) hmonth) ?_
  · rw [← List.cons_append, ← List.cons_append, List.getLast?_append]
    exact mt Option.some.inj (isNumber_year h).ne_nil
  · rw [withoutDayName, if_pos (.inr hknown), fiveWords?_of_cutZone hzone]
  · rw [fullYear_of_le hyear, zoneSeconds_nil]
    exact Fields.toInstant_of_universal h hend

end Forms

end AcmeClient.Calendar.HttpDate

namespace AcmeClient.RetryAfter

open Calendar HttpDate

/-- **Dates are read back.** Whatever whole second of universal time a date is written of, it names
exactly that instant: in the form of mail and in the form of clocks from the year 100 on, when years
are written with four digits, and in the form with hyphens in the hundred years that two digits tell
apart. A zone of hours and minutes in the form of mail moves the instant by its distance from
universal time, as long as the calendar goes that far. -/
theorem dates_are_read_back {s : Nat} (hs : s * second < endOfTime) (now : Instant) :
    (100 ≤ (Reading.ofMicros (s * second)).date.year →
      parse (mailText (Reading.ofMicros (s * second)) "GMT".toList) now = .ok ⟨s * second, some 0⟩ ∧
      parse (clockText (Reading.ofMicros (s * second))) now = .ok ⟨s * second, some 0⟩ ∧
      ∀ (isWest : Bool) (hours minutes u : Nat), hours < 100 → minutes < 100 →
        (u : Int) = (s * second : Nat) - secondsAhead isWest hours minutes * (second : Int) →
        u < endOfTime →
        parse (mailText (Reading.ofMicros (s * second)) (numericZone isWest hours minutes)) now
          = .ok ⟨u, some 0⟩) ∧
    (1969 ≤ (Reading.ofMicros (s * second)).date.year →
      (Reading.ofMicros (s * second)).date.year ≤ 2068 →
      parse (hyphenText (Reading.ofMicros (s * second))) now = .ok ⟨s * second, some 0⟩) := by
  have hvalid := Reading.isValid_ofMicros hs
  have hmicros := Reading.micros_seconds hs
  rw [Nat.mul_div_cancel s (by decide)] at hmicros
  generalize Reading.ofMicros (s * second) = r at hvalid hmicros ⊢
  have hend : Reading.micros { r with micro := 0 } < endOfTime := by rwa [hmicros]
  refine ⟨fun hyear => ⟨?_, ?_, fun isWest hours minutes u hhours hminutes hu hu' => ?_⟩,
    fun hfirst hlast => ?_⟩
  · refine parse_mailText hvalid now hyear isWord_universal ?_ ?_ hs
    · rw [zoneSeconds_universal]
      decide
    · rw [zoneSeconds_universal, hmicros, Int.zero_mul, Int.sub_zero]
  · rw [parse_clockText hvalid now hyear hend, hmicros]
  · have hzone := zoneSeconds_numericZone hhours hminutes isWest
    refine parse_mailText hvalid now hyear (isWord_numericZone isWest hours minutes) ?_ ?_ hu'
    · rw [hzone]
      exact natAbs_secondsAhead_lt hhours hminutes isWest
    · rw [hzone, hmicros]
      exact hu
  · rw [parse_hyphenText hvalid now hfirst hlast hend, hmicros]

theorem dates_are_read_back_november :
    let now : Instant := ⟨0, some 0⟩
    parse "Sun, 06 Nov 1994 08:49:37 GMT" now = .ok ⟨62919708577000000, some 0⟩ ∧
      parse "Sun Nov  6 08:49:37 1994" now = .ok ⟨62919708577000000, some 0⟩ ∧
      parse "Sun, 06 Nov 1994 08:49:37 -0130" now = .ok ⟨62919713977000000, some 0⟩ ∧
      parse "Sunday, 06-Nov-94 08:49:37 GMT" now = .ok ⟨62919708577000000, some 0⟩ := by
  intro now
  have hreading : Reading.ofMicros (62919708577 * second) = ⟨⟨1994, 11, 6⟩, 8, 49, 37, 0⟩ := by
    decide +kernel
  obtain ⟨hfour, htwo⟩ := dates_are_read_back (s := 62919708577) (by decide) now
  rw [hreading] at hfour htwo
  obtain ⟨hmail, hclock, hzone⟩ := hfour (by decide)
  have hwest := hzone true 1 30 62919713977000000 (by decide) (by decide) (by decide) (by decide)
  have hhyphen := htwo (by decide) (by decide)
  have htexts : mailText ⟨⟨1994, 11, 6⟩, 8, 49, 37, 0⟩ "GMT".toList = "Sun, 06 Nov 1994 08:49:37 GMT" ∧
      clockText ⟨⟨1994, 11, 6⟩, 8, 49, 37, 0⟩ = "Sun Nov  6 08:49:37 1994" ∧
      mailText ⟨⟨1994, 11, 6⟩, 8, 49, 37, 0⟩ (numericZone true 1 30)
        = "Sun, 06 Nov 1994 08:49:37 -0130" ∧
      hyphenText ⟨⟨1994, 11, 6⟩, 8, 49, 37, 0⟩ = "Sunday, 06-Nov-94 08:49:37 GMT" := by
    decide +kernel
  obtain ⟨htmail, htclock, htwest, hthyphen⟩ := htexts
  rw [htmail] at hmail
  rw [htclock] at hclock
  rw [htwest] at hwest
  rw [hthyphen] at hhyphen
  exact ⟨hmail, hclock, hwest, hhyphen⟩

end AcmeClient.RetryAfter
