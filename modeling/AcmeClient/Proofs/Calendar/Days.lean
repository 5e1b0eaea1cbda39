import AcmeClient.Calendar.Instant

/-!
# Days and their numbers

Every day of the calendar has a number, and every number up to the last one is that of a day:

* `daysBeforeYear_cycles`, `daysBeforeMonth_thirteen` — the lengths of years and months add up;
* `Date.yearOf_spec`, `Date.monthOf_spec` — the year and the month that a count of days leads into;
* `Date.ofOrdinal_spec` — a number gives a day of the calendar, and the day gives the number back;
* `Reading.isValid_ofMicros`, `Reading.micros_seconds` — the same of what a clock shows;
* `Instant.shift?_eq_some_iff` — where a clock can be moved to.
-/

namespace AcmeClient.Calendar

/-! ### Years and months -/

theorem isLeap_iff {year : Nat} :
    isLeap year = true ↔ 4 ∣ year ∧ (¬ 100 ∣ year ∨ 400 ∣ year) := by
  simp [isLeap, Nat.dvd_iff_mod_eq_zero]

theorem daysBeforeYear_add_one (y : Nat) :
    daysBeforeYear (y + 1) = y * 365 + y / 4 - y / 100 + y / 400 :=
  rfl

/-- The days before a year that is counted in cycles of 400, 100 and 4 years. -/
theorem daysBeforeYear_cycles {q400 q100 q4 q1 : Nat} (h100 : q100 ≤ 3) (h4 : q4 ≤ 24)
    (h1 : q1 ≤ 3) :
    daysBeforeYear (q400 * 400 + q100 * 100 + q4 * 4 + q1 + 1)
      = q400 * 146097 + q100 * 36524 + q4 * 1461 + q1 * 365 := by
  have d4 : (q400 * 400 + q100 * 100 + q4 * 4 + q1) / 4 = q400 * 100 + q100 * 25 + q4 := by omega
  have d100 : (q400 * 400 + q100 * 100 + q4 * 4 + q1) / 100 = q400 * 4 + q100 := by omega
  have d400 : (q400 * 400 + q100 * 100 + q4 * 4 + q1) / 400 = q400 := by omega
  rw [daysBeforeYear_add_one, d4, d100, d400]
  omega

/-- The twelve months make up the year. -/
theorem daysBeforeMonth_thirteen (year : Nat) : daysBeforeMonth year 13 = daysInYear year := by
  cases h : isLeap year with
  | true => simp [daysBeforeMonth, daysInMonth, daysInYear, h]
  | false => simp [daysBeforeMonth, daysInMonth, daysInYear, h]

namespace Date

/-- The year that a count of days leads into has started, and the next one has not. -/
theorem yearOf_spec (n : Nat) :
    daysBeforeYear (yearOf n) ≤ n ∧ n < daysBeforeYear (yearOf n) + daysInYear (yearOf n) := by
  -- a cycle of 100 or of one year ends a day later when it is the last one of a longer cycle
  obtain ⟨q400, q100, q4, q1, hy, h100, h4, h1, hle, hlt⟩ : ∃ q400 q100 q4 q1,
      yearOf n = q400 * 400 + q100 * 100 + q4 * 4 + q1 + 1 ∧ q100 ≤ 3 ∧ q4 ≤ 24 ∧ q1 ≤ 3 ∧
      q400 * 146097 + q100 * 36524 + q4 * 1461 + q1 * 365 ≤ n ∧
      n < q400 * 146097 + q100 * 36524 + q4 * 1461 + q1 * 365
        + (if q1 = 3 ∧ (q4 ≠ 24 ∨ q100 = 3) then 366 else 365) :=
    ⟨_, _, _, _, rfl, by omega, by omega, by omega, by omega, by split <;> omega⟩
  have hleap : q1 = 3 ∧ (q4 ≠ 24 ∨ q100 = 3) →
      isLeap (q400 * 400 + q100 * 100 + q4 * 4 + q1 + 1) = true := by
    intro h
    rw [isLeap_iff]
    omega
  rw [hy, daysBeforeYear_cycles h100 h4 h1, daysInYear]
  refine ⟨hle, Nat.lt_of_lt_of_le hlt (Nat.add_le_add_left ?_ _)⟩
  split
  next h => exact Nat.le_of_eq (if_pos (hleap h)).symm
  next => split <;> decide

theorem yearOf_pos (n : Nat) : 1 ≤ yearOf n :=
  Nat.le_add_left 1 _

/-- A count of days of the calendar leads into a year of the calendar. -/
theorem yearOf_le {n : Nat} (h : n < lastOrdinal) : yearOf n ≤ lastYear := by
  have hle := (yearOf_spec n).1
  obtain ⟨y, hy⟩ : ∃ y, yearOf n = y + 1 := ⟨yearOf n - 1, (Nat.sub_add_cancel (yearOf_pos n)).symm⟩
  rw [hy, daysBeforeYear_add_one] at hle
  rw [lastOrdinal] at h
  rw [hy, lastYear]
  omega

/-- The month that a count of days of a year leads into has started, and the next one has not. -/
theorem monthOf_spec {year n m : Nat} (h : n < daysBeforeMonth year (m + 1)) :
    (1 ≤ monthOf year n m ∧ monthOf year n m ≤ m) ∧
      daysBeforeMonth year (monthOf year n m) ≤ n ∧
      n < daysBeforeMonth year (monthOf year n m + 1) := by
  induction m with
  | zero => exact absurd h (Nat.not_lt_zero n)
  | succ m ih =>
    rw [monthOf]
    by_cases hm : daysBeforeMonth year (m + 1) ≤ n
    · rw [if_pos hm]
      exact ⟨⟨Nat.le_add_left 1 m, Nat.le_refl _⟩, hm, h⟩
    · rw [if_neg hm]
      obtain ⟨⟨hpos, hle⟩, hspec⟩ := ih (Nat.not_le.1 hm)
      exact ⟨⟨hpos, Nat.le_succ_of_le hle⟩, hspec⟩

/-! ### Dates -/

/-- Whether a date is one of the calendar. -/
structure IsValid (d : Date) : Prop where
  year_pos : 1 ≤ d.year
  year_le : d.year ≤ lastYear
  month_pos : 1 ≤ d.month
  month_le : d.month ≤ 12
  day_pos : 1 ≤ d.day
  day_le : d.day ≤ daysInMonth d.year d.month

/-- A date of the calendar has no defect. -/
theorem IsValid.defect?_eq_none {d : Date} (h : d.IsValid) :
    defect? d.year d.month d.day = none := by
  obtain ⟨hyear, hyear', hmonth, hmonth', hday, hday'⟩ := h
  rw [defect?, Int.toNat_natCast, Int.toNat_natCast, if_neg (by omega), if_neg (by omega),
    if_neg (by omega)]

/-- No month is longer than 31 days. -/
theorem daysInMonth_le (year month : Nat) : daysInMonth year month ≤ 31 := by
  rw [daysInMonth]
  split
  · split <;> decide
  · split <;> decide

theorem IsValid.day_lt {d : Date} (h : d.IsValid) : d.day < 32 :=
  Nat.lt_succ_of_le (Nat.le_trans h.day_le (daysInMonth_le _ _))

/-- A number of the calendar gives a date of the calendar, which gives the number back. -/
theorem ofOrdinal_spec {n : Nat} (h : n < lastOrdinal) :
    (ofOrdinal (n + 1)).IsValid ∧ (ofOrdinal (n + 1)).ordinal = n + 1 := by
  obtain ⟨hstart, hend⟩ := yearOf_spec n
  have hinYear : n - daysBeforeYear (yearOf n) < daysBeforeMonth (yearOf n) 13 := by
    rw [daysBeforeMonth_thirteen]
    omega
  obtain ⟨⟨hpos, hle⟩, hmonth, hnext⟩ := monthOf_spec hinYear
  have hdate : ofOrdinal (n + 1)
      = ⟨yearOf n, monthOf (yearOf n) (n - daysBeforeYear (yearOf n)) 12,
          n - daysBeforeYear (yearOf n)
            - daysBeforeMonth (yearOf n) (monthOf (yearOf n) (n - daysBeforeYear (yearOf n)) 12)
            + 1⟩ := rfl
  have hyearLe := yearOf_le h
  rw [hdate]
  generalize monthOf (yearOf n) (n - daysBeforeYear (yearOf n)) 12 = m at hpos hle hmonth hnext ⊢
  obtain ⟨k, rfl⟩ : ∃ k, m = k + 1 := ⟨m - 1, (Nat.sub_add_cancel hpos).symm⟩
  rw [daysBeforeMonth] at hnext
  refine ⟨⟨yearOf_pos n, hyearLe, hpos, hle, Nat.le_add_left 1 _, ?_⟩, ?_⟩
  · dsimp only
    omega
  · simp only [ordinal]
    omega

end Date

/-! ### What a clock shows -/

namespace Reading

/-- Whether a clock shows a date of the calendar and a time of day. -/
structure IsValid (r : Reading) : Prop where
  date : r.date.IsValid
  hour_lt : r.hour < 24
  minute_lt : r.minute < 60
  second_lt : r.second < 60

/-- The time that a clock shows has no defect. -/
theorem IsValid.timeDefect?_eq_none {r : Reading} (h : r.IsValid) :
    timeDefect? r.hour r.minute r.second = none := by
  obtain ⟨-, hhour, hminute, hsecond⟩ := h
  rw [timeDefect?, if_neg (by omega), if_neg (by omega), if_neg (by omega)]

/-- The seconds of a day that have passed. -/
theorem secondOfDay_lt (n : Nat) : n % dayLength / Calendar.second < 86400 := by
  simp only [dayLength, Calendar.second]
  omega

/-- Up to the end of time, a clock shows a date of the calendar and a time of day. -/
theorem isValid_ofMicros {n : Nat} (h : n < endOfTime) : (ofMicros n).IsValid := by
  have hdays : n / dayLength < lastOrdinal := (Nat.div_lt_iff_lt_mul (by decide)).2 h
  have hseconds := secondOfDay_lt n
  simp only [ofMicros]
  refine ⟨(Date.ofOrdinal_spec hdays).1, ?_, ?_, ?_⟩
  · dsimp only
    omega
  · exact Nat.mod_lt _ (by decide)
  · exact Nat.mod_lt _ (by decide)

/-- What a clock shows, up to whole seconds, tells how many have passed. -/
theorem micros_seconds {n : Nat} (h : n < endOfTime) :
    micros { ofMicros n with micro := 0 } = n / Calendar.second * Calendar.second := by
  have hdays : n / dayLength < lastOrdinal := (Nat.div_lt_iff_lt_mul (by decide)).2 h
  have hordinal := (Date.ofOrdinal_spec hdays).2
  simp only [micros, ofMicros, hordinal]
  simp only [dayLength, Calendar.second]
  omega

end Reading

/-- A clock is moved within the calendar. -/
theorem Instant.shift?_eq_some_iff {t v : Instant} {micros : Int} :
    t.shift? micros = some v ↔
      ∃ n : Nat, (n : Int) = t.reading + micros ∧ n < endOfTime ∧ v = ⟨n, t.offset⟩ := by
  rw [shift?]
  constructor
  · intro h
    split at h
    next hrange => exact ⟨_, Int.toNat_of_nonneg hrange.1, by omega, (Option.some.inj h).symm⟩
    next => cases h
  · rintro ⟨n, hn, hrange, rfl⟩
    rw [← hn, if_pos ⟨Int.natCast_nonneg n, Int.ofNat_lt.2 hrange⟩, Int.toNat_natCast]

end AcmeClient.Calendar
