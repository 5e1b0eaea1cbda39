import AcmeClient.Http.Headers
import Mathlib.Data.List.DropRight
import Mathlib.Data.Nat.Digits.Defs

/-!
# Instants to come back at

A value says in seconds or as a date when to come back. Dates are checked against the calendar, but
a number of seconds is only added to the present:

* `Text.Denotes` — the integers that characters denote, with `readInt?_of_denotes`;
* `HttpDate.fields?_eq_none` — a single word is no date;
* `Instant.later_cases` and `ofDate_cases` — where the two ways to an instant end;
* `retry_seconds_are_exact_or_overflow` — which instant every value names at every time, and which
  values name none.
-/

namespace AcmeClient

open Calendar

namespace Text

/-! ### Texts without blanks at their ends -/

theorem trimWhere_eq_rdropWhile (p : Char → Bool) (cs : List Char) :
    trimWhere p cs = (cs.dropWhile p).rdropWhile p :=
  rfl

theorem trimWhere_trimWhere (p : Char → Bool) (cs : List Char) :
    trimWhere p (trimWhere p cs) = trimWhere p cs := by
  have hfront : (trimWhere p cs).dropWhile p = trimWhere p cs := by
    rw [List.dropWhile_eq_self_iff]
    intro hpos
    -- the first character that is left is the first one behind the blanks in front
    have hbegins : trimWhere p cs <+: cs.dropWhile p := List.rdropWhile_prefix p _
    have hne : cs.dropWhile p ≠ [] := fun hnil => by
      rw [hnil, List.prefix_nil] at hbegins
      simp [hbegins] at hpos
    have hhead := List.head_dropWhile_not p hne
    rw [← hbegins.head (List.length_pos_iff.1 hpos), List.head_eq_getElem] at hhead
    simpa using hhead
  rw [trimWhere_eq_rdropWhile, hfront, trimWhere_eq_rdropWhile, List.rdropWhile_idempotent]

theorem trimWhere_strip (s : String) :
    trimWhere isBlank (strip s).toList = (strip s).toList := by
  rw [strip, stripWhere, String.toList_ofList, trimWhere_trimWhere]

/-! ### Integers that texts denote -/

/-- Whether characters are digits with these values, between which single underscores may stand. -/
inductive IsGrouped : List Char → List Nat → Prop where
  | one {c d} (h : digitValue c = some d) : IsGrouped [c] [d]
  | next {c d cs ds} (h : digitValue c = some d) (rest : IsGrouped cs ds) :
      IsGrouped (c :: cs) (d :: ds)
  | apart {c d cs ds} (h : digitValue c = some d) (rest : IsGrouped cs ds) :
      IsGrouped (c :: '_' :: cs) (d :: ds)

/-- The number with these digits, the highest first. -/
def number (ds : List Nat) : Nat :=
  Nat.ofDigits 10 ds.reverse

/-- Whether characters denote an integer, by digits and possibly a sign in front. -/
inductive Denotes : List Char → List Nat → Int → Prop where
  | unsigned {cs ds} (h : IsGrouped cs ds) : Denotes cs ds (number ds)
  | plus {cs ds} (h : IsGrouped cs ds) : Denotes ('+' :: cs) ds (number ds)
  | minus {cs ds} (h : IsGrouped cs ds) : Denotes ('-' :: cs) ds (-(number ds : Int))

theorem number_eq_foldl (ds : List Nat) : number ds = ds.foldl (fun n d => 10 * n + d) 0 := by
  rw [number, Nat.ofDigits_eq_foldr, List.foldr_reverse]
  simp [add_comm]

/-- What is read as a digit is no blank. -/
theorem isBlank_of_digitValue {c : Char} {d : Nat} (h : digitValue c = some d) :
    isBlank c = false := by
  have all : ∀ z ∈ zeroDigits, ∀ k ∈ List.range 10, isBlank (Char.ofNat (z + k)) = false := by
    decide +kernel
  obtain ⟨z, hfind, -⟩ := Option.map_eq_some_iff.1 h
  have hrun := List.find?_some hfind
  simp only [Bool.and_eq_true, decide_eq_true_eq] at hrun
  have hz := all z (List.mem_of_find?_eq_some hfind) (c.toNat - z) (List.mem_range.2 (by omega))
  rwa [Nat.add_sub_cancel' hrun.1, Char.ofNat_toNat] at hz

theorem ne_of_digitValue {c x : Char} {d : Nat} (h : digitValue c = some d)
    (hx : digitValue x = none) : c ≠ x := by
  rintro rfl
  rw [h] at hx
  cases hx

theorem not_isGrouped_of_digitValue {c : Char} {cs : List Char} {ds : List Nat}
    (hc : digitValue c = none) : ¬ IsGrouped (c :: cs) ds := by
  intro h
  cases h with
  | one h | next h _ | apart h _ => exact ne_of_digitValue h hc rfl

theorem groupedDigits_eq_some_iff {cs : List Char} {ds : List Nat} :
    groupedDigits cs = some ds ↔ IsGrouped cs ds := by
  constructor
  · intro h
    fun_induction groupedDigits cs generalizing ds with
    | case1 => cases h
    | case2 c =>
      obtain ⟨d, hd, rfl⟩ := Option.map_eq_some_iff.1 h
      exact .one hd
    | case3 c rest ih =>
      obtain ⟨d, hd, h⟩ := Option.bind_eq_some_iff.1 h
      obtain ⟨ds', hds, h⟩ := Option.bind_eq_some_iff.1 h
      cases h
      exact .apart hd (ih hds)
    | case4 c rest _ _ ih =>
      obtain ⟨d, hd, h⟩ := Option.bind_eq_some_iff.1 h
      obtain ⟨ds', hds, h⟩ := Option.bind_eq_some_iff.1 h
      cases h
      exact .next hd (ih hds)
  · intro h
    induction h with
    | one h => simp [groupedDigits, h]
    | @next c d cs ds h rest ih =>
      cases cs with
      | nil => cases rest
      | cons x cs =>
        have hx : x ≠ '_' := by
          rintro rfl
          exact not_isGrouped_of_digitValue (by decide) rest
        rw [groupedDigits, h, ih]
        · rfl
        · exact nofun
        · rintro _ hcons
          exact hx (List.cons.inj hcons).1
    | apart h rest ih => rw [groupedDigits, h, ih]; rfl

/-- Characters that are all digits are grouped digits. -/
theorem isGrouped_of_mapM {cs : List Char} {ds : List Nat} (hne : cs ≠ [])
    (h : cs.mapM digitValue = some ds) : IsGrouped cs ds := by
  induction cs generalizing ds with
  | nil => exact absurd rfl hne
  | cons c cs ih =>
    rw [List.mapM_cons] at h
    obtain ⟨d, hd, h⟩ := Option.bind_eq_some_iff.1 h
    obtain ⟨ds', hds, h⟩ := Option.bind_eq_some_iff.1 h
    cases h
    cases cs with
    | nil =>
      cases hds
      exact .one hd
    | cons x cs => exact .next hd (ih nofun hds)

theorem IsGrouped.isBlank_eq_false {cs : List Char} {ds : List Nat} (h : IsGrouped cs ds) :
    ∀ c ∈ cs, isBlank c = false := by
  induction h with
  | one h => simpa using isBlank_of_digitValue h
  | next h _ ih => exact List.forall_mem_cons.2 ⟨isBlank_of_digitValue h, ih⟩
  | apart h _ ih =>
    exact List.forall_mem_cons.2
      ⟨isBlank_of_digitValue h, List.forall_mem_cons.2 ⟨by decide, ih⟩⟩

theorem Denotes.isBlank_eq_false {cs : List Char} {ds : List Nat} {z : Int}
    (h : Denotes cs ds z) : ∀ c ∈ cs, isBlank c = false := by
  cases h with
  | unsigned h => exact h.isBlank_eq_false
  | plus h | minus h => exact List.forall_mem_cons.2 ⟨by decide, h.isBlank_eq_false⟩

theorem readNat?_of_isGrouped {cs : List Char} {ds : List Nat} (h : IsGrouped cs ds) :
    readNat? cs = if integerDigitLimit < ds.length then none else some (number ds) := by
  rw [readNat?, groupedDigits_eq_some_iff.2 h, number_eq_foldl]
  rfl

theorem isGrouped_of_readNat? {cs : List Char} {n : Nat} (h : readNat? cs = some n) :
    ∃ ds, IsGrouped cs ds ∧ number ds = n := by
  obtain ⟨ds, hds, h⟩ := Option.bind_eq_some_iff.1 h
  refine ⟨ds, groupedDigits_eq_some_iff.1 hds, ?_⟩
  split at h
  · cases h
  · cases h
    exact number_eq_foldl ds

/-- The integer that a text denotes is read, unless it has too many digits. -/
theorem readInt?_of_denotes {s : String} {ds : List Nat} {z : Int}
    (h : Denotes (strip s).toList ds z) :
    readInt? (strip s) = if integerDigitLimit < ds.length then none else some z := by
  rw [readInt?, trimWhere_strip]
  generalize (strip s).toList = cs at h
  cases h with
  | unsigned h =>
    split
    · exact absurd h (not_isGrouped_of_digitValue (by decide))
    · exact absurd h (not_isGrouped_of_digitValue (by decide))
    · simp only [readNat?_of_isGrouped h]
      split <;> rfl
  | plus h | minus h =>
    simp only [readNat?_of_isGrouped h]
    split <;> rfl

/-- What is read from a text is an integer that it denotes. -/
theorem denotes_of_readInt? {s : String} {z : Int} (h : readInt? (strip s) = some z) :
    ∃ ds, Denotes (strip s).toList ds z := by
  rw [readInt?, trimWhere_strip] at h
  generalize (strip s).toList = cs at h ⊢
  have hnat : ∀ {cs : List Char} {n : Int},
      ((readNat? cs).bind fun m => some (m : Int)) = some n →
        ∃ ds, IsGrouped cs ds ∧ (number ds : Int) = n := by
    intro cs n hn
    obtain ⟨m, hm, hcast⟩ := Option.bind_eq_some_iff.1 hn
    obtain ⟨ds, hds, rfl⟩ := isGrouped_of_readNat? hm
    exact ⟨ds, hds, Option.some.inj hcast⟩
  split at h
  · obtain ⟨n, hn, rfl⟩ := Option.map_eq_some_iff.1 h
    obtain ⟨ds, hds, rfl⟩ := hnat hn
    exact ⟨ds, .minus hds⟩
  · obtain ⟨n, hn, rfl⟩ := Option.map_eq_some_iff.1 h
    obtain ⟨ds, hds, rfl⟩ := hnat hn
    exact ⟨ds, .plus hds⟩
  · obtain ⟨n, hn, rfl⟩ := Option.map_eq_some_iff.1 h
    obtain ⟨ds, hds, rfl⟩ := hnat hn
    exact ⟨ds, .unsigned hds⟩

end Text

/-! ### Dates -/

namespace Calendar

namespace HttpDate

open Text

theorem wordsOf_eq (cs word : List Char) (h : ∀ c ∈ cs, isBlank c = false) :
    wordsOf cs word = if word ++ cs = [] then [] else [word ++ cs] := by
  induction cs generalizing word with
  | nil => simp [wordsOf]
  | cons c cs ih =>
    obtain ⟨hc, hcs⟩ := List.forall_mem_cons.1 h
    rw [wordsOf, hc, if_neg Bool.false_ne_true, ih _ hcs, List.append_assoc, List.singleton_append]

/-- A text without blanks is no date: a date has words for its day, its month and its year. -/
theorem fields?_eq_none {s : String} (h : ∀ c ∈ s.toList, isBlank c = false) :
    fields? s = none := by
  have hwords : (words s).length ≤ 1 := by
    rw [words, wordsOf_eq _ _ h]
    split <;> simp
  rw [fields?]
  match words s, hwords with
  | [], _ => rfl
  | [w], _ =>
    rw [withoutDayName]
    split <;> rfl

/-- An instant that fields denote is one of the calendar, in universal time. -/
theorem toInstant_eq_ok {f : Fields} {t : Instant} (h : f.toInstant = .ok t) :
    t.reading < endOfTime ∧ t.offset = some 0 := by
  unfold Fields.toInstant at h
  split at h
  · cases h
  · simp only [Instant.shift?] at h
    split at h
    next t' hshift =>
      cases h
      split at hshift
      next hrange =>
        cases hshift
        exact ⟨by dsimp only; omega, rfl⟩
      · cases hshift
    · cases h

end HttpDate

/-- A length of time that ends within the calendar is no defect. -/
theorem RangeDefect.ofSeconds?_eq_none {n : Nat} (h : n * second < endOfTime) :
    RangeDefect.ofSeconds? n = none := by
  have hdays : n / 86400 < lastOrdinal := by
    simp only [second, endOfTime, dayLength] at h
    omega
  have hwidth : Nat.pow 2 31 = 2147483648 := rfl
  rw [lastOrdinal] at hdays
  rw [RangeDefect.ofSeconds?, hwidth, if_neg (by omega), if_neg (by omega)]

theorem Instant.shift?_natCast (t : Instant) (n : Nat) :
    t.shift? n = if t.reading + n < endOfTime then some ⟨t.reading + n, t.offset⟩ else none := by
  have hrange : (0 ≤ ((t.reading + n : Nat) : Int) ∧ ((t.reading + n : Nat) : Int) < endOfTime) ↔
      t.reading + n < endOfTime := by omega
  simp only [Instant.shift?, ← Int.natCast_add, hrange, Int.toNat_natCast]

/-- What a clock shows some seconds later; there is nothing to show beyond the calendar. -/
theorem Instant.later_cases (t : Instant) (n : Nat) :
    if t.reading + n * second < endOfTime then
      t.later n = .ok ⟨t.reading + n * second, t.offset⟩
    else ∃ d, t.later n = .error d := by
  have hshift := t.shift?_natCast (n * second)
  rw [Int.natCast_mul] at hshift
  by_cases hrange : t.reading + n * second < endOfTime
  · rw [if_pos hrange] at hshift ⊢
    rw [Instant.later, RangeDefect.ofSeconds?_eq_none (by omega), hshift]
  · rw [if_neg hrange] at hshift ⊢
    rw [Instant.later, hshift]
    cases RangeDefect.ofSeconds? n with
    | none => exact ⟨_, rfl⟩
    | some d => exact ⟨_, rfl⟩

end Calendar

namespace RetryAfter

/-- What a date names is an instant of the calendar in universal time, or it breaks the protocol. -/
theorem ofDate_cases (value : String) :
    (∃ t, ofDate value = .ok ⟨t, some 0⟩ ∧ t < endOfTime) ∨
      ∃ reason, ofDate value = .error (.protocol (.retryAfter value reason)) := by
  unfold ofDate
  split
  · exact .inr ⟨none, rfl⟩
  next fields _ =>
    cases ht : fields.toInstant with
    | error d => exact .inr ⟨some d, rfl⟩
    | ok t =>
      obtain ⟨hrange, hoffset⟩ := HttpDate.toInstant_eq_ok ht
      exact .inl ⟨t.reading, by rw [← hoffset], hrange⟩

/-- A text without blanks that is not read as an integer breaks the protocol. -/
theorem parse_eq_refuse {value : String} {now : Instant}
    (hread : Text.readInt? (Text.strip value) = none)
    (hblank : ∀ c ∈ (Text.strip value).toList, Text.isBlank c = false) :
    parse value now = .error (.protocol (.retryAfter (Text.strip value) none)) := by
  rw [parse, hread, ofDate, HttpDate.fields?_eq_none hblank]
  rfl

/-- What a text that denotes an integer names: the instant so many seconds later. A negative integer
and one with too many digits break the protocol. -/
theorem parse_of_denotes {value : String} {ds : List Nat} {z : Int} (present : Nat)
    (h : Text.Denotes (Text.strip value).toList ds z) :
    if z < 0 ∨ Text.integerDigitLimit < ds.length then
      parse value ⟨present, some 0⟩ = .error (.protocol (.retryAfter (Text.strip value) none))
    else if present + z.toNat * second < endOfTime then
      parse value ⟨present, some 0⟩ = .ok ⟨present + z.toNat * second, some 0⟩
    else ∃ d, parse value ⟨present, some 0⟩ = .error (.outOfRange d) := by
  have hread := Text.readInt?_of_denotes h
  by_cases hlong : Text.integerDigitLimit < ds.length
  · rw [if_pos hlong] at hread
    rw [if_pos (.inr hlong)]
    exact parse_eq_refuse hread h.isBlank_eq_false
  rw [if_neg hlong] at hread
  by_cases hneg : z < 0
  · rw [if_pos (.inl hneg), parse, hread]
    exact if_pos hneg
  obtain ⟨n, rfl⟩ := Int.eq_ofNat_of_zero_le (Int.not_lt.1 hneg)
  rw [if_neg (by omega), parse, hread]
  simp only [hneg, if_false, Int.toNat_natCast]
  have hlater := Instant.later_cases ⟨present, some 0⟩ n
  split at hlater
  next hrange =>
    rw [if_pos hrange, hlater]
    rfl
  next hrange =>
    obtain ⟨d, hd⟩ := hlater
    rw [if_neg hrange, hd]
    exact ⟨d, rfl⟩

/-- **Seconds are exact or overflow.** A text that denotes an integer of seconds names the instant
exactly so much later; if it is negative or has too many digits the protocol is broken, and if the
instant would lie beyond the calendar something other than a broken protocol is reported. Any other
text names an instant of the calendar in universal time or breaks the protocol. -/
theorem retry_seconds_are_exact_or_overflow (value : String) (present : Nat) :
    (∀ ds z, Text.Denotes (Text.strip value).toList ds z →
      if z < 0 ∨ Text.integerDigitLimit < ds.length then
        parse value ⟨present, some 0⟩ = .error (.protocol (.retryAfter (Text.strip value) none))
      else if present + z.toNat * second < endOfTime then
        parse value ⟨present, some 0⟩ = .ok ⟨present + z.toNat * second, some 0⟩
      else ∃ d, parse value ⟨present, some 0⟩ = .error (.outOfRange d)) ∧
    ((∀ ds z, ¬ Text.Denotes (Text.strip value).toList ds z) →
      (∃ t, parse value ⟨present, some 0⟩ = .ok ⟨t, some 0⟩ ∧ t < endOfTime) ∨
        ∃ reason, parse value ⟨present, some 0⟩
          = .error (.protocol (.retryAfter (Text.strip value) reason))) ∧
    ∀ ds, (Text.strip value).toList.mapM Text.digitValue = some ds →
      ∀ t, parse value ⟨present, some 0⟩ = .ok t →
        t = ⟨present + Text.number ds * second, some 0⟩ := by
  refine ⟨fun ds z h => parse_of_denotes present h, fun hnone => ?_, fun ds hds t ht => ?_⟩
  · have hread : Text.readInt? (Text.strip value) = none := by
      cases hread : Text.readInt? (Text.strip value) with
      | none => rfl
      | some z =>
        obtain ⟨ds, h⟩ := Text.denotes_of_readInt? hread
        exact absurd h (hnone ds z)
    rw [parse, hread]
    exact ofDate_cases _
  · by_cases hempty : (Text.strip value).toList = []
    · -- no text of an integer is empty, and no date is
      have hread : Text.readInt? (Text.strip value) = none := by
        rw [Text.readInt?, Text.trimWhere_strip, hempty]
        rfl
      rw [parse_eq_refuse hread (by simp [hempty])] at ht
      cases ht
    · have h := parse_of_denotes present (.unsigned (Text.isGrouped_of_mapM hempty hds))
      rw [ht, Int.toNat_natCast] at h
      split at h
      · cases h
      · split at h
        · exact Except.ok.inj h
        · obtain ⟨d, hd⟩ := h
          cases hd

theorem retry_seconds_are_exact_or_overflow_late :
    ∃ d, parse "99999999999999" ⟨63902908800000000, some 0⟩ = .error (.outOfRange d) := by
  have hdigits : Text.IsGrouped (Text.strip "99999999999999").toList (List.replicate 14 9) :=
    Text.groupedDigits_eq_some_iff.1 (by decide +kernel)
  have h := (retry_seconds_are_exact_or_overflow "99999999999999" 63902908800000000).1 _ _
    (.unsigned hdigits)
  rw [if_neg (by decide +kernel), if_neg (by decide +kernel)] at h
  exact h

end RetryAfter

end AcmeClient
