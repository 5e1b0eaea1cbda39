import AcmeClient.Proofs.Calendar.Timestamps
import AcmeClient.Proofs.DraftTexts

/-!
# Instants in drafts

An instant stands in a draft as a timestamp in universal time. It is taken exactly when its distance
from universal time is known and does not lead out of the calendar, and it comes back from the text
of the draft up to its fraction of a second:

* `Value.stamp_eq_ok_iff` — the instants that have a timestamp;
* `Field.instant?_of_stamp` — a field with a timestamp that was written is read as the instant;
* `DraftBook.put_instant_eq_ok_iff` — which instants a draft takes, and what it keeps of them;
* `DraftBook.instants_are_read_back` — what is read of them from the text.
-/

namespace AcmeClient

open Calendar

/-- The timestamp of an instant in universal time. -/
def utcStamp (u : Nat) : String :=
  Instant.secondsText (Reading.ofMicros u) ++ "Z"

/-- An instant has a timestamp when its distance from universal time is known and does not lead out
of the calendar. -/
theorem Value.stamp_eq_ok_iff {t : Instant} {v : Value} :
    stamp t = .ok v ↔ ∃ (offset : Int) (u : Nat), t.offset = some offset ∧
      (u : Int) = t.reading - offset ∧ u < endOfTime ∧ v = .string (utcStamp u) := by
  rw [stamp]
  cases ho : t.offset with
  | none => simp
  | some offset =>
    have hshift (w : Instant) : t.shift? (-offset) = some w ↔
        ∃ n : Nat, (n : Int) = t.reading + -offset ∧ n < endOfTime ∧ w = ⟨n, t.offset⟩ :=
      Instant.shift?_eq_some_iff
    rw [Option.isNone_some, if_neg Bool.false_ne_true, Instant.stamp?, Instant.toUtc?, ho,
      Option.getD_some]
    cases hw : t.shift? (-offset) with
    | none =>
      constructor
      · intro h
        cases h
      · rintro ⟨_, u, ho', hu, hrange, -⟩
        cases ho'
        rw [(hshift _).2 ⟨u, by omega, hrange, rfl⟩] at hw
        cases hw
    | some w =>
      obtain ⟨u, hu, hrange, rfl⟩ := (hshift w).1 hw
      constructor
      · intro h
        cases h
        exact ⟨offset, u, rfl, by omega, hrange, rfl⟩
      · rintro ⟨_, u', ho', hu', -, rfl⟩
        cases ho'
        have hsame : u' = u := by omega
        rw [hsame]
        rfl

/-- A field with a timestamp that was written is read as the instant, without its fraction of a
second. -/
theorem Field.instant?_of_stamp {f : Field} {u : Nat} (hu : u < endOfTime)
    (h : f.value = .string (utcStamp u)) :
    f.instant? = .ok (some ⟨u / second * second, some 0⟩) := by
  refine ofString?_eq_ok.2 (.inr ⟨_, _, h, ?_, rfl⟩)
  rw [utcStamp, Timestamp.parse_seconds hu]

namespace DraftBook

variable {b : DraftBook} {number : Nat} {name : String} {t : Instant}

/-- A draft takes an instant when its distance from universal time is known and does not lead out of
the calendar; it keeps the timestamp. -/
theorem put_instant_eq_ok_iff {b' : DraftBook} :
    b.put number name (.instant t) = .ok b' ↔ ∃ (offset : Int) (u : Nat), t.offset = some offset ∧
      (u : Int) = t.reading - offset ∧ u < endOfTime ∧
      b' = b.set number name (.value (.string (utcStamp u))) := by
  rw [put, map_eq_ok]
  constructor
  · rintro ⟨v, hv, rfl⟩
    obtain ⟨offset, u, ho, hu, hrange, rfl⟩ := Value.stamp_eq_ok_iff.1 hv
    exact ⟨offset, u, ho, hu, hrange, rfl⟩
  · rintro ⟨offset, u, ho, hu, hrange, rfl⟩
    exact ⟨_, Value.stamp_eq_ok_iff.2 ⟨offset, u, ho, hu, hrange, rfl⟩, rfl⟩

/-- An instant that a draft takes is kept as a timestamp, and every field with that timestamp is read
as the same instant in universal time, without its fraction of a second. So is the field of its name
in the text of every draft in which it was written last. -/
theorem instants_are_read_back {b' : DraftBook} {offset : Int} (haware : t.offset = some offset)
    (hput : b.put number name (.instant t) = .ok b') :
    ∃ (text : String) (u : Nat), b' = b.set number name (.value (.string text)) ∧
      (u : Int) = (t.reading - offset) / second * second ∧
      (∀ path, (Field.mk path (.string text)).instant? = .ok (some ⟨u, some 0⟩)) ∧
      ∀ {book : DraftBook} {calls : List DraftCall}, book.IsMadeBy calls →
        lastWriting calls number name = some (.value (.instant t)) →
        ∃ ms, book.ReadsAs number ms ∧ (ms.field name).instant? = .ok (some ⟨u, some 0⟩) := by
  obtain ⟨_, u, ho, hu, hrange, rfl⟩ := put_instant_eq_ok_iff.1 hput
  obtain rfl := Option.some.inj (haware.symm.trans ho)
  have hread {f : Field} := Field.instant?_of_stamp (f := f) hrange
  refine ⟨utcStamp u, u / second * second, rfl, ?_, fun path => hread rfl, ?_⟩
  · rw [← hu]
    rfl
  · intro book calls hmade hlast
    refine ⟨_, hmade.follows.readsAs number, ?_⟩
    obtain ⟨x, hx, htree⟩ := hlast ▸ hmade.follows.shows number name
    have hplain : (Value.instant t).plain = .string (utcStamp u) := by
      have hclaim : (Value.instant t).IsClaim false := .instant (by rw [ho]; rfl)
      have hconvert := hclaim.convert_eq rfl (Value.stamp_eq_ok_iff.2 ⟨_, u, ho, hu, hrange, rfl⟩)
      rw [Value.plain, Value.ofJson] at hconvert
      rw [Value.plain, Value.string.inj hconvert]
    rw [hplain] at htree
    cases htree
    refine hread ?_
    rw [Members.field, Members.get, hx]
    rfl

/-- Half an hour and half a second into the year 2000, on a clock that is an hour ahead, the old year
is not over in universal time. -/
theorem instants_are_read_back_new_year :
    let t : Instant := ⟨63082283400500000, some 3600000000⟩
    ∃ b', empty.put 0 "notBefore" (.instant t) = .ok b' ∧ ∃ ms, b'.ReadsAs 0 ms ∧
      (ms.field "notBefore").instant? = .ok (some ⟨63082279800000000, some 0⟩) := by
  intro t
  have hput : empty.put 0 "notBefore" (.instant t) = .ok _ :=
    put_instant_eq_ok_iff.2 ⟨3600000000, 63082279800500000, rfl, by decide, by decide, rfl⟩
  have hmade : IsMadeBy _ [⟨0, "notBefore", .value (.instant t)⟩] :=
    .put .empty (by decide) (.instant rfl) hput
  obtain ⟨text, u, -, hu, -, hread⟩ := instants_are_read_back rfl hput
  obtain ⟨ms, hms, hfield⟩ := hread hmade rfl
  have hfloor : ((63082283400500000 : Nat) - 3600000000 : Int) / (second : Int) * second
      = 63082279800000000 := by decide
  rw [hfloor] at hu
  obtain rfl : u = 63082279800000000 := Int.ofNat_inj.1 hu
  exact ⟨_, hput, ms, hms, hfield⟩

end DraftBook

end AcmeClient
