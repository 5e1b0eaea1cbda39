import AcmeClient.Proofs.Json.Legible
import AcmeClient.Proofs.Numerals

/-!
# Numbers, words and blanks in a text

The reader decides by the first character what a value is. These are the facts about single tokens
behind that decision:

* `Delimited` — what stands behind a value does not extend a number;
* `readNumber_numeral` — a numeral is read as its integer;
* `write_cons` — a written value starts with neither a blank nor a closing bracket;
* `readWord?_eq_none` — few characters start a word.
-/

namespace AcmeClient

open Number Text

namespace Json

/-! ### Numbers -/

/-- Whether what stands behind a value cannot extend a number. -/
def Delimited (rest : List Char) : Prop :=
  ∀ c ∈ rest.head?, isDigit c = false ∧ c ≠ '.' ∧ c ≠ 'e' ∧ c ≠ 'E'

theorem takeWhile_digits {ds rest : List Char} (hd : ∀ c ∈ ds, isDigit c = true)
    (hr : Delimited rest) :
    (ds ++ rest).takeWhile isDigit = ds ∧ (ds ++ rest).dropWhile isDigit = rest := by
  induction ds with
  | nil =>
    cases rest with
    | nil => exact ⟨rfl, rfl⟩
    | cons c rest =>
      have hc := (hr c rfl).1
      simp [hc]
  | cons d ds ih =>
    have hd1 := hd d (by simp)
    obtain ⟨h1, h2⟩ := ih fun c hc => hd c (by simp [hc])
    simp [hd1, h1, h2]

/-- The digits of a numeral are the whole part of a number. -/
theorem wholePart_numeral (n : Nat) {rest : List Char} (hr : Delimited rest) :
    wholePart (numeral n ++ rest) = some (numeral n, rest) := by
  obtain ⟨c, cs, hcs, hd, hz⟩ := numeral_cons n
  have hall : ∀ d ∈ cs, isDigit d = true := fun d hm =>
    isDigit_of_mem_numeral (n := n) (by simp [hcs, hm])
  obtain ⟨h1, h2⟩ := takeWhile_digits hall hr
  rw [hcs]
  by_cases h0 : c = '0'
  · rw [(hz h0).1]
    simp [wholePart, h0]
  · simp [wholePart, h0, hd, h1, h2]

theorem fractionPart_delimited {rest : List Char} (hr : Delimited rest) :
    fractionPart rest = ([], rest) := by
  cases rest with
  | nil => rfl
  | cons c rest =>
    have hc := (hr c rfl).2.1
    rw [fractionPart.eq_2 (c :: rest) (by rintro r he; exact hc (List.cons.inj he).1)]

theorem exponentPart_delimited {rest : List Char} (hr : Delimited rest) :
    exponentPart rest = none := by
  cases rest with
  | nil => rfl
  | cons c rest =>
    have hc := (hr c rfl).2.2
    simp [exponentPart, hc.1, hc.2]

/-- A numeral is read as an integer. -/
theorem readNumber_numeral (negative : Bool) (left n : Nat) {rest : List Char}
    (hn : (numeral n).length ≤ digitLimit) (hr : Delimited rest) :
    readNumber negative left (numeral n ++ rest)
      = .ok (.int (if negative then -(n : Int) else n), rest) := by
  have hlimit : ¬digitLimit < (numeral n).length := by omega
  simp only [readNumber, wholePart_numeral n hr, fractionPart_delimited hr,
    exponentPart_delimited hr, ne_eq, not_true_eq_false, if_false, if_neg hlimit, ofDigits_numeral]

/-! ### The first character of a value -/

theorem skip_of_head {c : Char} (h : isSpace c = false) (cs : List Char) :
    skip (c :: cs) = c :: cs := by
  simp [skip, h]

theorem skip_blanks {bs : List Char} (hb : ∀ c ∈ bs, isSpace c = true) (cs : List Char) :
    skip (bs ++ cs) = skip cs := by
  induction bs with
  | nil => rfl
  | cons b bs ih =>
    have h1 := hb b (by simp)
    have h2 := ih fun c hc => hb c (by simp [hc])
    simp only [skip] at h2 ⊢
    simp [h1, h2]

theorem isSpace_of_isDigit {c : Char} (h : isDigit c = true) : isSpace c = false ∧ c ≠ ']' := by
  have hb : 48 ≤ c.toNat ∧ c.toNat ≤ 57 := by simpa [isDigit] using h
  have hne : ∀ d : Char, d.toNat < 48 ∨ 57 < d.toNat → c ≠ d := by
    rintro d hd rfl
    omega
  have h1 := hne ' ' (by decide)
  have h2 := hne '\t' (by decide)
  have h3 := hne '\n' (by decide)
  have h4 := hne '\r' (by decide)
  exact ⟨by simp [isSpace, h1, h2, h3, h4], hne ']' (by decide)⟩

/-- A written value starts with a character that is neither a blank nor a closing bracket. -/
theorem write_cons (l : Layout) {j : Json} (h : Legible j) :
    ∃ c cs, write l j = c :: cs ∧ isSpace c = false ∧ c ≠ ']' := by
  cases j with
  | null => exact ⟨_, _, rfl, by decide, by decide⟩
  | bool b => cases b <;> exact ⟨_, _, rfl, by decide, by decide⟩
  | int n =>
    cases n with
    | ofNat n =>
      obtain ⟨c, cs, hcs, hd, -⟩ := numeral_cons n
      have hc := isSpace_of_isDigit hd
      refine ⟨c, cs, ?_, hc.1, hc.2⟩
      simp [write, integerText, hcs]
    | negSucc n =>
      refine ⟨'-', numeral (n + 1), ?_, by decide, by decide⟩
      simp [write, integerText]
  | float x => exact absurd h (by simp [Legible])
  | string s => exact ⟨_, _, rfl, by decide, by decide⟩
  | array items => exact ⟨_, _, rfl, by decide, by decide⟩
  | object members => exact ⟨_, _, rfl, by decide, by decide⟩

/-- No word starts with a character other than the first ones of the words. -/
theorem readWord?_eq_none {c : Char} (h : c ∉ ['n', 't', 'f', 'N', 'I', '-']) (cs : List Char) :
    readWord? (c :: cs) = none := by
  simp only [List.mem_cons, List.not_mem_nil, or_false, not_or] at h
  obtain ⟨h1, h2, h3, h4, h5, h6⟩ := h
  simp [readWord?, words, word?, Ne.symm h1, Ne.symm h2, Ne.symm h3, Ne.symm h4, Ne.symm h5,
    Ne.symm h6]

theorem readWord?_minus {c : Char} (h : isDigit c = true) (cs : List Char) :
    readWord? ('-' :: c :: cs) = none := by
  have hc : 'I' ≠ c := by
    rintro rfl
    exact absurd h (by decide)
  simp [readWord?, words, word?, hc]

theorem notMem_words_of_isDigit {c : Char} (h : isDigit c = true) :
    c ∉ ['n', 't', 'f', 'N', 'I', '-'] ∧ c ≠ '"' ∧ c ≠ '[' ∧ c ≠ '\x7b' ∧ c ≠ '-' := by
  have hb : 48 ≤ c.toNat ∧ c.toNat ≤ 57 := by simpa [isDigit] using h
  have hne : ∀ d : Char, d.toNat < 48 ∨ 57 < d.toNat → c ≠ d := by
    rintro d hd rfl
    omega
  refine ⟨?_, hne _ (by decide), hne _ (by decide), hne _ (by decide), hne _ (by decide)⟩
  simp only [List.mem_cons, List.not_mem_nil, or_false, not_or]
  exact ⟨hne _ (by decide), hne _ (by decide), hne _ (by decide), hne _ (by decide),
    hne _ (by decide), hne _ (by decide)⟩

end Json

end AcmeClient
