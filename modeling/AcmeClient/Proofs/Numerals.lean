import AcmeClient.Number.Numeral
import Mathlib.Data.List.Induction
import Mathlib.Data.Nat.Digits.Defs
import Mathlib.Tactic.Ring

/-!
# Decimal numerals read back

* `isDigit_of_mem_numeral` — a numeral consists of digits;
* `numeral_cons` — a numeral starts with zero only when it is zero;
* `ofDigits_numeral`, `numeral_ofDigits` — the digits of a number spell it, and no others do without a
  zero in front;
* `ofDigits_append`, `length_numeral_ofDigits_le` — digits in front of others, and how many a number
  has;
* `length_padded`, `isDigit_of_mem_padded`, `ofDigits_padded` — the same of numerals that are padded to
  a width.
-/

namespace AcmeClient.Number

theorem numeral_of_lt {n : Nat} (h : n < 10) : numeral n = [n.digitChar] :=
  Nat.toDigits_of_lt_base h

theorem numeral_of_le {n : Nat} (h : 10 ≤ n) :
    numeral n = numeral (n / 10) ++ [(n % 10).digitChar] :=
  Nat.toDigits_of_base_le (by decide) h

/-- A numeral consists of digits. -/
theorem isDigit_of_mem_numeral {n : Nat} {c : Char} (h : c ∈ numeral n) : isDigit c = true := by
  have hc : c.isDigit = true := Nat.isDigit_of_mem_toDigits (by decide) (by decide) h
  rw [Char.isDigit, Bool.and_eq_true, decide_eq_true_eq, decide_eq_true_eq] at hc
  have h0 : 48 ≤ c.toNat := hc.1
  have h9 : c.toNat ≤ 57 := hc.2
  simp [isDigit, h0, h9]

/-- A numeral starts with zero only when it is zero. -/
theorem numeral_cons (n : Nat) :
    ∃ c cs, numeral n = c :: cs ∧ isDigit c = true ∧ (c = '0' → cs = [] ∧ n = 0) := by
  induction n using Nat.strongRecOn with
  | ind n ih =>
    by_cases h : n < 10
    · refine ⟨n.digitChar, [], numeral_of_lt h, ?_, ?_⟩
      · exact isDigit_of_mem_numeral (n := n) (by simp [numeral_of_lt h])
      · intro hz
        exact ⟨rfl, Nat.digitChar_eq_zero.mp hz⟩
    · obtain ⟨c, cs, hcs, hd, hz⟩ := ih (n / 10) (by omega)
      refine ⟨c, cs ++ [(n % 10).digitChar], ?_, hd, ?_⟩
      · rw [numeral_of_le (by omega), hcs]
        rfl
      · -- the quotient is not zero, so its numeral does not start with zero
        intro hc
        have := (hz hc).2
        omega

theorem ofDigits_concat (cs : List Char) (c : Char) :
    ofDigits (cs ++ [c]) = 10 * ofDigits cs + (c.toNat - 48) := by
  rw [ofDigits, List.foldl_append]
  rfl

/-- The digits of a number spell it. -/
theorem ofDigits_numeral (n : Nat) : ofDigits (numeral n) = n := by
  induction n using Nat.strongRecOn with
  | ind n ih =>
    by_cases h : n < 10
    · rw [numeral_of_lt h]
      show 10 * 0 + (n.digitChar.toNat - 48) = n
      rw [Nat.toNat_digitChar_sub_48_of_lt_ten h]
      omega
    · rw [numeral_of_le (by omega), ofDigits_concat, ih (n / 10) (by omega),
        Nat.toNat_digitChar_sub_48_of_lt_ten (by omega)]
      omega

/-- Digits without a zero in front are the numeral of the number that they spell. -/
theorem numeral_ofDigits {ds : List Char} (hne : ds ≠ []) (h : ∀ c ∈ ds, isDigit c = true)
    (hzero : ds.head? = some '0' → ds = ['0']) : numeral (ofDigits ds) = ds := by
  have hdigit {c : Char} (hc : isDigit c = true) :
      c.toNat - 48 < 10 ∧ (c.toNat - 48).digitChar = c := by
    simp only [isDigit, Bool.and_eq_true, decide_eq_true_eq] at hc
    refine ⟨by omega, Char.toNat_inj.1 ?_⟩
    rw [Nat.toNat_digitChar_of_lt_ten (by omega)]
    omega
  induction ds using List.reverseRecOn with
  | nil => exact absurd rfl hne
  | append_singleton ds c ih =>
    obtain ⟨hlt, hchar⟩ := hdigit (h c (List.mem_append_right _ (List.mem_singleton_self c)))
    rw [ofDigits_concat]
    cases ds with
    | nil =>
      rw [ofDigits, List.foldl_nil, Nat.mul_zero, Nat.zero_add, numeral_of_lt hlt, hchar]
      rfl
    | cons d ds =>
      -- the digits in front are more than zero, as they do not start with zero
      have hfirst : d ≠ '0' := by
        rintro rfl
        have := congrArg List.length (hzero rfl)
        simp at this
      have hfront : numeral (ofDigits (d :: ds)) = d :: ds := by
        refine ih (List.cons_ne_nil d ds) (fun e he => h e (List.mem_append_left _ he)) fun hd => ?_
        exact absurd (Option.some.inj hd) hfirst
      have hpos : 0 < ofDigits (d :: ds) := by
        refine Nat.pos_of_ne_zero fun hnil => hfirst ?_
        rw [hnil] at hfront
        exact (List.cons.inj hfront).1.symm
      calc numeral (10 * ofDigits (d :: ds) + (c.toNat - 48))
          = numeral (ofDigits (d :: ds)) ++ numeral (c.toNat - 48) :=
            (Nat.toDigits_append_toDigits (by decide) hpos hlt).symm
        _ = d :: ds ++ [c] := by rw [hfront, numeral_of_lt hlt, hchar]

/-- Digits in front count by the power of their place. -/
theorem ofDigits_append (cs ds : List Char) :
    ofDigits (cs ++ ds) = ofDigits cs * 10 ^ ds.length + ofDigits ds := by
  induction ds using List.reverseRecOn with
  | nil => rw [List.append_nil, List.length_nil, Nat.pow_zero, Nat.mul_one]; rfl
  | append_singleton ds c ih =>
    rw [← List.append_assoc, ofDigits_concat, ofDigits_concat, ih, List.length_append,
      List.length_singleton, Nat.pow_succ]
    ring

theorem ofDigits_lt (ds : List Char) (h : ∀ c ∈ ds, isDigit c = true) :
    ofDigits ds < 10 ^ ds.length := by
  induction ds using List.reverseRecOn with
  | nil => decide
  | append_singleton ds c ih =>
    have hinit := ih fun d hd => h d (List.mem_append_left _ hd)
    have hc : 48 ≤ c.toNat ∧ c.toNat ≤ 57 := by simpa [isDigit] using h c (by simp)
    rw [ofDigits_concat, List.length_append, List.length_singleton, Nat.pow_succ]
    omega

/-- Digits spell a number that has no more of them. -/
theorem length_numeral_ofDigits_le {ds : List Char} (hne : ds ≠ [])
    (h : ∀ c ∈ ds, isDigit c = true) : (numeral (ofDigits ds)).length ≤ ds.length :=
  Nat.toDigits_length 10 _ _ (List.length_pos_iff.2 hne) (ofDigits_lt ds h)

/-! ### Numerals of a width -/

section Padded

variable {width n : Nat}

/-- A number that fits into a width has as many padded digits. -/
theorem length_padded (hwidth : 0 < width) (h : n < 10 ^ width) :
    (padded width n).toList.length = width := by
  have hle : (numeral n).length ≤ width := Nat.toDigits_length 10 n width hwidth h
  rw [padded, String.toList_ofList, List.length_append, List.length_replicate]
  omega

theorem isDigit_of_mem_padded {c : Char} (h : c ∈ (padded width n).toList) : isDigit c = true := by
  rw [padded, String.toList_ofList] at h
  rcases List.mem_append.1 h with hzero | hnumeral
  · rw [List.eq_of_mem_replicate hzero]
    rfl
  · exact isDigit_of_mem_numeral hnumeral

/-- Zeros in front do not change what digits spell. -/
theorem ofDigits_padded : ofDigits (padded width n).toList = n := by
  have hzeros (k : Nat) (cs : List Char) : ofDigits (List.replicate k '0' ++ cs) = ofDigits cs := by
    induction k with
    | zero => rfl
    | succ k ih => exact ih
  rw [padded, String.toList_ofList, hzeros, ofDigits_numeral]

end Padded

end AcmeClient.Number
