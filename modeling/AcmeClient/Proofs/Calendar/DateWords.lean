import AcmeClient.Proofs.Numerals
import AcmeClient.Proofs.RetryInstants

/-!
# The words of dates

A date of mail is read word by word. Words are told apart by the blanks between them, and what a word
of digits or letters is read as depends on that word alone:

* `HttpDate.words_joined`, `HttpDate.strip_joined` — words that are put together with blanks are found
  again;
* `HttpDate.IsNumber`, `HttpDate.isNumber_digitsOf`, `HttpDate.isNumber_numeral` — the words that are
  read as numbers;
* `HttpDate.IsName` — the words that may name a day or a month.
-/

namespace AcmeClient.Calendar.HttpDate

open Number Text

/-! ### Words -/

/-- Nonempty texts without blanks are the words of the text that has blanks between them. -/
theorem words_joined {ws : List (List Char)} (h : ∀ w ∈ ws, ∀ c ∈ w, isBlank c = false) :
    words (String.ofList (joined ' ' ws)) = ws.filter (· ≠ []) := by
  have hstep (w rest : List Char) (hw : ∀ c ∈ w, isBlank c = false) (before : List Char) :
      wordsOf (w ++ ' ' :: rest) before
        = if before ++ w = [] then wordsOf rest [] else (before ++ w) :: wordsOf rest [] := by
    induction w generalizing before with
    | nil =>
      rw [List.nil_append, List.append_nil]
      rfl
    | cons c w ih =>
      obtain ⟨hc, hw⟩ := List.forall_mem_cons.1 hw
      rw [List.cons_append, wordsOf, hc, if_neg Bool.false_ne_true, ih hw, List.append_assoc,
        List.singleton_append]
  rw [words, String.toList_ofList]
  induction ws with
  | nil => rfl
  | cons w ws ih =>
    obtain ⟨hw, hws⟩ := List.forall_mem_cons.1 h
    cases ws with
    | nil =>
      rw [joined, wordsOf_eq w [] hw, List.nil_append]
      by_cases hnil : w = []
      · simp [hnil]
      · simp [hnil]
    | cons v ws =>
      rw [joined, hstep w _ hw, ih hws, List.nil_append]
      by_cases hnil : w = []
      · simp [hnil]
      · simp [hnil]

/-- Whether characters are a word of a text: there are some, and none of them is a blank. -/
structure IsWord (w : List Char) : Prop where
  ne_nil : w ≠ []
  chars : ∀ c ∈ w, isBlank c = false

theorem IsWord.append {v w : List Char} (hv : IsWord v) (hw : ∀ c ∈ w, isBlank c = false) :
    IsWord (v ++ w) :=
  ⟨List.append_ne_nil_of_left_ne_nil hv.ne_nil w, List.forall_mem_append.2 ⟨hv.chars, hw⟩⟩

/-- A text that neither starts nor ends with a blank is left as it is. -/
theorem strip_eq_self {s : String} (hhead : ∀ c, s.toList.head? = some c → isBlank c = false)
    (hlast : ∀ c, s.toList.getLast? = some c → isBlank c = false) : strip s = s := by
  rw [strip, stripWhere, trimWhere_of_head hhead, trimEnd_eq_self_iff.2 hlast, String.ofList_toList]

theorem joined_cons_append (c : Char) (w : List Char) (ws : List (List Char)) :
    ∃ rest, joined c (w :: ws) = w ++ rest := by
  cases ws with
  | nil => exact ⟨[], (List.append_nil w).symm⟩
  | cons v ws => exact ⟨c :: joined c (v :: ws), rfl⟩

/-- Joined words end like the last one of them. -/
theorem getLast?_joined (c : Char) {ws : List (List Char)} {w : List Char}
    (h : ws.getLast? = some w) (hne : w ≠ []) : (joined c ws).getLast? = w.getLast? := by
  induction ws with
  | nil => cases h
  | cons v ws ih =>
    cases ws with
    | nil =>
      obtain rfl : v = w := Option.some.inj h
      rfl
    | cons u ws =>
      have hrest := ih (by rwa [List.getLast?_cons_cons] at h)
      obtain ⟨x, hx⟩ := Option.ne_none_iff_exists'.1 (mt List.getLast?_eq_none_iff.1 hne)
      rw [joined, List.getLast?_append, List.getLast?_cons, hrest, hx]
      rfl

/-- Words between single blanks have no blanks at their ends. -/
theorem strip_joined {w : List Char} {ws : List (List Char)}
    (h : ∀ v ∈ w :: ws, ∀ c ∈ v, isBlank c = false) (hfirst : w ≠ [])
    (hlast : (w :: ws).getLast? ≠ some []) :
    strip (String.ofList (joined ' ' (w :: ws))) = String.ofList (joined ' ' (w :: ws)) := by
  refine strip_eq_self (fun c hc => ?_) (fun c hc => ?_)
  · rw [String.toList_ofList] at hc
    obtain ⟨rest, hrest⟩ := joined_cons_append ' ' w ws
    rw [hrest, List.head?_append_of_ne_nil _ hfirst] at hc
    exact h w List.mem_cons_self c (List.mem_of_head? hc)
  · rw [String.toList_ofList] at hc
    obtain ⟨v, hv⟩ := Option.ne_none_iff_exists'.1
      (mt List.getLast?_eq_none_iff.1 (List.cons_ne_nil w ws))
    rw [getLast?_joined ' ' hv fun hnil => hlast (hnil ▸ hv)] at hc
    exact h v (List.mem_of_getLast? hv) c (List.mem_of_getLast? hc)

/-! ### Digits -/

/-- The integer that characters without blanks denote is read. -/
theorem readInt?_ofList {cs : List Char} {ds : List Nat} {z : Int} (h : Denotes cs ds z)
    (hlength : ds.length ≤ integerDigitLimit) : readInt? (String.ofList cs) = some z := by
  have hstrip : strip (String.ofList cs) = String.ofList cs := by
    refine strip_eq_self (fun c hc => ?_) (fun c hc => ?_)
    · rw [String.toList_ofList] at hc
      exact h.isBlank_eq_false c (List.mem_of_head? hc)
    · rw [String.toList_ofList] at hc
      exact h.isBlank_eq_false c (List.mem_of_getLast? hc)
  have hdenotes : Denotes (strip (String.ofList cs)).toList ds z := by
    rwa [hstrip, String.toList_ofList]
  have hread := readInt?_of_denotes hdenotes
  rwa [hstrip, if_neg (Nat.not_lt.2 hlength)] at hread

def tenDigits : List Char := "0123456789".toList

theorem mem_of_isDigit {c : Char} (h : isDigit c = true) : c ∈ tenDigits := by
  simp only [isDigit, Bool.and_eq_true, decide_eq_true_eq] at h
  have all : ∀ k ∈ List.range 10, Char.ofNat (48 + k) ∈ tenDigits := by decide
  have hc := all (c.toNat - 48) (List.mem_range.2 (by omega))
  rwa [Nat.add_sub_cancel' h.1, Char.ofNat_toNat] at hc

/-- What holds of the ten digits holds of every digit. -/
theorem of_isDigit {p : Char → Prop} [DecidablePred p] (hp : tenDigits.all (fun c => p c) = true)
    {c : Char} (h : isDigit c = true) : p c :=
  of_decide_eq_true (List.all_eq_true.1 hp c (mem_of_isDigit h))

theorem isBlank_of_isDigit {c : Char} (h : isDigit c = true) : isBlank c = false :=
  of_isDigit (p := fun c => isBlank c = false) (by decide) h

theorem isDigitLike_of_isDigit {c : Char} (h : isDigit c = true) : isDigitLike c = true :=
  of_isDigit (p := fun c => isDigitLike c = true) (by decide +kernel) h

section Digits

variable {ds : List Char} (h : ∀ c ∈ ds, isDigit c = true)
include h

theorem isBlank_of_digits : ∀ c ∈ ds, isBlank c = false :=
  fun c hc => isBlank_of_isDigit (h c hc)

theorem notMem_of_digits {x : Char} (hx : isDigit x = false) : x ∉ ds := by
  intro hmem
  rw [h x hmem] at hx
  cases hx

theorem map_toLower_of_digits : ds.map Char.toLower = ds := by
  conv_rhs => rw [← List.map_id ds]
  exact List.map_congr_left fun c hc => of_isDigit (p := fun c => c.toLower = c) (by decide) (h c hc)

theorem mapM_digitValue : ds.mapM digitValue = some (ds.map fun c => c.toNat - 48) := by
  induction ds with
  | nil => rfl
  | cons c ds ih =>
    obtain ⟨hc, hds⟩ := List.forall_mem_cons.1 h
    have hvalue : digitValue c = some (c.toNat - 48) :=
      of_isDigit (p := fun c => digitValue c = some (c.toNat - 48)) (by decide +kernel) hc
    rw [List.mapM_cons, hvalue, ih hds]
    rfl

omit h in
theorem number_values : Text.number (ds.map fun c => c.toNat - 48) = ofDigits ds := by
  rw [number_eq_foldl, List.foldl_map, ofDigits]

/-- Digits denote the number that they spell. -/
theorem isGrouped_of_digits (hne : ds ≠ []) : IsGrouped ds (ds.map fun c => c.toNat - 48) :=
  isGrouped_of_mapM hne (mapM_digitValue h)

theorem number?_of_digits (hne : ds ≠ []) (hlength : ds.length ≤ integerDigitLimit) :
    number? ds = some (ofDigits ds : Int) := by
  have hread := readInt?_ofList (.unsigned (isGrouped_of_digits h hne)) (by rwa [List.length_map])
  rwa [number_values] at hread

/-- Digits are the name of no month. -/
theorem month?_of_digits (hne : ds ≠ []) : month? ds = none := by
  have all : ∀ name ∈ monthNames, name.toList.head?.all (!isDigit ·) = true := by
    decide +kernel
  have hnone : lower ds ∉ monthNames := by
    intro hmem
    obtain ⟨c, cs, rfl⟩ := List.exists_cons_of_ne_nil hne
    have hc := all _ hmem
    rw [lower, map_toLower_of_digits h, String.toList_ofList, List.head?_cons, Option.all_some,
      h c List.mem_cons_self] at hc
    cases hc
  rw [month?, List.idxOf?_eq_none_iff.2 hnone]
  rfl

end Digits

/-! ### Numbers -/

/-- Whether a word is digits that are read as a number. -/
structure IsNumber (w : List Char) (n : Nat) : Prop where
  digits : ∀ c ∈ w, isDigit c = true
  ne_nil : w ≠ []
  value : number? w = some (n : Int)

theorem IsNumber.isWord {w : List Char} {n : Nat} (h : IsNumber w n) : IsWord w :=
  ⟨h.ne_nil, isBlank_of_digits h.digits⟩

theorem isNumber_of_digits {ds : List Char} (h : ∀ c ∈ ds, isDigit c = true) (hne : ds ≠ [])
    (hlength : ds.length ≤ integerDigitLimit) : IsNumber ds (ofDigits ds) :=
  ⟨h, hne, number?_of_digits h hne hlength⟩

/-- A number with zeros in front up to a width. -/
def digitsOf (width n : Nat) : List Char :=
  (padded width n).toList

theorem length_digitsOf {width n : Nat} (hwidth : 0 < width) (hn : n < 10 ^ width) :
    (digitsOf width n).length = width :=
  length_padded hwidth hn

theorem isNumber_digitsOf {width n : Nat} (hwidth : 0 < width) (hn : n < 10 ^ width)
    (hlimit : width ≤ integerDigitLimit) : IsNumber (digitsOf width n) n := by
  have hlength := length_digitsOf hwidth hn
  have hne : digitsOf width n ≠ [] :=
    List.ne_nil_of_length_pos (Nat.lt_of_lt_of_eq hwidth hlength.symm)
  have hnumber := isNumber_of_digits (fun _ => isDigit_of_mem_padded) hne (hlength.trans_le hlimit)
  rwa [ofDigits_padded] at hnumber

theorem isNumber_numeral {n : Nat} (hn : n < 100) : IsNumber (numeral n) n := by
  have hlength : (numeral n).length ≤ 2 := Nat.toDigits_length 10 n 2 (by decide) hn
  obtain ⟨c, cs, hcs, -⟩ := numeral_cons n
  have hne : numeral n ≠ [] := hcs ▸ List.cons_ne_nil c cs
  have hnumber := isNumber_of_digits (fun _ => isDigit_of_mem_numeral) hne
    (hlength.trans (by decide))
  rwa [ofDigits_numeral] at hnumber

/-- Digits end in no comma. -/
theorem withoutComma_of_digits {ds : List Char} (h : ∀ c ∈ ds, isDigit c = true) :
    withoutComma ds = ds := by
  refine if_neg fun hlast => ?_
  exact notMem_of_digits h (by decide : isDigit ',' = false) (List.mem_of_getLast? hlast)

/-! ### Names -/

/-- Whether a word is a name: it has no blanks, digits, signs or commas. -/
structure IsName (w : List Char) : Prop where
  ne_nil : w ≠ []
  chars : ∀ c ∈ w, isBlank c = false ∧ digitValue c = none ∧ c ∉ ['+', '-', ',']

instance (w : List Char) : Decidable (IsName w) :=
  decidable_of_iff (w ≠ [] ∧
      w.all (fun c => isBlank c = false ∧ digitValue c = none ∧ c ∉ ['+', '-', ',']) = true)
    ⟨fun h => ⟨h.1, fun c hc => of_decide_eq_true (List.all_eq_true.1 h.2 c hc)⟩,
      fun h => ⟨h.1, List.all_eq_true.2 fun c hc => decide_eq_true (h.2 c hc)⟩⟩

theorem IsName.isWord {w : List Char} (h : IsName w) : IsWord w :=
  ⟨h.ne_nil, fun c hc => (h.chars c hc).1⟩

/-- A text that starts with a name is not read as an integer. -/
theorem readInt?_of_name {name rest : List Char} (h : IsName name)
    (hstrip : strip (String.ofList (name ++ rest)) = String.ofList (name ++ rest)) :
    readInt? (String.ofList (name ++ rest)) = none := by
  obtain ⟨c, cs, rfl⟩ := List.exists_cons_of_ne_nil h.ne_nil
  obtain ⟨-, hvalue, hsigns⟩ := h.chars c List.mem_cons_self
  cases hread : readInt? (String.ofList (c :: cs ++ rest)) with
  | none => rfl
  | some z =>
    rw [← hstrip] at hread
    obtain ⟨ds, hdenotes⟩ := denotes_of_readInt? hread
    rw [hstrip, String.toList_ofList, List.cons_append] at hdenotes
    cases hdenotes with
    | unsigned hgrouped => exact absurd hgrouped (not_isGrouped_of_digitValue hvalue)
    | plus => exact absurd List.mem_cons_self hsigns
    | minus => exact absurd (List.mem_cons_of_mem _ List.mem_cons_self) hsigns

end AcmeClient.Calendar.HttpDate
