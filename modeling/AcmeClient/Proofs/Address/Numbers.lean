import AcmeClient.IpAddress
import AcmeClient.Proofs.Numerals
import AcmeClient.Proofs.Results
import Mathlib.Data.List.Forall2

/-!
# Octets and groups of addresses

The numbers of an address are written with few digits, and read strictly:

* `ofDigitsBase_lt`, `digitsBase_ofDigitsBase` — digits of any base and the number that they make;
* `IsDotted`, `parseV4?_eq_some_iff` — four octets between points, in the one way to write them;
* `IsGroup`, `group?_eq_some_iff` — one to four hexadecimal digits for a group;
* `isGroup_groupText`, `isGroup_hexOfWidth` — a group as it is written.
-/

namespace AcmeClient.IpAddress

open Number Text

/-! ### Digits of a base -/

section Digits

variable {base : Nat} {ds : List Nat}

theorem ofDigitsBase_concat (base : Nat) (ds : List Nat) (d : Nat) :
    ofDigitsBase base (ds ++ [d]) = base * ofDigitsBase base ds + d := by
  rw [ofDigitsBase, List.foldl_append]
  rfl

/-- Digits make a number below the power of the base that has as many zeros. -/
theorem ofDigitsBase_lt (h : ∀ d ∈ ds, d < base) : ofDigitsBase base ds < base ^ ds.length := by
  induction ds using List.reverseRecOn with
  | nil => exact Nat.one_pos
  | append_singleton ds d ih =>
    obtain ⟨hds, hd⟩ := List.forall_mem_append.1 h
    have hfront := ih hds
    have hlast := hd d (List.mem_singleton_self d)
    rw [ofDigitsBase_concat, List.length_append, List.length_singleton, Nat.pow_succ,
      Nat.mul_comm (base ^ ds.length)]
    calc base * ofDigitsBase base ds + d < base * ofDigitsBase base ds + base :=
          Nat.add_lt_add_left hlast _
      _ = base * (ofDigitsBase base ds + 1) := by rw [Nat.mul_add, Nat.mul_one]
      _ ≤ base * base ^ ds.length := Nat.mul_le_mul_left base hfront

/-- The digits of the number that digits make are those digits. -/
theorem digitsBase_ofDigitsBase (h : ∀ d ∈ ds, d < base) :
    digitsBase base ds.length (ofDigitsBase base ds) = ds := by
  induction ds using List.reverseRecOn with
  | nil => rfl
  | append_singleton ds d ih =>
    obtain ⟨hds, hd⟩ := List.forall_mem_append.1 h
    have hlast := hd d (List.mem_singleton_self d)
    have hpos : 0 < base := Nat.zero_lt_of_lt hlast
    rw [ofDigitsBase_concat, List.length_append, List.length_singleton, digitsBase,
      Nat.mul_add_div hpos, Nat.div_eq_of_lt hlast, Nat.add_zero, ih hds, Nat.mul_add_mod,
      Nat.mod_eq_of_lt hlast]

/-- The number that the lowest digits of a number make is the rest of it by a power of the base. -/
theorem ofDigitsBase_digitsBase (base count n : Nat) :
    ofDigitsBase base (digitsBase base count n) = n % base ^ count := by
  induction count generalizing n with
  | zero => rw [Nat.pow_zero, Nat.mod_one]; rfl
  | succ count ih =>
    rw [digitsBase, ofDigitsBase_concat, ih, Nat.pow_succ', Nat.mod_mul, Nat.add_comm]

end Digits

/-! ### Octets -/

/-- An octet is its numeral. -/
theorem octet?_eq_some_iff {cs : List Char} {n : Nat} :
    octet? cs = some n ↔ n ≤ 255 ∧ cs = numeral n := by
  rw [octet?]
  constructor
  · intro h
    split at h
    next hcs =>
      obtain ⟨hne, hdigits, -, hzero⟩ := hcs
      dsimp only at h
      split at h
      next hle =>
        obtain rfl := Option.some.inj h
        refine ⟨hle, (numeral_ofDigits hne (List.all_eq_true.1 hdigits) fun hhead => ?_).symm⟩
        exact hzero.resolve_right fun hne => hne hhead
      next => cases h
    next => cases h
  · rintro ⟨hle, rfl⟩
    obtain ⟨c, rest, hcons, -, hzero⟩ := numeral_cons n
    have hlength : (numeral n).length ≤ 3 :=
      Nat.toDigits_length 10 n 3 (by decide) (Nat.lt_of_le_of_lt hle (by decide))
    have hdigits : (numeral n).all isDigit = true :=
      List.all_eq_true.2 fun c hc => isDigit_of_mem_numeral hc
    have hfirst : numeral n = ['0'] ∨ (numeral n).head? ≠ some '0' := by
      by_cases hc : c = '0'
      · exact .inl (by rw [hcons, (hzero hc).1, hc])
      · exact .inr fun hhead => hc (Option.some.inj (by rw [← hhead, hcons]; rfl))
    rw [if_pos ⟨hcons ▸ List.cons_ne_nil c rest, hdigits, hlength, hfirst⟩, ofDigits_numeral]
    exact if_pos hle

/-- Whether characters are four octets between points, which make a number. -/
def IsDotted (cs : List Char) (n : Nat) : Prop :=
  ∃ os : List Nat, os.length = 4 ∧ (∀ o ∈ os, o ≤ 255) ∧ cs = joined '.' (os.map numeral) ∧
    n = ofDigitsBase 256 os

theorem notMem_numeral {c : Char} (h : isDigit c = false) (n : Nat) : c ∉ numeral n := by
  intro hmem
  rw [isDigit_of_mem_numeral hmem] at h
  cases h

theorem mapM_octet?_eq_some_iff {ps : List (List Char)} {os : List Nat} :
    ps.mapM octet? = some os ↔ (∀ o ∈ os, o ≤ 255) ∧ ps = os.map numeral := by
  simp only [mapM_eq_some_iff, octet?_eq_some_iff]
  constructor
  · intro h
    induction h with
    | nil => exact ⟨nofun, rfl⟩
    | cons h _ ih =>
      obtain ⟨hle, rfl⟩ := ih
      exact ⟨List.forall_mem_cons.2 ⟨h.1, hle⟩, by rw [h.2]; rfl⟩
  · rintro ⟨hle, rfl⟩
    rw [List.forall₂_map_left_iff, List.forall₂_same]
    exact fun o ho => ⟨hle o ho, rfl⟩

/-- A short address is read from four octets between points. -/
theorem parseV4?_eq_some_iff {cs : List Char} {n : Nat} : parseV4? cs = some n ↔ IsDotted cs n := by
  rw [parseV4?, IsDotted]
  constructor
  · intro h
    split at h
    next hcount =>
      obtain ⟨os, hos, rfl⟩ := Option.map_eq_some_iff.1 h
      obtain ⟨hle, hpieces⟩ := mapM_octet?_eq_some_iff.1 hos
      refine ⟨os, ?_, hle, ?_, rfl⟩
      · rw [← hcount, hpieces, List.length_map]
      · rw [← hpieces, joined_pieces]
    next => cases h
  · rintro ⟨os, hcount, hle, rfl, rfl⟩
    have hne : os.map numeral ≠ [] := List.ne_nil_of_length_pos (by rw [List.length_map]; omega)
    have hpieces : pieces '.' (joined '.' (os.map numeral)) = os.map numeral :=
      pieces_joined hne (List.forall_mem_map.2 fun o _ => notMem_numeral rfl o)
    rw [hpieces, List.length_map, if_pos hcount, mapM_octet?_eq_some_iff.2 ⟨hle, rfl⟩]
    rfl

theorem IsDotted.lt {cs : List Char} {n : Nat} (h : IsDotted cs n) : n < 4294967296 := by
  obtain ⟨os, hcount, hle, -, rfl⟩ := h
  have hlt : ofDigitsBase 256 os < 256 ^ os.length :=
    ofDigitsBase_lt fun o ho => Nat.lt_succ_of_le (hle o ho)
  rwa [hcount] at hlt

/-- Digits and points are all there is in a short address, and there are points. -/
theorem IsDotted.chars {cs : List Char} {n : Nat} (h : IsDotted cs n) :
    '.' ∈ cs ∧ ∀ c ∈ cs, c = '.' ∨ isDigit c = true := by
  obtain ⟨os, hcount, -, rfl, -⟩ := h
  constructor
  · match os, hcount with
    | [a, b, c, d], _ => exact List.mem_append_right _ List.mem_cons_self
  · intro c hc
    refine (mem_joined hc).imp_right ?_
    rintro ⟨p, hp, hc⟩
    obtain ⟨o, -, rfl⟩ := List.mem_map.1 hp
    exact isDigit_of_mem_numeral hc

/-! ### Groups -/

/-- Whether characters are one to four hexadecimal digits, which make a number. -/
structure IsGroup (cs : List Char) (g : Nat) : Prop where
  ne_nil : cs ≠ []
  length_le : cs.length ≤ 4
  digits : ∃ ds, List.Forall₂ (fun c d => hexValue c = some d) cs ds ∧ g = ofDigitsBase 16 ds

theorem group?_eq_some_iff {cs : List Char} {g : Nat} : group? cs = some g ↔ IsGroup cs g := by
  rw [group?]
  constructor
  · intro h
    split at h
    next hcs =>
      obtain ⟨ds, hds, rfl⟩ := Option.map_eq_some_iff.1 h
      exact ⟨hcs.1, hcs.2, ds, mapM_eq_some_iff.1 hds, rfl⟩
    next => cases h
  · rintro ⟨hne, hle, ds, hds, rfl⟩
    rw [if_pos ⟨hne, hle⟩, mapM_eq_some_iff.2 hds]
    rfl

theorem mapM_group?_eq_some_iff {ps : List (List Char)} {gs : List Nat} :
    ps.mapM group? = some gs ↔ List.Forall₂ IsGroup ps gs := by
  simp only [mapM_eq_some_iff, group?_eq_some_iff]

theorem hexValue_lt {c : Char} {d : Nat} (h : hexValue c = some d) : d < 16 := by
  simp only [hexValue, Bool.and_eq_true, decide_eq_true_eq] at h
  split at h
  · cases h
    omega
  · split at h
    · cases h
      omega
    · split at h
      · cases h
        omega
      · cases h

theorem IsGroup.lt {cs : List Char} {g : Nat} (h : IsGroup cs g) : g < 65536 := by
  obtain ⟨-, hle, ds, hds, rfl⟩ := h
  have hsmall : ∀ d ∈ ds, d < 16 := forall_mem_of_forall₂ hds fun _ _ => hexValue_lt
  calc ofDigitsBase 16 ds < 16 ^ ds.length := ofDigitsBase_lt hsmall
    _ ≤ 16 ^ 4 := Nat.pow_le_pow_right (by decide) (hds.length_eq ▸ hle)

theorem IsGroup.chars {cs : List Char} {g : Nat} (h : IsGroup cs g) :
    ∀ c ∈ cs, (hexValue c).isSome = true := by
  obtain ⟨-, -, ds, hds, -⟩ := h
  exact forall_mem_of_forall₂ hds.flip fun d c hc => Option.isSome_iff_exists.2 ⟨d, hc⟩

/-- A group is one number. -/
theorem IsGroup.unique {cs : List Char} {g k : Nat} (hg : IsGroup cs g) (hk : IsGroup cs k) : g = k :=
  Option.some.inj ((group?_eq_some_iff.2 hg).symm.trans (group?_eq_some_iff.2 hk))

/-- A number is written in hexadecimal digits that make it. -/
theorem forall₂_toDigits (n : Nat) :
    ∃ ds, List.Forall₂ (fun c d => hexValue c = some d) (Nat.toDigits 16 n) ds ∧
      n = ofDigitsBase 16 ds := by
  have hdigit : ∀ k ∈ List.range 16, hexValue k.digitChar = some k := by decide
  induction n using Nat.strongRecOn with
  | ind n ih =>
    by_cases h : n < 16
    · rw [Nat.toDigits_of_lt_base h]
      exact ⟨[n], .cons (hdigit n (List.mem_range.2 h)) .nil, by simp [ofDigitsBase]⟩
    · obtain ⟨ds, hds, hn⟩ := ih (n / 16) (by omega)
      rw [Nat.toDigits_of_base_le (by decide) (Nat.not_lt.1 h)]
      refine ⟨ds ++ [n % 16], List.rel_append hds (.cons ?_ .nil), ?_⟩
      · exact hdigit _ (List.mem_range.2 (Nat.mod_lt _ (by decide)))
      · rw [ofDigitsBase_concat, ← hn]
        omega

theorem groupText_ne_nil (n : Nat) : groupText n ≠ [] := by
  rw [groupText]
  by_cases h : n < 16
  · rw [Nat.toDigits_of_lt_base h]
    exact List.cons_ne_nil _ _
  · rw [Nat.toDigits_of_base_le (by decide) (Nat.not_lt.1 h)]
    exact List.append_ne_nil_of_right_ne_nil _ (List.cons_ne_nil _ _)

/-- A group is read from its text. -/
theorem isGroup_groupText {g : Nat} (h : g < 65536) : IsGroup (groupText g) g :=
  ⟨groupText_ne_nil g, Nat.toDigits_length 16 g 4 (by decide) h, forall₂_toDigits g⟩

theorem forall₂_hexOfWidth (width n : Nat) :
    List.Forall₂ (fun c d => hexValue c = some d) (hexOfWidth width n) (digitsBase 16 width n) := by
  induction width generalizing n with
  | zero => exact .nil
  | succ width ih =>
    exact List.rel_append (ih (n / 16)) (.cons (hexValue_hexDigit _ (Nat.mod_lt _ (by decide))) .nil)

/-- A group is read from four digits. -/
theorem isGroup_hexOfWidth {g : Nat} (h : g < 65536) : IsGroup (hexOfWidth 4 g) g := by
  have hlength := length_hexOfWidth 4 g
  refine ⟨List.ne_nil_of_length_pos (by omega), hlength.le, _, forall₂_hexOfWidth 4 g, ?_⟩
  simp only [digitsBase, ofDigitsBase, List.nil_append, List.cons_append, List.foldl_cons,
    List.foldl_nil]
  omega

end AcmeClient.IpAddress
