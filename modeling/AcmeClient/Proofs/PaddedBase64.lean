import AcmeClient.Proofs.Base64
import AcmeClient.Proofs.Results
import Mathlib.Data.List.TakeWhile

/-!
# Padded base64

Three octets and four characters make the same number of 24 bits. One or two octets at the end make
that of the two or three characters in front of the padding, with zeros for the bits that are
missing. No other characters are read:

* `Base64.alphabet` and `Base64.StandsFor` — the characters and what they stand for;
* `Base64.IsPadded` — the padded base64 of octets, three octets at a time;
* `Base64.isPadded_iff` — what is written is the padded base64;
* `Base64.decodePadded_eq_some_iff` — and nothing but the padded base64 is read.
-/

namespace AcmeClient.Base64

/-! ### The alphabet -/

/-- The characters of the `standard` alphabet, in the order of the groups. -/
def alphabet : List Char :=
  "ABCDEFGHIJKLMNOPQRSTUVWXYZabcdefghijklmnopqrstuvwxyz0123456789+/".toList

/-- Whether a character stands for a group of six bits. -/
def StandsFor (c : Char) (n : Nat) : Prop :=
  alphabet[n]? = some c

theorem standsFor_iff {c : Char} {n : Nat} : StandsFor c n ↔ n < 64 ∧ digit '+' '/' n = c := by
  have all : ∀ k ∈ List.range 64, alphabet[k]? = some (digit '+' '/' k) := by decide +kernel
  constructor
  · intro h
    have hlt : n < 64 := (List.getElem?_eq_some_iff.1 h).1
    have hdigit := all n (List.mem_range.2 hlt)
    exact ⟨hlt, Option.some.inj (hdigit.symm.trans h)⟩
  · rintro ⟨hlt, rfl⟩
    exact all n (List.mem_range.2 hlt)

/-- What a character is read as. -/
def standardValue (c : Char) : Option Nat :=
  if c = '-' ∨ c = '_' then none else value c

/-- A character is read as the group that it stands for. -/
theorem standardValue_eq_some_iff {c : Char} {n : Nat} :
    standardValue c = some n ↔ StandsFor c n := by
  rw [standsFor_iff, standardValue]
  constructor
  · intro h
    have hc : Char.ofNat c.toNat = c := Char.ofNat_toNat c
    by_cases hurl : c = '-' ∨ c = '_'
    · rw [if_pos hurl] at h
      cases h
    rw [if_neg hurl, value] at h
    obtain ⟨hminus, hline⟩ := not_or.1 hurl
    rw [digit]
    split at h
    next hupper =>
      obtain rfl := Option.some.inj h
      rw [if_pos (by omega), Nat.add_sub_cancel' hupper.1]
      exact ⟨by omega, hc⟩
    split at h
    next hlower =>
      obtain rfl := Option.some.inj h
      rw [if_neg (by omega), if_pos (by omega), Nat.add_sub_cancel' (by omega)]
      exact ⟨by omega, hc⟩
    split at h
    next hdigit =>
      obtain rfl := Option.some.inj h
      rw [if_neg (by omega), if_neg (by omega), if_pos (by omega), Nat.add_sub_cancel]
      exact ⟨by omega, hc⟩
    split at h
    next hplus =>
      obtain rfl := Option.some.inj h
      exact ⟨by decide, (hplus.resolve_left hminus).symm⟩
    split at h
    next hslash =>
      obtain rfl := Option.some.inj h
      exact ⟨by decide, (hslash.resolve_left hline).symm⟩
    next => cases h
  · rintro ⟨hlt, rfl⟩
    have all : ∀ k ∈ List.range 64, standardValue (digit '+' '/' k) = some k := by decide +kernel
    exact all n (List.mem_range.2 hlt)

/-- Characters are read as groups exactly when they are written for them. -/
theorem standardValues_eq_some_iff {cs : List Char} {ns : List Nat} :
    standardValues cs = some ns ↔ (∀ n ∈ ns, n < 64) ∧ ns.map (digit '+' '/') = cs := by
  rw [show standardValues cs = cs.mapM standardValue from rfl, mapM_eq_some_iff]
  simp only [standardValue_eq_some_iff, standsFor_iff]
  constructor
  · intro h
    induction h with
    | nil => exact ⟨nofun, rfl⟩
    | cons h _ ih =>
      obtain ⟨hlt, rfl⟩ := ih
      exact ⟨List.forall_mem_cons.2 ⟨h.1, hlt⟩, by rw [List.map_cons, h.2]⟩
  · rintro ⟨hlt, rfl⟩
    rw [List.forall₂_map_left_iff, List.forall₂_same]
    exact fun n hn => ⟨hlt n hn, rfl⟩

/-! ### Octets and characters -/

/-- Whether characters are the padded base64 of octets. -/
inductive IsPadded : List UInt8 → List Char → Prop where
  | nil : IsPadded [] []
  | one {a : UInt8} {c₁ c₂ : Char} {n₁ n₂ : Nat} : StandsFor c₁ n₁ → StandsFor c₂ n₂ →
      n₁ * 64 + n₂ = a.toNat * 16 → IsPadded [a] [c₁, c₂, '=', '=']
  | two {a b : UInt8} {c₁ c₂ c₃ : Char} {n₁ n₂ n₃ : Nat} : StandsFor c₁ n₁ → StandsFor c₂ n₂ →
      StandsFor c₃ n₃ → (n₁ * 64 + n₂) * 64 + n₃ = (a.toNat * 256 + b.toNat) * 4 →
      IsPadded [a, b] [c₁, c₂, c₃, '=']
  | three {a b c : UInt8} {c₁ c₂ c₃ c₄ : Char} {n₁ n₂ n₃ n₄ : Nat} {bs : List UInt8}
      {cs : List Char} : StandsFor c₁ n₁ → StandsFor c₂ n₂ → StandsFor c₃ n₃ → StandsFor c₄ n₄ →
      ((n₁ * 64 + n₂) * 64 + n₃) * 64 + n₄ = (a.toNat * 256 + b.toNat) * 256 + c.toNat →
      IsPadded bs cs → IsPadded (a :: b :: c :: bs) (c₁ :: c₂ :: c₃ :: c₄ :: cs)

theorem toList_encodePadded (bs : List UInt8) : (encodePadded bs).toList
    = (sextets bs).map (digit '+' '/')
      ++ List.replicate ((4 - (sextets bs).length % 4) % 4) '=' := by
  simp [encodePadded]

/-- Three octets in front are four characters in front. -/
theorem toList_encodePadded_cons (a b c : UInt8) (bs : List UInt8) :
    (encodePadded (a :: b :: c :: bs)).toList
      = (sextets [a, b, c]).map (digit '+' '/') ++ (encodePadded bs).toList := by
  have hlength : (sextets (a :: b :: c :: bs)).length % 4 = (sextets bs).length % 4 := by
    rw [sextets, List.length_cons, List.length_cons, List.length_cons, List.length_cons]
    exact Nat.add_mod_right _ 4
  rw [toList_encodePadded, hlength, toList_encodePadded]
  simp [sextets]

/-- What is written is the padded base64. -/
theorem isPadded_encodePadded (bs : List UInt8) : IsPadded bs (encodePadded bs).toList := by
  have hstands : ∀ {n}, n < 64 → StandsFor (digit '+' '/' n) n :=
    fun h => standsFor_iff.2 ⟨h, rfl⟩
  induction bs using sextets.induct with
  | case1 => exact .nil
  | case2 a =>
    have ha := a.toNat_lt
    rw [toList_encodePadded]
    show IsPadded [a] [digit '+' '/' (a.toNat / 4), digit '+' '/' (a.toNat % 4 * 16), '=', '=']
    exact .one (hstands (by omega)) (hstands (by omega)) (by omega)
  | case3 a b =>
    have ha := a.toNat_lt
    have hb := b.toNat_lt
    rw [toList_encodePadded]
    show IsPadded [a, b] [digit '+' '/' ((a.toNat * 256 + b.toNat) / 1024),
      digit '+' '/' ((a.toNat * 256 + b.toNat) / 16 % 64),
      digit '+' '/' ((a.toNat * 256 + b.toNat) % 16 * 4), '=']
    exact .two (hstands (by omega)) (hstands (by omega)) (hstands (by omega)) (by omega)
  | case4 a b c bs ih =>
    have ha := a.toNat_lt
    have hb := b.toNat_lt
    have hc := c.toNat_lt
    rw [toList_encodePadded_cons]
    refine .three (hstands ?_) (hstands ?_) (hstands ?_) (hstands ?_) ?_ ih <;> omega

/-- The padded base64 of octets is the one that is written. -/
theorem isPadded_iff {bs : List UInt8} {cs : List Char} :
    IsPadded bs cs ↔ (encodePadded bs).toList = cs := by
  constructor
  · intro h
    induction h with
    | nil => rfl
    | @one a c₁ c₂ n₁ n₂ h₁ h₂ heq =>
      obtain ⟨hlt₁, rfl⟩ := standsFor_iff.1 h₁
      obtain ⟨hlt₂, rfl⟩ := standsFor_iff.1 h₂
      have e₁ : a.toNat / 4 = n₁ := by omega
      have e₂ : a.toNat % 4 * 16 = n₂ := by omega
      simp [toList_encodePadded, sextets, e₁, e₂]
    | @two a b c₁ c₂ c₃ n₁ n₂ n₃ h₁ h₂ h₃ heq =>
      obtain ⟨hlt₁, rfl⟩ := standsFor_iff.1 h₁
      obtain ⟨hlt₂, rfl⟩ := standsFor_iff.1 h₂
      obtain ⟨hlt₃, rfl⟩ := standsFor_iff.1 h₃
      have e₁ : (a.toNat * 256 + b.toNat) / 1024 = n₁ := by omega
      have e₂ : (a.toNat * 256 + b.toNat) / 16 % 64 = n₂ := by omega
      have e₃ : (a.toNat * 256 + b.toNat) % 16 * 4 = n₃ := by omega
      simp [toList_encodePadded, sextets, e₁, e₂, e₃]
    | @three a b c c₁ c₂ c₃ c₄ n₁ n₂ n₃ n₄ bs cs h₁ h₂ h₃ h₄ heq _ ih =>
      obtain ⟨hlt₁, rfl⟩ := standsFor_iff.1 h₁
      obtain ⟨hlt₂, rfl⟩ := standsFor_iff.1 h₂
      obtain ⟨hlt₃, rfl⟩ := standsFor_iff.1 h₃
      obtain ⟨hlt₄, rfl⟩ := standsFor_iff.1 h₄
      have hgroups : sextets [a, b, c] = [n₁, n₂, n₃, n₄] := by
        simp only [sextets, List.cons.injEq, and_true]
        omega
      rw [toList_encodePadded_cons, ih, hgroups]
      rfl
  · rintro rfl
    exact isPadded_encodePadded bs

theorem notMem_digits {ns : List Nat} (h : ∀ n ∈ ns, n < 64) : '=' ∉ ns.map (digit '+' '/') := by
  have all : ∀ k ∈ List.range 64, digit '+' '/' k ≠ '=' := by decide +kernel
  intro hmem
  obtain ⟨n, hn, hpad⟩ := List.mem_map.1 hmem
  exact all n (List.mem_range.2 (h n hn)) hpad

/-- Padding is read off behind characters of which none is padding. -/
theorem decodePadded_append_replicate {body : List Char} (h : '=' ∉ body) (k : Nat) :
    decodePadded (body ++ List.replicate k '=')
      = if (body.length + k) % 4 = 0 ∧ k ≤ 2 then
          (standardValues body).bind fun ns =>
            if sextets (octets ns) = ns then some (octets ns) else none
        else none := by
  have hne : ∀ c ∈ body, decide (c ≠ '=') = true := by
    intro c hc
    exact decide_eq_true fun heq => h (heq ▸ hc)
  have hbody : (body ++ List.replicate k '=').takeWhile (· ≠ '=') = body := by
    rw [List.takeWhile_append_of_pos hne]
    cases k <;> simp [List.replicate_succ]
  have hpad : (body ++ List.replicate k '=').dropWhile (· ≠ '=') = List.replicate k '=' := by
    rw [List.dropWhile_append_of_pos hne]
    cases k <;> simp [List.replicate_succ]
  rw [decodePadded, hbody, hpad]
  simp

theorem mem_alphabet_of_isPadded {bs : List UInt8} {cs : List Char} (h : IsPadded bs cs) :
    ∀ c ∈ cs, c ∈ alphabet ∨ c = '=' := by
  have hmem : ∀ {c n}, StandsFor c n → c ∈ alphabet ∨ c = '=' :=
    fun hc => .inl (List.mem_of_getElem? hc)
  induction h with
  | nil => exact nofun
  | one h₁ h₂ _ => simp [hmem h₁, hmem h₂]
  | two h₁ h₂ h₃ _ => simp [hmem h₁, hmem h₂, hmem h₃]
  | three h₁ h₂ h₃ h₄ _ _ ih =>
    exact List.forall_mem_cons.2 ⟨hmem h₁, List.forall_mem_cons.2 ⟨hmem h₂,
      List.forall_mem_cons.2 ⟨hmem h₃, List.forall_mem_cons.2 ⟨hmem h₄, ih⟩⟩⟩⟩

/-- What is read is characters with padding behind them. -/
theorem exists_padding {bs : List UInt8} {cs : List Char} (h : decodePadded cs = some bs) :
    ∃ body k, '=' ∉ body ∧ cs = body ++ List.replicate k '=' := by
  rw [decodePadded] at h
  split at h
  next hform =>
    have hpad : ∀ c ∈ cs.dropWhile (· ≠ '='), c = '=' := fun c hc =>
      of_decide_eq_true (List.all_eq_true.1 hform.2.2 c hc)
    refine ⟨cs.takeWhile (· ≠ '='), (cs.dropWhile (· ≠ '=')).length, fun hmem => ?_, ?_⟩
    · simpa using List.mem_takeWhile_imp hmem
    · rw [← List.eq_replicate_of_mem hpad, List.takeWhile_append_dropWhile]
  next => cases h

/-- Nothing but the padded base64 of octets is read, and it is read as these. -/
theorem decodePadded_eq_some_iff {bs : List UInt8} {cs : List Char} :
    decodePadded cs = some bs ↔ IsPadded bs cs := by
  rw [isPadded_iff, toList_encodePadded]
  constructor
  · intro h
    obtain ⟨body, k, hbody, rfl⟩ := exists_padding h
    rw [decodePadded_append_replicate hbody] at h
    split at h
    next hform =>
      obtain ⟨ns, hns, hread⟩ := Option.bind_eq_some_iff.1 h
      obtain ⟨-, rfl⟩ := standardValues_eq_some_iff.1 hns
      split at hread
      next hwhole =>
        obtain rfl := Option.some.inj hread
        -- whole octets never leave one group over, so what is padded is determined
        have hlone := length_sextets_mod (octets ns)
        rw [hwhole] at hlone ⊢
        rw [List.length_map] at hform
        rw [show (4 - ns.length % 4) % 4 = k by omega]
      next => cases hread
    next => cases h
  · rintro rfl
    have hlone := length_sextets_mod bs
    have hlength : ((sextets bs).map (digit '+' '/')).length = (sextets bs).length :=
      List.length_map _
    rw [decodePadded_append_replicate (notMem_digits (sextets_lt bs)), hlength, if_pos (by omega),
      standardValues_eq_some_iff.2 ⟨sextets_lt bs, rfl⟩, Option.bind_some, octets_sextets,
      if_pos rfl]

end AcmeClient.Base64
