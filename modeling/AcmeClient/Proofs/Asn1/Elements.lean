import AcmeClient.Asn1.Der
import AcmeClient.Proofs.KeyText

/-!
# Elements are read back

An element is written as its tag, the length of its content and the content. The length takes one
octet below 128 and otherwise as many as it needs, of which four are read; elements that are nested
are shorter than what holds them:

* `readLength?_lengthOctets` — a length below 2³² is read back;
* `Element.Fits` — an element with a tag of one octet and such a length;
* `Element.read?_octets`, `only?_octets` and `all?_octets` — one element, and elements in a row;
* `Element.fits_of_only?` — an element that is read is short enough;
* `Element.sequence`, `Element.ofNatural` and others — what is written, as elements, and
  `sequence?_sequence`, `natural?_ofNatural` and so on what is read of them.
-/

namespace AcmeClient.Asn1

open Digest Text

/-! ### Lengths -/

theorem numberOf_lt (bs : List UInt8) : numberOf bs < 256 ^ bs.length := by
  induction bs using List.reverseRecOn with
  | nil => decide
  | append_singleton bs b ih =>
    have hb := b.toNat_lt
    rw [numberOf_concat, List.length_append, List.length_singleton, Nat.pow_succ]
    omega

theorem minimalOctets_of_pos {n : Nat} (h : n ≠ 0) :
    minimalOctets n = minimalOctets (n / 256) ++ [UInt8.ofNat (n % 256)] := by
  rw [minimalOctets, if_neg h]

theorem minimalOctets_zero : minimalOctets 0 = [] := by
  rw [minimalOctets, if_pos rfl]

/-- The fewest octets of a number spell it. -/
theorem numberOf_minimalOctets (n : Nat) : numberOf (minimalOctets n) = n := by
  induction n using Nat.strongRecOn with
  | ind n ih =>
    by_cases hn : n = 0
    · rw [hn, minimalOctets_zero]
      rfl
    · rw [minimalOctets_of_pos hn, numberOf_concat, ih _ (by omega),
        Utf8.toNat_ofNat_of_lt (by omega)]
      omega

/-- A number takes so many octets as it has digits to the base 256. -/
theorem length_minimalOctets_le_iff {n k : Nat} : (minimalOctets n).length ≤ k ↔ n < 256 ^ k := by
  induction k generalizing n with
  | zero =>
    rw [Nat.le_zero, List.length_eq_zero_iff, Nat.pow_zero, Nat.lt_one_iff]
    constructor
    · intro hnil
      rw [← numberOf_minimalOctets n, hnil]
      rfl
    · rintro rfl
      exact minimalOctets_zero
  | succ k ih =>
    by_cases hn : n = 0
    · rw [hn, minimalOctets_zero]
      simp
    · rw [minimalOctets_of_pos hn, List.length_append, List.length_singleton,
        Nat.add_le_add_iff_right, ih, Nat.div_lt_iff_lt_mul (by decide), Nat.pow_succ]

/-- The fewest octets do not start with a zero. -/
theorem head?_minimalOctets (n : Nat) : (minimalOctets n).head? ≠ some 0 := by
  induction n using Nat.strongRecOn with
  | ind n ih =>
    by_cases hn : n = 0
    · rw [hn, minimalOctets_zero]
      exact nofun
    · rw [minimalOctets_of_pos hn, List.head?_append]
      by_cases hsmall : n / 256 = 0
      · rw [hsmall, minimalOctets_zero]
        intro hzero
        have hlast := congrArg UInt8.toNat (Option.some.inj hzero)
        rw [Utf8.toNat_ofNat_of_lt (by omega)] at hlast
        have hlast : n % 256 = 0 := hlast
        omega
      · have hhead := ih (n / 256) (by omega)
        cases hfront : (minimalOctets (n / 256)).head? with
        | none =>
          have hnil := List.head?_eq_none_iff.1 hfront
          have hnumber := numberOf_minimalOctets (n / 256)
          rw [hnil] at hnumber
          exact absurd hnumber.symm hsmall
        | some b =>
          rw [hfront] at hhead
          exact hhead

/-- A length that four octets can hold is read back. -/
theorem readLength?_lengthOctets {n : Nat} (h : n < 2 ^ 32) (rest : List UInt8) :
    Element.readLength? (lengthOctets n ++ rest) = some (n, rest) := by
  rw [lengthOctets]
  split
  next hshort =>
    have hn : (UInt8.ofNat n).toNat = n := Utf8.toNat_ofNat_of_lt (by omega)
    rw [List.singleton_append, Element.readLength?, hn, if_pos hshort]
  next hlong =>
    have hle : (minimalOctets n).length ≤ 4 := length_minimalOctets_le_iff.2 (by simpa using h)
    have hpos : (minimalOctets n).length ≠ 0 := by
      intro hzero
      have := length_minimalOctets_le_iff.1 (Nat.le_of_eq hzero)
      omega
    have hfirst : (UInt8.ofNat (128 + (minimalOctets n).length)).toNat
        = 128 + (minimalOctets n).length := Utf8.toNat_ofNat_of_lt (by omega)
    dsimp only
    rw [List.cons_append, Element.readLength?, hfirst, if_neg (by omega)]
    simp only [Nat.add_sub_cancel_left, List.take_left, List.drop_left, numberOf_minimalOctets]
    rw [if_neg]
    simp only [not_or]
    exact ⟨hpos, by omega, by omega, head?_minimalOctets n, by omega⟩

/-- A length that is read takes five octets at most, and is one that four octets can hold. -/
theorem of_readLength? {bs rest : List UInt8} {n : Nat}
    (h : Element.readLength? bs = some (n, rest)) : n < 2 ^ 32 ∧ bs.length ≤ 5 + rest.length := by
  cases bs with
  | nil => cases h
  | cons b bs =>
    rw [Element.readLength?] at h
    split at h
    next hshort =>
      obtain ⟨rfl, rfl⟩ := Prod.mk.inj (Option.some.inj h)
      exact ⟨by omega, by rw [List.length_cons]; omega⟩
    next hlong =>
      dsimp only at h
      split at h
      · cases h
      next hgood =>
        simp only [not_or, Nat.not_lt] at hgood
        obtain ⟨rfl, rfl⟩ := Prod.mk.inj (Option.some.inj h)
        refine ⟨?_, by rw [List.length_cons, List.length_drop]; omega⟩
        calc numberOf (bs.take (b.toNat - 128))
            < 256 ^ (bs.take (b.toNat - 128)).length := numberOf_lt _
          _ ≤ 256 ^ 4 := Nat.pow_le_pow_right (by decide) (by rw [List.length_take]; omega)
          _ = 2 ^ 32 := rfl

namespace Element

/-! ### Elements -/

/-- Whether the tag of an element is one octet. -/
structure IsPlain (e : Element) : Prop where
  tag : e.tag.toNat % 32 ≠ 31
  further : e.further = []

/-- Whether an element with a tag of one octet is short enough to be read. -/
structure Fits (e : Element) : Prop extends e.IsPlain where
  short : e.content.length < 2 ^ 32

section Reading

variable {e : Element} {es : List Element}

theorem octets_ne_nil (e : Element) : e.octets ≠ [] :=
  List.cons_ne_nil _ _

/-- The content of an element is shorter than the element. -/
theorem length_content_lt (e : Element) : e.content.length < e.octets.length := by
  rw [octets, List.length_cons, List.length_append]
  omega

/-- The content of an element is shorter than elements in a row that it is one of. -/
theorem length_content_lt_of_mem (h : e ∈ es) :
    e.content.length < (es.flatMap octets).length := by
  obtain ⟨before, after, rfl⟩ := List.append_of_mem h
  have hlt := e.length_content_lt
  rw [List.flatMap_append, List.flatMap_cons, List.length_append, List.length_append]
  omega

/-- An element is read off the front. -/
theorem read?_octets (h : e.Fits) (rest : List UInt8) :
    read? (e.octets ++ rest) = some (e, rest) := by
  obtain ⟨tag, content, further⟩ := e
  obtain rfl : further = [] := h.further
  have hlength := readLength?_lengthOctets h.short (content ++ rest)
  dsimp only at hlength
  simp only [octets, List.nil_append, List.cons_append, List.append_assoc, read?, if_neg h.tag,
    Option.bind_eq_bind, Option.bind_some, hlength]
  simp

/-- What is read off the front: the tag, and for a tag of one octet a length and so many octets. -/
theorem of_read? {tag : UInt8} {bs rest : List UInt8} (h : read? (tag :: bs) = some (e, rest)) :
    e.tag = tag ∧ (tag.toNat % 32 ≠ 31 → ∃ n r, readLength? bs = some (n, r) ∧ n ≤ r.length ∧
      rest = r.drop n) := by
  have hcontent : ∀ {further r₁ : List UInt8}, ((readLength? r₁).bind fun p =>
      if p.2.length < p.1 then none
      else some ((⟨tag, p.2.take p.1, further⟩ : Element), p.2.drop p.1)) = some (e, rest) →
      e.tag = tag ∧ ∃ n r, readLength? r₁ = some (n, r) ∧ n ≤ r.length ∧ rest = r.drop n := by
    intro further r₁ h
    obtain ⟨⟨n, r⟩, hlength, h⟩ := Option.bind_eq_some_iff.1 h
    dsimp only at h
    split at h
    · cases h
    · obtain ⟨rfl, rfl⟩ := Prod.mk.inj (Option.some.inj h)
      exact ⟨rfl, n, r, hlength, by omega, rfl⟩
  rw [read?] at h
  split at h
  next hlarge =>
    obtain ⟨⟨further, r₁⟩, -, h⟩ := Option.bind_eq_some_iff.1 h
    exact ⟨(hcontent h).1, fun htag => absurd hlarge htag⟩
  · obtain ⟨htag, hlength⟩ := hcontent h
    exact ⟨htag, fun _ => hlength⟩

theorem only?_eq_some_iff {bs : List UInt8} : only? bs = some e ↔ read? bs = some (e, []) := by
  rw [only?]
  cases hread : read? bs with
  | none => simp
  | some p =>
    obtain ⟨e', rest⟩ := p
    cases rest <;> simp

/-- Octets that spell one element start with its tag. -/
theorem exists_of_only? {bs : List UInt8} (h : only? bs = some e) : ∃ rest, bs = e.tag :: rest := by
  rw [only?_eq_some_iff] at h
  cases bs with
  | nil => cases h
  | cons tag rest => exact ⟨rest, by rw [(of_read? h).1]⟩

/-- An element is read from its octets. -/
theorem only?_octets (h : e.Fits) : only? e.octets = some e := by
  have hread := read?_octets h []
  rw [List.append_nil] at hread
  exact only?_eq_some_iff.2 hread

/-- Octets of an element that are read are not too many. -/
theorem fits_of_only? {e' : Element} (hplain : e.IsPlain) (h : only? e.octets = some e') :
    e.Fits := by
  refine ⟨hplain, Nat.lt_of_not_le fun hlong => ?_⟩
  obtain ⟨tag, content, further⟩ := e
  obtain rfl : further = [] := hplain.further
  have hlong : 2 ^ 32 ≤ content.length := hlong
  rw [only?_eq_some_iff, octets] at h
  obtain ⟨n, r, hlength, -, hrest⟩ := (of_read? h).2 hplain.tag
  obtain ⟨hn, hle⟩ := of_readLength? hlength
  have hr : r.length ≤ n := by
    rw [← List.drop_eq_nil_iff, ← hrest]
  -- a length that does not fit takes at least six octets itself
  have hfive : ¬(minimalOctets content.length).length ≤ 4 := by
    rw [length_minimalOctets_le_iff]
    omega
  dsimp only at hle
  rw [List.nil_append, List.length_append, lengthOctets, if_neg (by omega), List.length_cons] at hle
  omega

/-- Elements in a row are read one by one. -/
theorem readAll?_octets (h : ∀ e ∈ es, e.Fits) {fuel : Nat} (hfuel : es.length ≤ fuel) :
    readAll? fuel (es.flatMap octets) = some es := by
  induction es generalizing fuel with
  | nil => cases fuel <;> rfl
  | cons e es ih =>
    obtain ⟨he, hes⟩ := List.forall_mem_cons.1 h
    cases fuel with
    | zero => cases hfuel
    | succ fuel =>
      have hread := read?_octets he (es.flatMap octets)
      rw [List.flatMap_cons]
      cases hbs : e.octets ++ es.flatMap octets with
      | nil => exact absurd (List.append_eq_nil_iff.1 hbs).1 e.octets_ne_nil
      | cons b bs =>
        rw [hbs] at hread
        simp [readAll?, hread, ih hes (Nat.le_of_succ_le_succ hfuel)]

theorem all?_octets (h : ∀ e ∈ es, e.Fits) : all? (es.flatMap octets) = some es := by
  refine readAll?_octets h ?_
  clear h
  induction es with
  | nil => exact Nat.le_refl _
  | cons e es ih =>
    have hpos := List.length_pos_iff.2 e.octets_ne_nil
    rw [List.flatMap_cons, List.length_append, List.length_cons]
    omega

end Reading

/-! ### What is written -/

/-- Elements in a row under a tag. -/
def holding (tag : UInt8) (es : List Element) : Element := ⟨tag, es.flatMap octets, []⟩

def sequence (es : List Element) : Element := holding 0x30 es

def ofNatural (n : Nat) : Element :=
  ⟨0x02, match minimalOctets n with
    | [] => [0]
    | b :: bs => if 128 ≤ b.toNat then 0 :: b :: bs else b :: bs, []⟩

def ofBits (bs : List UInt8) : Element := ⟨0x03, 0 :: bs, []⟩

def ofOctets (bs : List UInt8) : Element := ⟨0x04, bs, []⟩

def empty : Element := ⟨0x05, [], []⟩

def ofId (arcs : List Nat) : Element :=
  ⟨0x06, match arcs with
    | a :: b :: rest => sevenBits (40 * a + b) ++ rest.flatMap sevenBits
    | _ => [], []⟩

section Writing

variable {e : Element} {es : List Element} {tag : UInt8}

theorem sequenceOf_map_octets (es : List Element) :
    sequenceOf (es.map octets) = (sequence es).octets := by
  rw [sequenceOf, ← List.flatMap_def]
  rfl

/-- One element under a tag. -/
theorem octets_holding_singleton (tag : UInt8) (e : Element) :
    (holding tag [e]).octets = element tag e.octets := by
  simp [holding, octets, element]

theorem integer_eq (n : Nat) : integer n = (ofNatural n).octets := by
  rw [integer, ofNatural]
  cases minimalOctets n with
  | nil => rfl
  | cons b bs => dsimp only; split <;> rfl

theorem bitString_eq (bs : List UInt8) : bitString bs = (ofBits bs).octets := rfl

theorem objectId_eq (arcs : List Nat) : objectId arcs = (ofId arcs).octets := rfl

theorem null_eq : null = empty.octets := rfl

theorem isPlain_mk (tag : UInt8) (h : tag.toNat % 32 ≠ 31) (content : List UInt8) :
    (⟨tag, content, []⟩ : Element).IsPlain :=
  ⟨h, rfl⟩

@[simp] theorem isPlain_sequence (es : List Element) : (sequence es).IsPlain :=
  isPlain_mk 0x30 (by decide) _

@[simp] theorem isPlain_ofNatural (n : Nat) : (ofNatural n).IsPlain :=
  isPlain_mk 0x02 (by decide) _

@[simp] theorem isPlain_ofBits (bs : List UInt8) : (ofBits bs).IsPlain :=
  isPlain_mk 0x03 (by decide) _

@[simp] theorem isPlain_ofOctets (bs : List UInt8) : (ofOctets bs).IsPlain :=
  isPlain_mk 0x04 (by decide) _

@[simp] theorem isPlain_empty : empty.IsPlain :=
  isPlain_mk 0x05 (by decide) _

@[simp] theorem isPlain_ofId (arcs : List Nat) : (ofId arcs).IsPlain :=
  isPlain_mk 0x06 (by decide) _

/-- Elements that are nested fit when what holds them fits. -/
theorem Fits.of_mem (h : (holding tag es).Fits) (he : e ∈ es) (hplain : e.IsPlain) : e.Fits :=
  ⟨hplain, Nat.lt_trans (length_content_lt_of_mem he) h.short⟩

/-- An element in a string of bits fits when the string does. -/
theorem Fits.of_bits (h : (ofBits e.octets).Fits) (hplain : e.IsPlain) : e.Fits :=
  ⟨hplain, Nat.lt_trans (Nat.lt_succ_of_lt e.length_content_lt) h.short⟩

/-- An element in a string of octets fits when the string does. -/
theorem Fits.of_octets (h : (ofOctets e.octets).Fits) (hplain : e.IsPlain) : e.Fits :=
  ⟨hplain, Nat.lt_trans e.length_content_lt h.short⟩

/-- Elements are read back from what holds them. -/
theorem inside?_holding (h : (holding tag es).Fits) (hes : ∀ e ∈ es, e.IsPlain) :
    (holding tag es).inside? tag = some es := by
  have hall := all?_octets fun e he => h.of_mem he (hes e he)
  rwa [inside?, holding, if_pos rfl]

theorem sequence?_sequence (h : (sequence es).Fits) (hes : ∀ e ∈ es, e.IsPlain) :
    (sequence es).sequence? = some es :=
  inside?_holding h hes

/-- A set of one element is in order. -/
theorem setInside?_holding (h : (holding tag [e]).Fits) (he : e.IsPlain) :
    (holding tag [e]).setInside? tag = some [e] := by
  rw [setInside?, inside?_holding h (by simpa using he)]
  rfl

/-- A natural number is read back. -/
theorem natural?_ofNatural (n : Nat) : (ofNatural n).natural? = some n := by
  have hnumber := numberOf_minimalOctets n
  have hhead := head?_minimalOctets n
  suffices hinteger : (ofNatural n).integer? = some (n : Int) by
    rw [natural?, hinteger]
  rw [integer?, ofNatural, if_neg (not_not_intro rfl)]
  cases hbs : minimalOctets n with
  | nil =>
    rw [hbs] at hnumber
    rw [← hnumber]
    rfl
  | cons b bs =>
    rw [hbs] at hnumber hhead
    have hb : b ≠ 0 := fun hzero => hhead (by rw [hzero]; rfl)
    by_cases hlarge : 128 ≤ b.toNat
    · -- the zero in front does not count
      have hzero : numberOf (0 :: b :: bs) = n := hnumber
      simp [hlarge, hzero, Nat.not_lt.2 hlarge]
    · have hlt : b.toNat < 128 := Nat.not_le.1 hlarge
      cases bs with
      | nil =>
        obtain rfl : b.toNat = n := by simpa [numberOf] using hnumber
        simp [hlarge, hlt]
      | cons c rest =>
        have hne : b ≠ 255 := by
          rintro rfl
          exact absurd hlt (by decide)
        simp [hlarge, hnumber, hb, hne, hlt]

theorem wholeBits?_ofBits (bs : List UInt8) : (ofBits bs).wholeBits? = some bs := rfl

theorem octetString?_ofOctets (bs : List UInt8) : (ofOctets bs).octetString? = some bs := rfl

theorem isBitString_ofBits (bs : List UInt8) : (ofBits bs).isBitString = true := by
  cases bs with
  | nil => rfl
  | cons b bs => simp [isBitString, holdsBits, ofBits, Nat.mod_one]

end Writing

end Element

end AcmeClient.Asn1
