import AcmeClient.Proofs.Json.RoundTrip
import AcmeClient.Proofs.Utf8

/-!
# Written JSON as octets

Written JSON is printable ASCII, so its octets show no mark and no zeros, and are read as the text
that they spell:

* `IsPlain` — a printable character of ASCII;
* `isPlain_write` — written values consist of such characters;
* `Encoding.detect_plain` — octets of such characters are taken for what they are;
* `Body.document_octets` — a written object is read from its octets as from its characters;
* `Body.document_canonical` — the canonical text of an object gives its members back, sorted.
-/

namespace AcmeClient

open Number Text

/-- Whether a character is printable ASCII. -/
def IsPlain (c : Char) : Prop :=
  32 ≤ c.toNat ∧ c.toNat < 127

instance (c : Char) : Decidable (IsPlain c) :=
  inferInstanceAs (Decidable (_ ∧ _))

/-- The characters of a list that is given are tested one by one. -/
theorem isPlain_of_all {cs : List Char} (h : (cs.all fun c => decide (IsPlain c)) = true) :
    ∀ c ∈ cs, IsPlain c :=
  fun c hc => of_decide_eq_true (List.all_eq_true.1 h c hc)

/-! ### Written values -/

theorem isPlain_hexOfWidth {width n : Nat} {c : Char} (h : c ∈ hexOfWidth width n) : IsPlain c := by
  have digit : ∀ k < 16, IsPlain (hexDigit k) := by decide
  induction width generalizing n with
  | zero => cases h
  | succ width ih =>
    rw [hexOfWidth, List.mem_append, List.mem_singleton] at h
    obtain h | rfl := h
    · exact ih h
    · exact digit _ (Nat.mod_lt n (by decide))

theorem isPlain_numeral {n : Nat} {c : Char} (h : c ∈ numeral n) : IsPlain c := by
  have hb : 48 ≤ c.toNat ∧ c.toNat ≤ 57 := by simpa [isDigit] using isDigit_of_mem_numeral h
  exact ⟨by omega, by omega⟩

namespace Json

theorem isPlain_unitEscape {u : Nat} {c : Char} (h : c ∈ unitEscape u) : IsPlain c := by
  rw [unitEscape, List.mem_cons, List.mem_cons] at h
  obtain rfl | rfl | h := h
  · decide
  · decide
  · exact isPlain_hexOfWidth h

theorem isPlain_escapeChar (c : Char) : ∀ d ∈ escapeChar c, IsPlain d := by
  have pair : ∀ e, IsPlain e → ∀ d ∈ ['\\', e], IsPlain d := by
    intro e he d hd
    obtain rfl | hd := List.mem_cons.1 hd
    · decide
    · exact List.mem_singleton.1 hd ▸ he
  unfold escapeChar
  dsimp only
  split
  · next hq => obtain rfl | rfl := hq <;> exact pair _ (by decide)
  · split
    · next hc =>
      intro d hd
      exact List.mem_singleton.1 hd ▸ hc
    · -- the letters of short escapes
      iterate 5 (split; exact pair _ (by decide))
      split
      · exact fun d hd => isPlain_unitEscape hd
      · intro d hd
        obtain hd | hd := List.mem_append.1 hd
        · exact isPlain_unitEscape hd
        · exact isPlain_unitEscape hd

theorem isPlain_renderString (s : String) : ∀ d ∈ renderString s, IsPlain d := by
  intro d hd
  rw [renderString, List.mem_cons, List.mem_append, List.mem_flatMap, List.mem_singleton] at hd
  obtain rfl | ⟨c, -, hd⟩ | rfl := hd
  · decide
  · exact isPlain_escapeChar c d hd
  · decide

theorem isPlain_separated {sep : List Char} (hsep : ∀ d ∈ sep, IsPlain d)
    {parts : List (List Char)} (h : ∀ p ∈ parts, ∀ d ∈ p, IsPlain d) :
    ∀ d ∈ separated sep parts, IsPlain d := by
  induction parts with
  | nil =>
    intro d hd
    exact absurd hd List.not_mem_nil
  | cons p parts ih =>
    cases parts with
    | nil =>
      rw [separated_singleton]
      exact h p (by simp)
    | cons q parts =>
      intro d hd
      rw [separated_cons_cons, List.mem_append, List.mem_append] at hd
      obtain (hd | hd) | hd := hd
      · exact h p (by simp) d hd
      · exact hsep d hd
      · exact ih (fun r hr => h r (by simp [hr])) d hd

/-- Whether what a layout puts between items, and between names and values, is printable. -/
def Layout.IsPlain (l : Layout) : Prop :=
  (∀ d ∈ l.itemSeparator, AcmeClient.IsPlain d) ∧ ∀ d ∈ l.nameSeparator, AcmeClient.IsPlain d

theorem isPlain_integerText (n : Int) : ∀ d ∈ (integerText n).toList, IsPlain d := by
  cases n with
  | ofNat n =>
    intro d hd
    rw [integerText, String.toList_ofList] at hd
    exact isPlain_numeral hd
  | negSucc n =>
    intro d hd
    rw [integerText, String.toList_ofList, List.mem_cons] at hd
    obtain rfl | hd := hd
    · decide
    · exact isPlain_numeral hd

/-- Written parts between two brackets. -/
theorem isPlain_enclosed {left right : Char} {cs : List Char} (hleft : IsPlain left)
    (hright : IsPlain right) (h : ∀ d ∈ cs, IsPlain d) :
    ∀ d ∈ left :: (cs ++ [right]), IsPlain d := by
  intro d hd
  rw [List.mem_cons, List.mem_append, List.mem_singleton] at hd
  obtain rfl | hd | rfl := hd
  · exact hleft
  · exact h d hd
  · exact hright

theorem isPlain_writeMember {l : Layout} (hl : l.IsPlain) {p : String × Json}
    (hp : ∀ d ∈ write l p.2, IsPlain d) : ∀ d ∈ writeMember l p, IsPlain d := by
  intro d hd
  rw [writeMember, List.mem_append, List.mem_append] at hd
  obtain (hd | hd) | hd := hd
  · exact isPlain_renderString p.1 d hd
  · exact hl.2 d hd
  · exact hp d hd

/-- Written values are printable ASCII. -/
theorem isPlain_write {l : Layout} (hl : l.IsPlain) : ∀ j, Legible j → ∀ d ∈ write l j, IsPlain d
  | .null, _ => show ∀ d ∈ ['n', 'u', 'l', 'l'], IsPlain d from isPlain_of_all (by decide)
  | .bool true, _ => show ∀ d ∈ ['t', 'r', 'u', 'e'], IsPlain d from isPlain_of_all (by decide)
  | .bool false, _ =>
    show ∀ d ∈ ['f', 'a', 'l', 's', 'e'], IsPlain d from isPlain_of_all (by decide)
  | .int n, _ => isPlain_integerText n
  | .float x, h => absurd h (by simp [Legible])
  | .string s, _ => isPlain_renderString s
  | .array items, h => by
    refine isPlain_enclosed (by decide) (by decide) (isPlain_separated hl.1 fun part hpart => ?_)
    rw [writeItems_eq_map] at hpart
    obtain ⟨x, hx, rfl⟩ := List.mem_map.1 hpart
    exact isPlain_write hl x (legibleItems_iff.1 h x hx)
  | .object ms, h => by
    refine isPlain_enclosed (by decide) (by decide) (isPlain_separated hl.1 fun part hpart => ?_)
    rw [ordered_writeMembers] at hpart
    obtain ⟨p, hp, rfl⟩ := List.mem_map.1 hpart
    have hmem := (l.order_perm ms).mem_iff.1 hp
    exact isPlain_writeMember hl (isPlain_write hl p.2 (legibleMembers_iff.1 h.2 p hmem))
termination_by j => sizeOf j
decreasing_by
  · have := List.sizeOf_lt_of_mem hx
    simp only [Json.array.sizeOf_spec]
    omega
  · have h1 := List.sizeOf_lt_of_mem hmem
    have h2 : sizeOf p = 1 + sizeOf p.1 + sizeOf p.2 := by cases p; rfl
    simp only [Json.object.sizeOf_spec]
    omega

theorem Layout.isPlain_plain : Layout.plain.IsPlain :=
  ⟨isPlain_of_all (by decide), isPlain_of_all (by decide)⟩

theorem Layout.isPlain_canonical : Layout.canonical.IsPlain :=
  ⟨isPlain_of_all (by decide), isPlain_of_all (by decide)⟩

end Json

/-! ### Octets -/

theorem Encoding.byZeros_of_ne_zero {bs : List UInt8} (h : ∀ b ∈ bs, b ≠ 0) :
    byZeros bs = .utf8 := by
  unfold byZeros
  split <;> first | rfl | simp at h

/-- Octets of printable characters have no mark and stand for themselves. -/
theorem Encoding.detect_plain {bs : List UInt8} (h : ∀ b ∈ bs, 32 ≤ b.toNat ∧ b.toNat < 127) :
    detect bs = (.utf8, 0) := by
  have hzero : ∀ b ∈ bs, b ≠ 0 := by
    rintro b hb rfl
    exact absurd (h 0 hb).1 (by decide)
  unfold detect
  split
  all_goals first
    | exact absurd (h _ (List.mem_cons_self)) (by decide)
    | rw [byZeros_of_ne_zero hzero]

theorem Text.Utf8.encode_plain {s : String} (h : ∀ c ∈ s.toList, IsPlain c) :
    ∀ b ∈ Utf8.encode s, 32 ≤ b.toNat ∧ b.toNat < 127 := by
  intro b hb
  rw [Utf8.encode_of_ascii fun c hc => Nat.lt_succ_of_lt (h c hc).2] at hb
  obtain ⟨c, hc, rfl⟩ := List.mem_map.1 hb
  obtain ⟨hlow, hhigh⟩ := h c hc
  rw [Utf8.toNat_ofNat_of_lt (by omega)]
  exact ⟨hlow, hhigh⟩

/-- The octets of a printable text are read as the text is. -/
theorem Body.document_octets {s : String} (h : ∀ c ∈ s.toList, IsPlain c) :
    (Body.octets (Utf8.encode s)).document = (Body.text s).document := by
  have hmark : s.toList.head? ≠ some '\uFEFF' := by
    intro hhead
    exact absurd (h _ (List.mem_of_head? hhead)) (by decide)
  have hdecode : Encoding.decode (Utf8.encode s) = .ok s := by
    rw [Encoding.decode, Encoding.detect_plain (Utf8.encode_plain h)]
    exact Utf8.decode_encode s
  have hjson : (Body.octets (Utf8.encode s)).toJson = (Body.text s).toJson := by
    rw [Body.toJson, Body.toJson, if_neg hmark, hdecode]
  rw [Body.document, hjson, Body.document]

section Object

variable {ms : Members} (h : Json.Legible (.object ms))
include h

/-- The octets of an object in document order are a document with its members. -/
theorem Body.document_plain :
    (Body.octets (Utf8.encode ((Json.object ms).render .plain))).document = .ok ms := by
  rw [Body.document_octets, Body.document_render h]
  rw [Json.render, String.toList_ofList]
  exact Json.isPlain_write Json.Layout.isPlain_plain _ h

/-- The octets of the canonical text of an object are a document with its members, sorted. -/
theorem Body.document_canonical :
    (Body.octets (Utf8.encode (Json.object ms).canonical)).document
      = .ok (Json.Layout.canonical.order (Json.arrangedMembers .canonical ms)) := by
  have hplain : ∀ c ∈ (Json.object ms).canonical.toList, IsPlain c := by
    rw [Json.canonical, Json.render, String.toList_ofList]
    exact Json.isPlain_write Json.Layout.isPlain_canonical _ h
  rw [Body.document_octets hplain, Json.canonical,
    Body.document_text Json.Layout.isSpaced_canonical h]

end Object

end AcmeClient
