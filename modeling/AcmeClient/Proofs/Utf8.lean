import AcmeClient.Text.Utf8

/-!
# UTF-8 reads back

* `decodeFrom_encodeChar` — the octets of a character are read as the character, one case for each
  length;
* `decode_encode` — the octets of a text are read as the text;
* `encode_of_ascii` — the octets of ASCII characters are their codes.
-/

namespace AcmeClient.Text.Utf8

theorem toNat_ofNat_of_lt {n : Nat} (h : n < 256) : (UInt8.ofNat n).toNat = n := by
  rw [UInt8.toNat_ofNat']
  omega

theorem toNat_continuation (n : Nat) : (continuation n).toNat = 0x80 + n % 64 :=
  toNat_ofNat_of_lt (by omega)

theorem continued?_continuation (n : Nat) : continued? (continuation n) = some (n % 64) := by
  have h : 0x80 ≤ (continuation n).toNat ∧ (continuation n).toNat ≤ 0xbf := by
    rw [toNat_continuation]
    omega
  have hv : 0x80 + n % 64 - 0x80 = n % 64 := by omega
  rw [continued?, if_pos h, toNat_continuation, hv]

/-! ### The four lengths -/

theorem decodeFrom_one (pos : Nat) {n : Nat} (h : n < 0x80) (rest : List UInt8) :
    decodeFrom pos (UInt8.ofNat n :: rest)
      = (decodeFrom (pos + 1) rest).map (Char.ofNat n :: ·) := by
  have hn : (UInt8.ofNat n).toNat = n := toNat_ofNat_of_lt (by omega)
  rw [decodeFrom.eq_def]
  simp only [hn, if_pos h]

theorem decodeFrom_two (pos : Nat) {n : Nat} (h1 : 0x80 ≤ n) (h2 : n < 0x800)
    (rest : List UInt8) :
    decodeFrom pos (UInt8.ofNat (0xc0 + n / 64) :: continuation n :: rest)
      = (decodeFrom (pos + 2) rest).map (Char.ofNat n :: ·) := by
  have hb : (UInt8.ofNat (0xc0 + n / 64)).toNat = 0xc0 + n / 64 := toNat_ofNat_of_lt (by omega)
  have hlead : lead? (UInt8.ofNat (0xc0 + n / 64)) = some ⟨1, 0x80, 0xbf, n / 64⟩ := by
    have hv : 0xc0 + n / 64 - 0xc0 = n / 64 := by omega
    simp only [lead?, hb, hv]
    rw [if_neg (by omega), if_pos (by omega)]
  have hnot : ¬(0xc0 + n / 64 < 0x80) := by omega
  have hrange : ¬((0x80 + n % 64) < 0x80 ∨ 0xbf < 0x80 + n % 64) := by omega
  have hval : n / 64 * 64 + (0x80 + n % 64 - 0x80) = n := by omega
  rw [decodeFrom.eq_def]
  simp only [hb, if_neg hnot, hlead, toNat_continuation, if_neg hrange, if_true, hval]

theorem decodeFrom_three (pos : Nat) {n : Nat} (h1 : 0x800 ≤ n) (h2 : n < 0x10000)
    (hs : ¬(0xd800 ≤ n ∧ n < 0xe000)) (rest : List UInt8) :
    decodeFrom pos (UInt8.ofNat (0xe0 + n / 4096) :: continuation (n / 64) :: continuation n :: rest)
      = (decodeFrom (pos + 3) rest).map (Char.ofNat n :: ·) := by
  have hb : (UInt8.ofNat (0xe0 + n / 4096)).toNat = 0xe0 + n / 4096 := toNat_ofNat_of_lt (by omega)
  -- the second octet keeps out overlong forms and surrogates
  obtain ⟨lead, hlead, hf, hbits, hrange⟩ : ∃ lead : Lead,
      lead? (UInt8.ofNat (0xe0 + n / 4096)) = some lead ∧ lead.following = 2 ∧
      lead.bits = n / 4096 ∧
      ¬(0x80 + n / 64 % 64 < lead.least ∨ lead.greatest < 0x80 + n / 64 % 64) := by
    simp only [lead?, hb]
    rw [if_neg (by omega), if_neg (by omega)]
    by_cases h0 : n / 4096 = 0
    · rw [if_pos (by omega)]
      exact ⟨_, rfl, rfl, h0.symm, by simp only; omega⟩
    by_cases hd : n / 4096 = 0xd
    · rw [if_neg (by omega), if_pos (by omega)]
      exact ⟨_, rfl, rfl, hd.symm, by simp only; omega⟩
    · rw [if_neg (by omega), if_neg (by omega), if_pos (by omega)]
      exact ⟨_, rfl, rfl, by simp only; omega, by simp only; omega⟩
  have hnot : ¬(0xe0 + n / 4096 < 0x80) := by omega
  have hval : (n / 4096 * 64 + (0x80 + n / 64 % 64 - 0x80)) * 64 + n % 64 = n := by omega
  rw [decodeFrom.eq_def]
  simp only [hb, if_neg hnot, hlead, toNat_continuation, if_neg hrange, hf, hbits,
    continued?_continuation, hval, show ¬(2 = 1) by omega, if_false, if_true]

theorem decodeFrom_four (pos : Nat) {n : Nat} (h1 : 0x10000 ≤ n) (h2 : n < 0x110000)
    (rest : List UInt8) :
    decodeFrom pos (UInt8.ofNat (0xf0 + n / 262144) :: continuation (n / 4096)
        :: continuation (n / 64) :: continuation n :: rest)
      = (decodeFrom (pos + 4) rest).map (Char.ofNat n :: ·) := by
  have hb : (UInt8.ofNat (0xf0 + n / 262144)).toNat = 0xf0 + n / 262144 :=
    toNat_ofNat_of_lt (by omega)
  -- the second octet keeps out overlong forms and numbers above the last character
  obtain ⟨lead, hlead, hf, hbits, hrange⟩ : ∃ lead : Lead,
      lead? (UInt8.ofNat (0xf0 + n / 262144)) = some lead ∧ lead.following = 3 ∧
      lead.bits = n / 262144 ∧
      ¬(0x80 + n / 4096 % 64 < lead.least ∨ lead.greatest < 0x80 + n / 4096 % 64) := by
    simp only [lead?, hb]
    rw [if_neg (by omega), if_neg (by omega), if_neg (by omega), if_neg (by omega),
      if_neg (by omega)]
    by_cases h0 : n / 262144 = 0
    · rw [if_pos (by omega)]
      exact ⟨_, rfl, rfl, h0.symm, by simp only; omega⟩
    by_cases h4 : n / 262144 = 4
    · rw [if_neg (by omega), if_neg (by omega), if_pos (by omega)]
      exact ⟨_, rfl, rfl, h4.symm, by simp only; omega⟩
    · rw [if_neg (by omega), if_pos (by omega)]
      exact ⟨_, rfl, rfl, by simp only; omega, by simp only; omega⟩
  have hnot : ¬(0xf0 + n / 262144 < 0x80) := by omega
  have hval : ((n / 262144 * 64 + (0x80 + n / 4096 % 64 - 0x80)) * 64 + n / 64 % 64) * 64 + n % 64
      = n := by omega
  rw [decodeFrom.eq_def]
  simp only [hb, if_neg hnot, hlead, toNat_continuation, if_neg hrange, hf, hbits,
    continued?_continuation, hval, show ¬(3 = 1) by omega, show ¬(3 = 2) by omega, if_false]

/-- The octets of a character are read as the character. -/
theorem decodeFrom_encodeChar (pos : Nat) (c : Char) (rest : List UInt8) :
    decodeFrom pos (encodeChar c ++ rest)
      = (decodeFrom (pos + (encodeChar c).length) rest).map (c :: ·) := by
  have hv : c.toNat < 0xd800 ∨ (0xdfff < c.toNat ∧ c.toNat < 0x110000) := c.valid
  have hc : Char.ofNat c.toNat = c := Char.ofNat_toNat c
  by_cases h1 : c.toNat < 0x80
  · have := decodeFrom_one pos h1 rest
    simpa [encodeChar, h1, hc] using this
  by_cases h2 : c.toNat < 0x800
  · have := decodeFrom_two pos (by omega) h2 rest
    simpa [encodeChar, h1, h2, hc] using this
  by_cases h3 : c.toNat < 0x10000
  · have := decodeFrom_three pos (by omega) h3 (by omega) rest
    simpa [encodeChar, h1, h2, h3, hc] using this
  · have := decodeFrom_four pos (n := c.toNat) (by omega) (by omega) rest
    simpa [encodeChar, h1, h2, h3, hc] using this

theorem decodeFrom_flatMap (pos : Nat) (cs : List Char) :
    decodeFrom pos (cs.flatMap encodeChar) = .ok cs := by
  induction cs generalizing pos with
  | nil => rfl
  | cons c cs ih =>
    rw [List.flatMap_cons, decodeFrom_encodeChar, ih]
    rfl

/-- The octets of a text are read as the text. -/
theorem decode_encode (s : String) : decode (encode s) = .ok s := by
  rw [decode, encode, decodeFrom_flatMap]
  show Except.ok (String.ofList s.toList) = _
  rw [String.ofList_toList]

/-! ### ASCII -/

/-- The octets of ASCII characters are their codes. -/
theorem encode_of_ascii {s : String} (h : ∀ c ∈ s.toList, c.toNat < 128) :
    encode s = s.toList.map fun c => UInt8.ofNat c.toNat := by
  rw [encode]
  generalize s.toList = cs at h
  induction cs with
  | nil => rfl
  | cons c cs ih =>
    obtain ⟨hc, hcs⟩ := List.forall_mem_cons.1 h
    have hone : encodeChar c = [UInt8.ofNat c.toNat] := if_pos hc
    rw [List.flatMap_cons, ih hcs, hone, List.singleton_append, List.map_cons]

/-- A text of ASCII characters has as many octets as characters. -/
theorem length_encode_of_ascii {s : String} (h : ∀ c ∈ s.toList, c.toNat < 128) :
    (encode s).length = s.toList.length := by
  rw [encode_of_ascii h, List.length_map]

end AcmeClient.Text.Utf8
