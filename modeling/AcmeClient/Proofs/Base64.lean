import AcmeClient.Nonce
import AcmeClient.Proofs.Utf8

/-!
# Base64 reads back

Written octets are groups of six bits, never one more than a multiple of four. The padding that a
reader supplies completes the last group, so reading gives the octets back:

* `octets_sextets` — the groups spell the octets;
* `gather_digits` — the reader collects the groups in front of the padding;
* `isUrlChar` and `isUrlChar_of_mem_encode` — the characters that are written;
* `decodeSized_encode` — reading a written text gives its octets, and `Nonce.decode_encode` says the
  same of the text of a nonce.
-/

namespace AcmeClient

namespace Base64

/-! ### Groups of six bits -/

theorem sextets_lt (bs : List UInt8) : ∀ n ∈ sextets bs, n < 64 := by
  fun_induction sextets bs with
  | case1 => simp
  | case2 a n =>
    have ha := a.toNat_lt
    intro m hm
    simp only [List.mem_cons, List.not_mem_nil, or_false] at hm
    omega
  | case3 a b n =>
    have ha := a.toNat_lt
    have hb := b.toNat_lt
    intro m hm
    simp only [List.mem_cons, List.not_mem_nil, or_false] at hm
    omega
  | case4 a b c rest n ih =>
    have ha := a.toNat_lt
    have hb := b.toNat_lt
    have hc := c.toNat_lt
    intro m hm
    simp only [List.mem_cons] at hm
    rcases hm with h | h | h | h | h
    · omega
    · omega
    · omega
    · omega
    · exact ih m h

/-- No text of whole octets leaves a lone group behind. -/
theorem length_sextets_mod (bs : List UInt8) : (sextets bs).length % 4 ≠ 1 := by
  fun_induction sextets bs with
  | case1 => simp
  | case2 a n => simp
  | case3 a b n => simp
  | case4 a b c rest n ih =>
    simp only [List.length_cons]
    omega

theorem octets_sextets (bs : List UInt8) : octets (sextets bs) = bs := by
  fun_induction sextets bs with
  | case1 => rfl
  | case2 a n =>
    have ha := a.toNat_lt
    have e : (n / 4 * 64 + n % 4 * 16) / 16 = a.toNat := by omega
    simp [octets, e]
  | case3 a b n =>
    have ha := a.toNat_lt
    have hb := b.toNat_lt
    have e1 : ((n / 1024 * 64 + n / 16 % 64) * 64 + n % 16 * 4) / 1024 = a.toNat := by omega
    have e2 : ((n / 1024 * 64 + n / 16 % 64) * 64 + n % 16 * 4) / 4 % 256 = b.toNat := by omega
    have h2 : UInt8.ofNat (((n / 1024 * 64 + n / 16 % 64) * 64 + n % 16 * 4) / 4) = b := by
      apply UInt8.toNat_inj.mp
      rw [UInt8.toNat_ofNat']
      exact e2
    simp [octets, e1, h2]
  | case4 a b c rest n ih =>
    have ha := a.toNat_lt
    have hb := b.toNat_lt
    have hc := c.toNat_lt
    have e : ((n / 262144 * 64 + n / 4096 % 64) * 64 + n / 64 % 64) * 64 + n % 64 = n := by omega
    have h1 : UInt8.ofNat (n / 65536) = a := by
      apply UInt8.toNat_inj.mp
      rw [UInt8.toNat_ofNat']
      omega
    have h2 : UInt8.ofNat (n / 256) = b := by
      apply UInt8.toNat_inj.mp
      rw [UInt8.toNat_ofNat']
      omega
    have h3 : UInt8.ofNat n = c := by
      apply UInt8.toNat_inj.mp
      rw [UInt8.toNat_ofNat']
      omega
    simp [octets, e, h1, h2, h3, ih]

/-! ### Characters -/

def isUrlChar (c : Char) : Bool :=
  c.isAlphanum || c = '-' || c = '_'

theorem toNat_lt_of_isUrlChar {c : Char} (h : isUrlChar c = true) : c.toNat < 128 := by
  delta isUrlChar Char.isAlphanum Char.isAlpha Char.isUpper Char.isLower Char.isDigit at h
  simp only [Bool.or_eq_true, Bool.and_eq_true, decide_eq_true_eq, UInt32.le_iff_toNat_le,
    ge_iff_le] at h
  have hval : c.toNat = c.val.toNat := rfl
  have hlast : 'Z'.val.toNat = 90 ∧ 'z'.val.toNat = 122 ∧ '9'.val.toNat = 57 := by decide
  rcases h with (((h | h) | h) | rfl) | rfl
  · omega
  · omega
  · omega
  · decide
  · decide

theorem isUrlChar_urlDigit {n : Nat} (h : n < 64) : isUrlChar (urlDigit n) = true := by
  have all : ∀ k ∈ List.range 64, isUrlChar (urlDigit k) = true := by decide
  exact all n (List.mem_range.2 h)

theorem urlDigit_ne_pad {n : Nat} (h : n < 64) : urlDigit n ≠ '=' := by
  intro he
  have hv := value_urlDigit n h
  have hpad : value '=' = none := by decide
  rw [he, hpad] at hv
  cases hv

/-- The groups in front are collected, and reading goes on behind them. -/
theorem gather_digits (ns : List Nat) (h : ∀ n ∈ ns, n < 64) (count : Nat) (rest : List Char) :
    gather count 0 (ns.map urlDigit ++ rest)
      = (ns ++ (gather (count + ns.length) 0 rest).1,
          (gather (count + ns.length) 0 rest).2) := by
  induction ns generalizing count with
  | nil => simp
  | cons n ns ih =>
    have hn : n < 64 := h n (by simp)
    have ih' := ih (fun m hm => h m (by simp [hm])) (count + 1)
    simp only [List.map_cons, List.cons_append, gather, if_neg (urlDigit_ne_pad hn),
      value_urlDigit n hn, ih', List.length_cons]
    rw [show count + 1 + ns.length = count + (ns.length + 1) by omega]

/-- Padding behind whole groups adds none, and it is complete where a group was left open. -/
theorem gather_padding (count : Nat) (h : count % 4 ≠ 1) :
    gather count 0 (List.replicate (4 - count % 4) '=') = ([], decide (count % 4 ≠ 0)) := by
  have h4 : count % 4 < 4 := Nat.mod_lt _ (by decide)
  rcases (by omega : count % 4 = 0 ∨ count % 4 = 2 ∨ count % 4 = 3) with h0 | h2 | h3
  · simp [h0, gather, List.replicate]
  · simp [h2, gather, List.replicate]
  · simp [h3, gather]

theorem toList_encode (bs : List UInt8) : (encode bs).toList = (sextets bs).map urlDigit := by
  simp [encode]

/-- Octets are written in the `url` alphabet. -/
theorem isUrlChar_of_mem_encode {bs : List UInt8} {c : Char} (h : c ∈ (encode bs).toList) :
    isUrlChar c = true := by
  rw [toList_encode, List.mem_map] at h
  obtain ⟨n, hn, rfl⟩ := h
  exact isUrlChar_urlDigit (sextets_lt bs n hn)

theorem length_toList_encode (bs : List UInt8) :
    (encode bs).toList.length = (sextets bs).length := by
  rw [toList_encode, List.length_map]

/-- Reading a written text gives its octets. -/
theorem decodeSized_encode (bs : List UInt8) :
    decodeSized (encode bs).toList.length (encode bs).toList = .ok bs := by
  have hmod := length_sextets_mod bs
  have hg : gather 0 0 ((sextets bs).map urlDigit
        ++ List.replicate (4 - (sextets bs).length % 4) '=')
      = (sextets bs, decide ((sextets bs).length % 4 ≠ 0)) := by
    rw [gather_digits _ (sextets_lt bs), Nat.zero_add, gather_padding _ hmod, List.append_nil]
  rw [length_toList_encode, toList_encode, decodeSized, decodeChars, hg]
  by_cases h0 : (sextets bs).length % 4 = 0
  · simp [h0, octets_sextets]
  · simp [h0, octets_sextets]

end Base64

theorem Base64.length_utf8_encode (bs : List UInt8) :
    (Text.Utf8.encode (encode bs)).length = (encode bs).toList.length :=
  Text.Utf8.length_encode_of_ascii fun _ hc => toNat_lt_of_isUrlChar (isUrlChar_of_mem_encode hc)

/-- The text of a nonce is read back. -/
theorem Nonce.decode_encode (bs : List UInt8) : Nonce.decode (Base64.encode bs) = .ok bs := by
  rw [Nonce.decode, Base64.length_utf8_encode, Base64.decodeSized_encode]
  rfl

end AcmeClient
