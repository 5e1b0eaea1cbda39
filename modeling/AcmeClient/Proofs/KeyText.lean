import AcmeClient.Proofs.Results
import AcmeClient.Proofs.SignedText
import Mathlib.Algebra.Group.Nat.Defs

/-!
# Keys read back

A key is written as a JSON object with its numbers in base64. Numbers take as many octets as they
need, coordinates as many as their curve has:

* `Digest.numberOf_octetsOf` — the octets of a number spell it, as far as they reach;
* `Key.IsProper` — a key whose numbers are in range and whose point lies on a curve with a name in
  JSON;
* `Key.isProper_of_ofJson` — every key that is read is proper;
* `Key.ofJson_publicKey` — the public part of a proper key is read back.
-/

namespace AcmeClient

open Digest Signature

/-! ### Numbers as octets -/

namespace Digest

theorem length_octetsOf (count n : Nat) : (octetsOf count n).length = count := by
  induction count generalizing n with
  | zero => rfl
  | succ count ih => rw [octetsOf, List.length_append, ih, List.length_singleton]

theorem numberOf_concat (bs : List UInt8) (b : UInt8) :
    numberOf (bs ++ [b]) = 256 * numberOf bs + b.toNat := by
  rw [numberOf, List.foldl_append]
  rfl

/-- The octets of a number spell what is left of it below their reach. -/
theorem numberOf_octetsOf (count n : Nat) : numberOf (octetsOf count n) = n % 256 ^ count := by
  induction count generalizing n with
  | zero => rw [Nat.pow_zero, Nat.mod_one]; rfl
  | succ count ih =>
    have hlast : (UInt8.ofNat (n % 256)).toNat = n % 256 :=
      Text.Utf8.toNat_ofNat_of_lt (Nat.mod_lt n (by decide))
    rw [octetsOf, numberOf_concat, ih, hlast, Nat.pow_succ', Nat.mod_mul]
    exact Nat.add_comm _ _

theorem numberOf_octetsOf_of_lt {count n : Nat} (h : n < 256 ^ count) :
    numberOf (octetsOf count n) = n := by
  rw [numberOf_octetsOf, Nat.mod_eq_of_lt h]

end Digest

theorem Number.lt_two_pow_bitLength (n : Nat) : n < 2 ^ bitLength n := by
  unfold bitLength
  split
  · next h => simp [h]
  · exact Nat.lt_log2_self

namespace Key

/-- A number takes enough octets. -/
theorem numberOf_numberOctets (n : Nat) : numberOf (numberOctets n) = n := by
  apply numberOf_octetsOf_of_lt
  calc n < 2 ^ Number.bitLength n := Number.lt_two_pow_bitLength n
    _ ≤ 2 ^ (8 * max 1 ((Number.bitLength n + 7) / 8)) := by
        apply Nat.pow_le_pow_right (by decide)
        omega
    _ = 256 ^ max 1 ((Number.bitLength n + 7) / 8) := Nat.pow_mul 2 8 _

theorem numberOctets_ne_nil (n : Nat) : numberOctets n ≠ [] := by
  intro h
  have hlen := length_octetsOf (max 1 ((Number.bitLength n + 7) / 8)) n
  rw [← numberOctets, h, List.length_nil] at hlen
  omega

/-! ### Members in base64 -/

theorem octetsOfJson_encode (bs : List UInt8) :
    octetsOfJson (.string (Base64.encode bs)) = .ok bs := by
  simp only [octetsOfJson, Base64.length_utf8_encode, Base64.decodeSized_encode]
  rfl

theorem numberOfJson_numberText (n : Nat) : numberOfJson (numberText n) = .ok n := by
  rw [numberOfJson, numberText, octetsOfJson_encode, ok_bind, if_neg (numberOctets_ne_nil n)]
  exact congrArg Except.ok (numberOf_numberOctets n)

section Members

variable {ms : Members} {name : String}

theorem under_of_get? {j : Json} (h : Members.get? ms name = some j) :
    (Json.object ms).under name = .ok j := by
  simp only [Json.under, h]

theorem numberIn_of_get? {n : Nat} (h : Members.get? ms name = some (numberText n)) :
    numberIn (.object ms) name = .ok n := by
  rw [numberIn, under_of_get? h, ok_mapError, ok_bind]
  exact numberOfJson_numberText n

/-- A coordinate below the modulus is read back. -/
theorem coordinateIn_of_get? {c : Curve} {n : Nat} (hn : n < 256 ^ c.size)
    (h : Members.get? ms name = some (coordinateText c n)) :
    coordinateIn c (.object ms) name = .ok n := by
  have hread : octetsOfJson (coordinateText c n) = .ok (octetsOf c.size n) :=
    octetsOfJson_encode _
  rw [coordinateIn, under_of_get? h, ok_mapError, ok_bind, hread, ok_bind,
    if_neg (not_not_intro (length_octetsOf c.size n)), numberOf_octetsOf_of_lt hn]
  rfl

end Members

/-! ### Proper keys -/

/-- Whether a key is one that its kind allows: an odd public exponent of three or more below the
modulus, or a point on one of the curves with a name in JSON. -/
def IsProper : Key → Prop
  | .rsa p _ => 3 ≤ p.exponent ∧ p.exponent % 2 = 1 ∧ p.exponent < p.modulus
  | .curve c x y _ => c ∈ curveNames.map Prod.snd ∧ c.holds x y = true
  | .secret _ => True

instance : (k : Key) → Decidable k.IsProper
  | .rsa p _ => inferInstanceAs
      (Decidable (3 ≤ p.exponent ∧ p.exponent % 2 = 1 ∧ p.exponent < p.modulus))
  | .curve c x y _ => inferInstanceAs
      (Decidable (c ∈ curveNames.map Prod.snd ∧ c.holds x y = true))
  | .secret _ => inferInstanceAs (Decidable True)

/-- What a curve with a name in JSON is found by, and how large its coordinates are. -/
theorem lookup_curveName {c : Curve} (h : c ∈ curveNames.map Prod.snd) :
    curveNames.lookup (curveName c) = some c ∧ c.isBinary = false ∧ c.modulus ≤ 256 ^ c.size := by
  have hall : ∀ c ∈ curveNames.map Prod.snd,
      curveNames.lookup (curveName c) = some c ∧ c.isBinary = false ∧
        c.modulus ≤ 256 ^ c.size := by
    decide
  exact hall c h

theorem lt_modulus_of_holds {c : Curve} {x y : Nat} (hc : c.isBinary = false)
    (h : c.holds x y = true) : x < c.modulus ∧ y < c.modulus := by
  have hin : ∀ n, c.isCoordinate n = true → n < c.modulus := by
    intro n hn
    simpa [Curve.isCoordinate, hc] using hn
  rw [Curve.holds, Bool.and_eq_true, Bool.and_eq_true] at h
  exact ⟨hin x h.1.1, hin y h.1.2⟩

theorem rsaOfJson_public {p : RsaPublic} (h : (Key.rsa p none).IsProper) :
    rsaOfJson (Key.rsa p none).members = .ok (.rsa p none) := by
  obtain ⟨hlow, hodd, hhigh⟩ := h
  have hn : numberIn (.object (Key.rsa p none).members) "n" = .ok p.modulus := numberIn_of_get? rfl
  have he : numberIn (.object (Key.rsa p none).members) "e" = .ok p.exponent := numberIn_of_get? rfl
  have hd : Members.has (Key.rsa p none).members "d" = false := rfl
  have hrange :
      ¬(p.modulus < 3 ∨ p.exponent < 3 ∨ p.exponent % 2 = 0 ∨ p.modulus ≤ p.exponent) := by
    omega
  simp [rsaOfJson, hn, he, hd, hrange]

theorem curveOfJson_public {c : Curve} {x y : Nat} (h : (Key.curve c x y none).IsProper) :
    curveOfJson (Key.curve c x y none).members = .ok (.curve c x y none) := by
  obtain ⟨hc, hpoint⟩ := h
  obtain ⟨hname, hbinary, hsize⟩ := lookup_curveName hc
  obtain ⟨hx, hy⟩ := lt_modulus_of_holds hbinary hpoint
  have hcrv : (Json.object (Key.curve c x y none).members).under "crv"
      = .ok (.string (curveName c)) := under_of_get? rfl
  have hreadX : coordinateIn c (.object (Key.curve c x y none).members) "x" = .ok x :=
    coordinateIn_of_get? (by omega) rfl
  have hreadY : coordinateIn c (.object (Key.curve c x y none).members) "y" = .ok y :=
    coordinateIn_of_get? (by omega) rfl
  have hd : Members.has (Key.curve c x y none).members "d" = false := rfl
  simp [curveOfJson, hcrv, Json.string?, hname, hreadX, hreadY, hd, Nat.mod_eq_of_lt hx,
    Nat.mod_eq_of_lt hy, hpoint]

/-- The public part of a proper key is read back. -/
theorem ofJson_publicKey {k : Key} (h : k.IsProper) :
    ofJson (.object k.publicKey.members) = .ok k.publicKey := by
  cases k with
  | rsa p s => exact rsaOfJson_public h
  | curve c x y n => exact curveOfJson_public h
  | secret octets =>
    have hk : (Json.object (Key.secret octets).members).under "k"
        = .ok (.string (Base64.encode octets)) := under_of_get? rfl
    have hkind : ofJson (.object (Key.secret octets).members)
        = (do return .secret (← octetsOfJson
            (← ((Json.object (Key.secret octets).members).under "k").mapError .container))) := rfl
    rw [publicKey, hkind, hk, ok_mapError, ok_bind, octetsOfJson_encode]
    rfl

/-! ### Keys that are read -/

/-- A key that two tests let through. -/
theorem eq_of_tested {bad : Prop} [Decidable bad] {good : Bool} {e e' : Fault} {k k' : Key}
    (h : (if bad then .error e else if good = true then .ok k else .error e' : Except Fault Key)
      = .ok k') : ¬bad ∧ k = k' := by
  by_cases hbad : bad
  · rw [if_pos hbad] at h
    cases h
  · rw [if_neg hbad] at h
    cases good with
    | false => cases h
    | true => exact ⟨hbad, Except.ok.inj h⟩

theorem isProper_of_rsaOfJson {ms : Members} {k : Key} (h : rsaOfJson ms = .ok k) :
    k.IsProper := by
  obtain ⟨n, -, h⟩ := bind_eq_ok.1 h
  obtain ⟨e, -, h⟩ := bind_eq_ok.1 h
  have hend : ∃ priv, ¬(n < 3 ∨ e < 3 ∨ e % 2 = 0 ∨ n ≤ e) ∧ Key.rsa ⟨n, e⟩ priv = k := by
    dsimp only at h
    by_cases hd : Members.has ms "d" = true
    · rw [if_pos hd] at h
      obtain ⟨d, -, h⟩ := bind_eq_ok.1 h
      obtain ⟨priv, -, h⟩ := bind_eq_ok.1 h
      exact ⟨priv, eq_of_tested h⟩
    · rw [if_neg hd] at h
      exact ⟨none, eq_of_tested h⟩
  obtain ⟨priv, hrange, rfl⟩ := hend
  show 3 ≤ e ∧ e % 2 = 1 ∧ e < n
  omega

theorem isProper_of_curveOfJson {ms : Members} {k : Key} (h : curveOfJson ms = .ok k) :
    k.IsProper := by
  obtain ⟨name, -, h⟩ := bind_eq_ok.1 h
  split at h
  · cases h
  · next c hc =>
    have hmem : c ∈ curveNames.map Prod.snd := by
      obtain ⟨s, -, hs⟩ := Option.bind_eq_some_iff.1 hc
      obtain ⟨before, rest, hnames, -⟩ := List.lookup_eq_some_iff.1 hs
      rw [hnames]
      simp
    obtain ⟨x, -, h⟩ := bind_eq_ok.1 h
    obtain ⟨y, -, h⟩ := bind_eq_ok.1 h
    have hend : ∃ x y number, ¬(!c.holds x y) = true ∧ Key.curve c x y number = k := by
      dsimp only at h
      by_cases hd : Members.has ms "d" = true
      · rw [if_pos hd] at h
        obtain ⟨number, -, h⟩ := bind_eq_ok.1 h
        exact ⟨x % c.modulus, y % c.modulus, number, eq_of_tested h⟩
      · rw [if_neg hd] at h
        exact ⟨x % c.modulus, y % c.modulus, none, eq_of_tested h⟩
    obtain ⟨x, y, number, hpoint, rfl⟩ := hend
    exact ⟨hmem, by simpa using hpoint⟩

/-- Every key that is read is proper. -/
theorem isProper_of_ofJson {j : Json} {k : Key} (h : ofJson j = .ok k) : k.IsProper := by
  unfold ofJson at h
  split at h
  · split at h
    · cases h
    · split at h
      · cases h
      · split at h
        · exact isProper_of_rsaOfJson h
        · split at h
          · exact isProper_of_curveOfJson h
          · split at h
            · obtain ⟨v, -, h⟩ := bind_eq_ok.1 h
              obtain ⟨octets, -, h⟩ := bind_eq_ok.1 h
              cases h
              trivial
            · cases h
  · cases h

end Key

end AcmeClient
