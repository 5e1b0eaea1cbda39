import AcmeClient.Proofs.AccountBinding
import AcmeClient.Proofs.CanonicalText
import AcmeClient.Proofs.KeyText
import AcmeClient.Resource.Challenge

/-!
# What a key authorization binds

A key authorization is the token, a point, and the digest of the public part of the key in base64.
The digest always takes the same number of characters, so a point in the token does no harm:

* `Key.length_toList_thumbprint`, `Base64.encode_injective` — what stands behind the point;
* `Key.required` — the members of a key that its thumbprint is made of;
* `Key.digest_of_perm` — the thumbprint hangs neither on private members nor on the order of
  members;
* `Key.publicKey_of_thumbprintText` — different public keys are digested as different texts;
* `key_authorizations_bind` — what it takes that two key authorizations are equal.
-/

namespace AcmeClient

open Digest Text

/-! ### Digests in base64 -/

theorem Digest.length_sha256 (message : List UInt8) : (sha256 message).length = 32 := by
  simp [sha256, State.toList, length_octetsOf]

theorem Base64.encode_injective {bs bs' : List UInt8} (h : encode bs = encode bs') : bs = bs' := by
  have hread := decodeSized_encode bs
  rw [h, decodeSized_encode] at hread
  exact (Except.ok.inj hread).symm

/-- Three octets take four characters, and what is left one more than it has octets. -/
theorem Base64.length_sextets (bs : List UInt8) :
    (sextets bs).length = (4 * bs.length + 2) / 3 := by
  fun_induction sextets bs with
  | case1 => rfl
  | case2 a n => simp
  | case3 a b n => simp
  | case4 a b c rest n ih =>
    simp only [List.length_cons, ih]
    omega

/-! ### Thumbprints -/

namespace Key

/-- The names of the members of a key that its thumbprint is made of. -/
def requiredNames : Key → List String
  | .rsa .. => ["e", "kty", "n"]
  | .curve .. => ["crv", "kty", "x", "y"]
  | .secret _ => ["k", "kty"]

/-- The members of a key that its thumbprint is made of. -/
def required (k : Key) : Members :=
  k.members.filter fun p => k.requiredNames.contains p.1

def thumbprintText (k : Key) : String :=
  (Json.object k.publicKey.members).render .dense

/-- The members that are required are those of the public part. -/
theorem required_eq (k : Key) : k.required = k.publicKey.members := by
  cases k with
  | rsa p s => cases s <;> rfl
  | curve c x y n => cases n <;> rfl
  | secret octets => rfl

theorem nodup_publicKey (k : Key) : (Members.names k.publicKey.members).Nodup :=
  (Signed.legible_members k.publicKey).1

/-- The text does not hang on the order of the members. -/
theorem render_of_perm {k : Key} {ms : Members} (h : ms.Perm k.required) :
    (Json.object ms).render .dense = k.thumbprintText := by
  rw [required_eq] at h
  have hwritten : (Json.writeMembers .dense ms).Perm
      (Json.writeMembers .dense k.publicKey.members) := by
    rw [Json.writeMembers_eq_map, Json.writeMembers_eq_map]
    exact h.map _
  have hnames : ((Json.writeMembers .dense ms).map Prod.fst).Nodup := by
    rw [Json.writeMembers_eq_map, List.map_map]
    exact (h.map Prod.fst).nodup_iff.2 k.nodup_publicKey
  have hsorted := Json.mergeSort_eq_of_perm hwritten hnames
  rw [thumbprintText, Json.render, Json.render, Json.write, Json.write]
  simp only [Json.Layout.dense, if_true] at hsorted ⊢
  rw [hsorted]

/-- The thumbprint is the digest of the members that are required, in any order. -/
theorem digest_of_perm {k : Key} {ms : Members} (h : ms.Perm k.required) :
    sha256 (Utf8.encode ((Json.object ms).render .dense)) = k.thumbprint := by
  rw [render_of_perm h]
  rfl

theorem length_toList_thumbprint (k : Key) : (Base64.encode k.thumbprint).toList.length = 43 := by
  rw [Base64.length_toList_encode, Base64.length_sextets, thumbprint, length_sha256]

theorem thumbprint_publicKey (k : Key) : k.publicKey.thumbprint = k.thumbprint := by
  rw [thumbprint, publicKey_publicKey]
  rfl

/-! ### Texts and public keys -/

theorem isSpaced_dense : Json.Layout.dense.IsSpaced :=
  ⟨⟨[], rfl, nofun⟩, ⟨[], rfl, nofun⟩⟩

/-- The texts of two keys are equal only if their public parts have the same members. -/
theorem members_perm_of_thumbprintText {k₁ k₂ : Key} (h : k₁.thumbprintText = k₂.thumbprintText) :
    k₁.publicKey.members.Perm k₂.publicKey.members := by
  have hplain (k : Key) :
      Json.arrangedMembers .dense k.publicKey.members = k.publicKey.members := by
    cases k <;> rfl
  have hread := Json.parse_render isSpaced_dense (Signed.legible_members k₁.publicKey)
  rw [show (Json.object k₁.publicKey.members).render .dense = _ from h, thumbprintText,
    Json.parse_render isSpaced_dense (Signed.legible_members k₂.publicKey)] at hread
  simp only [Json.arranged, hplain, Except.ok.injEq, Json.object.injEq] at hread
  exact ((Json.Layout.order_perm .dense _).symm.trans (.of_eq hread.symm)).trans
    (Json.Layout.order_perm .dense _)

theorem numberText_injective {m n : Nat} (h : numberText m = numberText n) : m = n := by
  have hread := numberOfJson_numberText m
  rw [h, numberOfJson_numberText] at hread
  exact (Except.ok.inj hread).symm

theorem coordinateText_injective {c : Signature.Curve} {m n : Nat} (hm : m < 256 ^ c.size)
    (hn : n < 256 ^ c.size) (h : coordinateText c m = coordinateText c n) : m = n := by
  have hoctets := Base64.encode_injective (Json.string.inj h)
  rw [← numberOf_octetsOf_of_lt hm, hoctets, numberOf_octetsOf_of_lt hn]

/-- Proper keys with the same text have the same public part. -/
theorem publicKey_of_thumbprintText {k₁ k₂ : Key} (h₁ : k₁.IsProper) (h₂ : k₂.IsProper)
    (h : k₁.thumbprintText = k₂.thumbprintText) : k₁.publicKey = k₂.publicKey := by
  have hget : ∀ name, Members.get? k₁.publicKey.members name
      = Members.get? k₂.publicKey.members name :=
    fun _ => Members.get?_eq_of_perm (members_perm_of_thumbprintText h) k₁.nodup_publicKey
  have hkind := hget "kty"
  cases k₁ <;> cases k₂
  case rsa.rsa p₁ s₁ p₂ s₂ =>
    have hn : p₁.modulus = p₂.modulus := numberText_injective (Option.some.inj (hget "n"))
    have he : p₁.exponent = p₂.exponent := numberText_injective (Option.some.inj (hget "e"))
    cases p₁
    cases p₂
    simp only at hn he
    rw [publicKey, publicKey, hn, he]
  case curve.curve c₁ x₁ y₁ d₁ c₂ x₂ y₂ d₂ =>
    obtain ⟨hc₁, hpoint₁⟩ := h₁
    obtain ⟨hc₂, hpoint₂⟩ := h₂
    obtain ⟨hname₁, hbinary, hsize⟩ := lookup_curveName hc₁
    have hname : curveName c₁ = curveName c₂ := Json.string.inj (Option.some.inj (hget "crv"))
    obtain rfl : c₁ = c₂ := by
      rw [hname, (lookup_curveName hc₂).1] at hname₁
      exact (Option.some.inj hname₁).symm
    obtain ⟨hx₁, hy₁⟩ := lt_modulus_of_holds hbinary hpoint₁
    obtain ⟨hx₂, hy₂⟩ := lt_modulus_of_holds hbinary hpoint₂
    have hx : x₁ = x₂ := coordinateText_injective (by omega) (by omega)
      (Option.some.inj (hget "x"))
    have hy : y₁ = y₂ := coordinateText_injective (by omega) (by omega)
      (Option.some.inj (hget "y"))
    rw [publicKey, publicKey, hx, hy]
  case secret.secret bs₁ bs₂ =>
    have hk : Base64.encode bs₁ = Base64.encode bs₂ :=
      Json.string.inj (Option.some.inj (hget "k"))
    rw [publicKey, publicKey, Base64.encode_injective hk]
  all_goals exact absurd (Json.string.inj (Option.some.inj hkind)) (by decide)

end Key

/-! ### Key authorizations -/

/-- Key authorizations are equal exactly for the same token and the same thumbprint. -/
theorem keyAuthorization_eq_iff {t₁ t₂ : String} {k₁ k₂ : Key} :
    keyAuthorization t₁ k₁ = keyAuthorization t₂ k₂ ↔ t₁ = t₂ ∧ k₁.thumbprint = k₂.thumbprint := by
  constructor
  · intro h
    have hchars := congrArg String.toList h
    simp only [keyAuthorization, String.toList_append, List.append_assoc] at hchars
    have hlength : (".".toList ++ (Base64.encode k₁.thumbprint).toList).length
        = (".".toList ++ (Base64.encode k₂.thumbprint).toList).length := by
      rw [List.length_append, List.length_append, Key.length_toList_thumbprint,
        Key.length_toList_thumbprint]
    -- what stands behind the token has one length, so the token ends at one place
    obtain ⟨htoken, hrest⟩ := List.append_inj' hchars hlength
    exact ⟨String.toList_injective htoken, Base64.encode_injective
      (String.toList_injective (List.append_cancel_left hrest))⟩
  · rintro ⟨rfl, h⟩
    rw [keyAuthorization, keyAuthorization, h]

theorem keyAuthorization_publicKey (t : String) (k : Key) :
    keyAuthorization t k.publicKey = keyAuthorization t k := by
  rw [keyAuthorization, keyAuthorization, Key.thumbprint_publicKey]

namespace Resource

variable {r r₁ r₂ : Resource}

/-- What proves a challenge is the key authorization of its token. -/
theorem keyAuthorization_eq_ok_iff {k : Key} {proof : String} :
    r.keyAuthorization (some k) = .ok proof ↔
      ∃ t, r.token = .ok t ∧ AcmeClient.keyAuthorization t k = proof := by
  rw [keyAuthorization, bind_eq_ok]
  refine exists_congr fun t => and_congr_right fun _ => ?_
  exact ⟨Except.ok.inj, congrArg Except.ok⟩

/-- Whether everything that shows the proof of a challenge is the same with two keys. -/
structure ShowsAlike (r : Resource) (key key' : Key) : Prop where
  keyAuthorization : r.keyAuthorization (some key) = r.keyAuthorization (some key')
  validationDigest : r.validationDigest (some key) = r.validationDigest (some key')
  digest : r.digest (some key) = r.digest (some key')
  respond : ∀ b, r.respond (some key) b = r.respond (some key') b

theorem showsAlike_publicKey (r : Resource) (k : Key) : r.ShowsAlike k.publicKey k := by
  have hproof : r.keyAuthorization (some k.publicKey) = r.keyAuthorization (some k) := by
    simp only [keyAuthorization, keyAuthorization_publicKey]
  have hdigest : r.validationDigest (some k.publicKey) = r.validationDigest (some k) := by
    rw [validationDigest, hproof]
    rfl
  exact ⟨hproof, hdigest, by rw [digest, hdigest]; rfl,
    fun b => by simp only [respond, hproof]⟩

end Resource

/-- **A key authorization binds one token to one account key.** For all tokens and keys:

* two key authorizations are equal exactly if the tokens and the thumbprints of the keys are;
* the thumbprint is the digest of the members that the kind of the key requires, in any order and
  whatever else the key has, so a key and its public part give the same key authorization, and
  everything that shows the proof of a challenge is the same with both;
* challenges that are proven by one text have the same token, and the keys have the same thumbprint;
* that of different public keys is the same only if the digest is one of two different texts. -/
theorem key_authorizations_bind (t₁ t₂ : String) (k₁ k₂ : Key) :
    (keyAuthorization t₁ k₁ = keyAuthorization t₂ k₂ ↔
      t₁ = t₂ ∧ k₁.thumbprint = k₂.thumbprint) ∧
    (∀ ms, ms.Perm k₁.required →
      sha256 (Utf8.encode ((Json.object ms).render .dense)) = k₁.thumbprint) ∧
    keyAuthorization t₁ k₁.publicKey = keyAuthorization t₁ k₁ ∧
    (∀ r : Resource, r.ShowsAlike k₁.publicKey k₁) ∧
    (∀ (r₁ r₂ : Resource) (proof : String), r₁.keyAuthorization (some k₁) = .ok proof →
      r₂.keyAuthorization (some k₂) = .ok proof →
        (∃ t, r₁.token = .ok t ∧ r₂.token = .ok t) ∧ k₁.thumbprint = k₂.thumbprint) ∧
    (k₁.IsProper → k₂.IsProper → k₁.thumbprint = k₂.thumbprint →
      k₁.publicKey = k₂.publicKey ∨ k₁.thumbprintText ≠ k₂.thumbprintText ∧
        sha256 (Utf8.encode k₁.thumbprintText) = sha256 (Utf8.encode k₂.thumbprintText)) := by
  refine ⟨keyAuthorization_eq_iff, fun ms => Key.digest_of_perm, keyAuthorization_publicKey t₁ k₁,
    fun r => r.showsAlike_publicKey k₁, fun r₁ r₂ proof h₁ h₂ => ?_, fun h₁ h₂ h => ?_⟩
  · obtain ⟨t, ht, hproof⟩ := Resource.keyAuthorization_eq_ok_iff.1 h₁
    obtain ⟨t', ht', hproof'⟩ := Resource.keyAuthorization_eq_ok_iff.1 h₂
    obtain ⟨rfl, hprint⟩ := keyAuthorization_eq_iff.1 (hproof.trans hproof'.symm)
    exact ⟨⟨t, ht, ht'⟩, hprint⟩
  · by_cases htext : k₁.thumbprintText = k₂.thumbprintText
    · exact .inl (Key.publicKey_of_thumbprintText h₁ h₂ htext)
    · exact .inr ⟨htext, h⟩

/-- The points of a token stay in it, and a private key authorizes as its public part does. -/
theorem key_authorizations_bind_points :
    let k : Key := .rsa ⟨3233, 17⟩ (some ⟨413, 61, 53, 53, 49, 38⟩)
    let proof := keyAuthorization "a." k
    let r : Resource := ⟨.challenge .dns, none,
      [("type", .string "dns-01"), ("token", .string "a.")], none⟩
    k.publicKey ≠ k ∧ k.publicKey.IsProper ∧ keyAuthorization "a." k.publicKey = proof ∧
      keyAuthorization "a" k ≠ proof ∧ r.keyAuthorization (some k) = .ok proof ∧
      k.required.reverse.Perm k.required ∧
      sha256 (Utf8.encode ((Json.object k.required.reverse).render .dense)) = k.thumbprint ∧
      k.publicKey.publicKey = k.publicKey := by
  intro k proof r
  have hperm : k.required.reverse.Perm k.required := k.required.reverse_perm
  have hproper : k.publicKey.IsProper := by decide
  have hbind := key_authorizations_bind "a" "a." k k
  have hpublic := key_authorizations_bind "a." "a." k.publicKey k
  have hequal : keyAuthorization "a." k.publicKey = proof :=
    (key_authorizations_bind "a." "a." k k).2.2.1
  have hproof : r.keyAuthorization (some k) = .ok proof := rfl
  refine ⟨by decide, hproper, hequal, fun h => ?_, hproof, hperm, hbind.2.1 _ hperm, ?_⟩
  · exact absurd (hbind.1.1 h).1 (by decide)
  · have hprints := (hpublic.2.2.2.2.1 r r proof ((r.showsAlike_publicKey k).keyAuthorization.trans
      hproof) hproof).2
    exact (hpublic.2.2.2.2.2 hproper hproper hprints).resolve_right fun h => h.1 rfl

end AcmeClient
