import AcmeClient.Proofs.Json.Octets
import AcmeClient.Proofs.SignedMessages

/-!
# What binds an account key

The document that binds an account key has the key as its payload, in the form in which the key is
given. So a private key goes into it with its private members:

* `Key.has_d_iff` — the keys that show a private exponent are those with a private part;
* `account_binding_shows_key` — the payload for a key and that for its public part, and when the two
  documents are equal.
-/

namespace AcmeClient

open Json Text

namespace Key

/-- The JSON form of a key shows a private exponent, or a private number, exactly if the key has a
private part. -/
theorem has_d_iff (k : Key) : Members.has k.members "d" = true ↔ k.publicKey ≠ k := by
  cases k with
  | rsa p s =>
    cases s with
    | none => simp [publicKey, members, Members.has, Members.get?, List.lookup_cons]
    | some s => simp [publicKey, members, Members.has, Members.get?, List.lookup_cons]
  | curve c x y n =>
    cases n with
    | none => simp [publicKey, members, Members.has, Members.get?, List.lookup_cons]
    | some n => simp [publicKey, members, Members.has, Members.get?]
  | secret octets => simp [publicKey, members, Members.has, Members.get?, List.lookup_cons]

theorem publicKey_publicKey (k : Key) : k.publicKey.publicKey = k.publicKey := by
  cases k <;> rfl

/-- Only a public key has the JSON form of its public part. -/
theorem publicKey_eq_of_members {k : Key} (h : k.members = k.publicKey.members) :
    k.publicKey = k := by
  by_cases hpublic : k.publicKey = k
  · exact hpublic
  · have hd := k.has_d_iff.2 hpublic
    rw [h, has_d_iff] at hd
    exact absurd k.publicKey_publicKey hd

end Key

/-- **The payload of an account binding shows the key as it is given.** The binding of a key and
that of its public part fail alike, for a secret that is not base64 or a name of no algorithm, or
both succeed with the same header. Each payload then is the JSON form of the key that was given; the
private exponent or number is in it exactly if the key has a private part, and the two documents are
equal exactly if it has none. -/
theorem account_binding_shows_key (k : Key) (kid url : Option String) (secret algorithm : String) :
    (∃ e, accountBinding k kid secret url algorithm = .error e ∧
      accountBinding k.publicKey kid secret url algorithm = .error e) ∨
    ∃ s s', accountBinding k kid secret url algorithm = .ok s ∧
      accountBinding k.publicKey kid secret url algorithm = .ok s' ∧
      s.protectedText = s'.protectedText ∧
      (Body.octets s.payload).document = .ok k.members ∧
      (Body.octets s'.payload).document = .ok k.publicKey.members ∧
      (Members.has k.members "d" = true ↔ k.publicKey ≠ k) ∧
      (s = s' ↔ k.publicKey = k) := by
  cases hsecret : decodeSecret secret with
  | error e =>
    refine .inl ⟨e, ?_, ?_⟩
    · rw [accountBinding, hsecret, error_bind]
    · rw [accountBinding, hsecret, error_bind]
  | ok octets =>
    cases ha : macAlgorithm algorithm with
    | error e =>
      refine .inl ⟨e, ?_, ?_⟩
      · rw [accountBinding, hsecret, ok_bind, ha, error_bind]
      · rw [accountBinding, hsecret, ok_bind, ha, error_bind]
    | ok a =>
      obtain ⟨s, hs, htext, hpayload⟩ := exists_accountBinding hsecret ha k kid url
      obtain ⟨s', hs', htext', hpayload'⟩ := exists_accountBinding hsecret ha k.publicKey kid url
      have hread := Body.document_plain (Signed.legible_members k)
      have hread' := Body.document_plain (Signed.legible_members k.publicKey)
      rw [← hpayload] at hread
      rw [← hpayload'] at hread'
      refine .inr ⟨s, s', hs, hs', htext.trans htext'.symm, hread, hread', k.has_d_iff, ?_, ?_⟩
      · rintro rfl
        rw [hread'] at hread
        exact Key.publicKey_eq_of_members (Except.ok.inj hread).symm
      · intro hpublic
        rw [hpublic, hs] at hs'
        exact Except.ok.inj hs'

def Key.curveSample : Key :=
  .curve .p256
    0x00b11c7dbbf85c2c2c214a3a64acd404ddc1cb5e70c74b39b0260da8f3c583bd
    0xdfcd632aaae994b76a632ca1fa32b86e7c5b96807a7d73b0de61835b94586fbd
    (some 0xb5fc0c908f394768ec5babb29ff49265f7fb74e670f78000368d97f7025c1e69)

theorem account_binding_shows_key_private :
    ∃ s s', accountBinding .curveSample (some "kid-1") "AAAA"
        (some "https://acme.test/acme/new-account") "HS256" = .ok s ∧
      accountBinding Key.curveSample.publicKey (some "kid-1") "AAAA"
        (some "https://acme.test/acme/new-account") "HS256" = .ok s' ∧
      s ≠ s' ∧ ∃ ms, (Body.octets s.payload).document = .ok ms ∧ Members.has ms "d" = true := by
  obtain ⟨e, he, -⟩ | ⟨s, s', hs, hs', -, hread, -, hd, heq⟩ :=
    account_binding_shows_key .curveSample (some "kid-1")
      (some "https://acme.test/acme/new-account") "AAAA" "HS256"
  · -- the secret and the algorithm are good
    have hsecret : decodeSecret "AAAA" = .ok [0, 0, 0] := by rfl
    have halg : macAlgorithm "HS256" = .ok ⟨.mac, .sha256⟩ := by rfl
    obtain ⟨s, hs, -⟩ := exists_accountBinding hsecret halg .curveSample (some "kid-1")
      (some "https://acme.test/acme/new-account")
    rw [hs] at he
    cases he
  · have hprivate : Key.curveSample.publicKey ≠ .curveSample := by decide
    exact ⟨s, s', hs, hs', fun h => hprivate (heq.1 h), _, hread, hd.2 hprivate⟩

end AcmeClient
