import AcmeClient.Operation
import AcmeClient.Proofs.Lockstep
import AcmeClient.Proofs.Results
import Mathlib.Data.List.Forall2

/-!
# What keys show of themselves

Documents that are signed by keys with the same public part differ in their signatures only, and in
the signatures of documents that they enclose:

* `Key.SamePublic` — keys with their public part in common;
* `Key.Likeness` — a relation of keys that is at least as fine;
* `Signed.Alike` — documents that differ at most in signatures, of keys that are alike;
* `Payload.Alike`, `Request.Alike` — payloads and requests with such documents;
* `Signed.agree_request`, `Client.agree_keyChange` — keys that are alike sign such documents, or
  fail alike.
-/

namespace AcmeClient

open Text

namespace Key

/-- Whether a key can sign: it has a private part, or it is a shared secret. -/
def isPrivate : Key → Bool
  | .rsa _ s => s.isSome
  | .curve _ _ _ number => number.isSome
  | .secret _ => true

/-- Whether two keys have their public part in common, and both of them can sign or none. -/
structure SamePublic (k k' : Key) : Prop where
  publicKey : k.publicKey = k'.publicKey
  isPrivate : k.isPrivate = k'.isPrivate

theorem SamePublic.refl (k : Key) : k.SamePublic k :=
  ⟨rfl, rfl⟩

/-- Whether a relation of keys takes each key to be like itself, and only keys with the same public
part to be like each other. -/
structure Likeness (keys : Key → Key → Prop) : Prop where
  refl : ∀ k, keys k k
  samePublic : ∀ {k k'}, keys k k' → k.SamePublic k'

theorem Likeness.refl_option {keys : Key → Key → Prop} (h : Likeness keys) (key : Option Key) :
    Option.Rel keys key key := by
  cases key with
  | none => exact .none
  | some k => exact .some (h.refl k)

theorem isNone_of_rel {keys : Key → Key → Prop} {key key' : Option Key}
    (h : Option.Rel keys key key') : key'.isNone = key.isNone := by
  cases h with
  | none => rfl
  | some h => rfl

/-- Of two keys that may be missing the first one counts. -/
theorem rel_or {keys : Key → Key → Prop} {a a' b b' : Option Key} (ha : Option.Rel keys a a')
    (hb : Option.Rel keys b b') : Option.Rel keys (a.or b) (a'.or b') := by
  cases ha with
  | none => exact hb
  | some h => exact .some h

theorem likeness_samePublic : Likeness SamePublic :=
  ⟨.refl, fun h => h⟩

theorem likeness_eq : Likeness Eq := by
  refine ⟨fun _ => rfl, ?_⟩
  rintro k k' rfl
  exact .refl k

variable {k k' : Key}

theorem SamePublic.thumbprint (h : k.SamePublic k') : k.thumbprint = k'.thumbprint := by
  rw [Key.thumbprint, Key.thumbprint, h.publicKey]

/-- Keys with the same public part are of the same shape. -/
theorem SamePublic.cases {motive : Key → Key → Prop} (h : k.SamePublic k')
    (rsa : ∀ p s s', s.isSome = s'.isSome → motive (.rsa p s) (.rsa p s'))
    (curve : ∀ c x y d d', d.isSome = d'.isSome → motive (.curve c x y d) (.curve c x y d'))
    (secret : ∀ octets, motive (.secret octets) (.secret octets)) : motive k k' := by
  obtain ⟨hpublic, hprivate⟩ := h
  cases k with
  | rsa p s =>
    cases k' with
    | rsa p' s' =>
      cases hpublic
      exact rsa p s s' hprivate
    | curve | secret => cases hpublic
  | curve c x y d =>
    cases k' with
    | curve c' x' y' d' =>
      cases hpublic
      exact curve c x y d d' hprivate
    | rsa | secret => cases hpublic
  | secret octets =>
    cases k' with
    | secret octets' =>
      cases hpublic
      exact secret octets
    | rsa | curve => cases hpublic

/-- The algorithm is that of the public part. -/
theorem SamePublic.ofKey (h : k.SamePublic k') : Algorithm.ofKey k = Algorithm.ofKey k' :=
  h.cases (motive := fun k k' => Algorithm.ofKey k = Algorithm.ofKey k') (fun _ _ _ _ => rfl)
    (fun _ _ _ _ _ _ => rfl) fun _ => rfl

/-- Keys with the same public part both sign, whatever the messages are, or fail alike. -/
theorem SamePublic.sign (h : k.SamePublic k') (a : Algorithm) (message message' : List UInt8) :
    (∃ signature signature', a.sign k message = .ok signature ∧
      a.sign k' message' = .ok signature') ∨
    ∃ e, a.sign k message = .error e ∧ a.sign k' message' = .error e := by
  obtain ⟨family, hash⟩ := a
  refine h.cases (motive := fun k k' => (∃ signature signature',
    Algorithm.sign ⟨family, hash⟩ k message = .ok signature ∧
      Algorithm.sign ⟨family, hash⟩ k' message' = .ok signature') ∨
    ∃ e, Algorithm.sign ⟨family, hash⟩ k message = .error e ∧
      Algorithm.sign ⟨family, hash⟩ k' message' = .error e) ?_ ?_ ?_
  · intro p s s' hs
    cases family with
    | mac | salted | curve => exact .inr ⟨_, rfl, rfl⟩
    | rsa =>
      cases s with
      | none =>
        cases s' with
        | none => exact .inr ⟨_, rfl, rfl⟩
        | some s' => cases hs
      | some s =>
        cases s' with
        | none => cases hs
        | some s' =>
          -- whether the digest fits is up to the modulus
          by_cases hroom : Signature.Rsa.hasRoom p hash
          · exact .inl ⟨_, _, if_pos hroom, if_pos hroom⟩
          · exact .inr ⟨_, if_neg hroom, if_neg hroom⟩
  · intro c x y d d' hd
    cases family with
    | mac | salted | rsa => exact .inr ⟨_, rfl, rfl⟩
    | curve =>
      cases d with
      | none =>
        cases d' with
        | none => exact .inr ⟨_, rfl, rfl⟩
        | some d' => cases hd
      | some d =>
        cases d' with
        | none => cases hd
        | some d' => exact .inl ⟨_, _, rfl, rfl⟩
  · intro octets
    cases family with
    | mac => exact .inl ⟨_, _, rfl, rfl⟩
    | salted | rsa | curve => exact .inr ⟨_, rfl, rfl⟩

end Key

/-! ### Documents -/

/-- Whether the signature of a document is that of a key. -/
def Signed.IsSignedBy (s : Signed) (a : Algorithm) (k : Key) : Prop :=
  a.sign k (signedOctets s.protectedText s.payload) = .ok s.signature

/-- Whether two documents have the same protected header, payloads that go together, and the same
signature or signatures of keys that are alike. -/
structure Signed.Alike (keys : Key → Key → Prop) (payloads : List UInt8 → List UInt8 → Prop)
    (s s' : Signed) : Prop where
  protectedText : s.protectedText = s'.protectedText
  payload : payloads s.payload s'.payload
  signature : s.signature = s'.signature ∨
    ∃ a k k', keys k k' ∧ s.IsSignedBy a k ∧ s'.IsSignedBy a k'

/-- Whether a payload encloses a document, as the change of a key does. -/
def Signed.IsEnclosedIn (s : Signed) (payload : List UInt8) : Prop :=
  (Claims.members (Value.ofMembers s.members)).payload = .ok payload

/-- Whether two payloads are the same, or enclose documents that are the same but for their
signatures. -/
inductive Payload.Alike (keys : Key → Key → Prop) : List UInt8 → List UInt8 → Prop where
  | same (payload : List UInt8) : Payload.Alike keys payload payload
  | enclosing {s s' : Signed} {payload payload' : List UInt8} : s.Alike keys Eq s' →
      s.IsEnclosedIn payload → s'.IsEnclosedIn payload' → Payload.Alike keys payload payload'

/-- Whether two requests are the same but for signatures. -/
structure Request.Alike (keys : Key → Key → Prop) (r r' : Request) : Prop where
  method : r.method = r'.method
  url : r.url = r'.url
  headers : r.headers = r'.headers
  verification : r.verification = r'.verification
  timeout : r.timeout = r'.timeout
  body : Option.Rel (Signed.Alike keys (Payload.Alike keys)) r.body r'.body

theorem Request.Alike.refl (keys : Key → Key → Prop) (r : Request) : r.Alike keys r := by
  refine ⟨rfl, rfl, rfl, rfl, rfl, ?_⟩
  cases r.body with
  | none => exact .none
  | some s => exact .some ⟨rfl, .same s.payload, .inl rfl⟩

/-! ### Keys that are the same -/

/-- Documents of the same keys are the same if their payloads are. -/
theorem Signed.Alike.eq {payloads : List UInt8 → List UInt8 → Prop} {s s' : Signed}
    (hpayloads : ∀ {p p'}, payloads p p' → p = p') (h : s.Alike Eq payloads s') : s = s' := by
  obtain ⟨protectedText, payload, signature⟩ := s
  obtain ⟨protectedText', payload', signature'⟩ := s'
  obtain ⟨rfl, hpayload, hsignature⟩ := h
  obtain rfl : payload = payload' := hpayloads hpayload
  obtain rfl | ⟨a, k, k', rfl, hs, hs'⟩ := hsignature
  · rfl
  · obtain rfl : signature = signature' := Except.ok.inj (hs.symm.trans hs')
    rfl

theorem Payload.Alike.eq {p p' : List UInt8} (h : Payload.Alike Eq p p') : p = p' := by
  cases h with
  | same => rfl
  | enclosing h hs hs' =>
    obtain rfl := h.eq id
    exact Except.ok.inj (hs.symm.trans hs')

theorem Request.Alike.eq {r r' : Request} (h : r.Alike Eq r') : r = r' := by
  obtain ⟨method, url, headers, verification, timeout, body⟩ := r
  obtain ⟨method', url', headers', verification', timeout', body'⟩ := r'
  obtain ⟨rfl, rfl, rfl, rfl, rfl, hbody⟩ := h
  cases hbody with
  | none => rfl
  | some h => rw [h.eq Payload.Alike.eq]

/-! ### Signing -/

variable {keys : Key → Key → Prop} (hkeys : Key.Likeness keys)
include hkeys

namespace Signed

variable {payloads : List UInt8 → List UInt8 → Prop} {p p' : List UInt8} {k k' : Key}

/-- Keys that are alike show the same in a header. -/
theorem headerFor_of_alike (hk : keys k k') (a : Algorithm) (nonce : Option (List UInt8))
    (url kid : Option String) : headerFor k a nonce url kid = headerFor k' a nonce url kid := by
  rw [headerFor, headerFor, (hkeys.samePublic hk).publicKey]

/-- Keys that are alike sign documents that are alike, or fail alike. -/
theorem agree_make (hk : keys k k') (hp : payloads p p') (a : Algorithm)
    (nonce : Option (List UInt8)) (url kid : Option String) :
    Agree (Signed.Alike keys payloads) (make p k a nonce url kid) (make p' k' a nonce url kid) := by
  let text := (headerFor k a nonce url kid).protectedText
  have hmake : make p k a nonce url kid
      = (a.sign k (signedOctets text p)).map fun signature => ⟨text, p, signature⟩ := by
    rw [make]
    cases a.sign k (signedOctets text p) <;> rfl
  have hmake' : make p' k' a nonce url kid
      = (a.sign k' (signedOctets text p')).map fun signature => ⟨text, p', signature⟩ := by
    rw [make, ← headerFor_of_alike hkeys hk]
    cases a.sign k' (signedOctets text p') <;> rfl
  rw [hmake, hmake']
  obtain ⟨signature, signature', hs, hs'⟩ | ⟨e, he, he'⟩ :=
    (hkeys.samePublic hk).sign a (signedOctets text p) (signedOctets text p')
  · rw [hs, hs']
    exact .ok ⟨rfl, hp, .inr ⟨a, k, k', hk, hs, hs'⟩⟩
  · rw [he, he']
    exact .error e

/-- Keys that are alike sign requests that are alike, or fail alike. -/
theorem agree_request (hk : keys k k') (hp : payloads p p') (nonce : List UInt8)
    (url kid : Option String) :
    Agree (Signed.Alike keys payloads) (request p k nonce url kid) (request p' k' nonce url kid) := by
  rw [request, request, (hkeys.samePublic hk).ofKey]
  refine (Agree.refl (Q := Eq) (fun _ => rfl) (Algorithm.ofKey k')).bind fun a a' ha => ?_
  rw [ha]
  exact agree_make hkeys hk hp a' _ _ _

end Signed

/-- Whether claims have payloads that are alike, or cannot be written for the same reason. -/
def Claims.Alike (keys : Key → Key → Prop) (x x' : Claims) : Prop :=
  Agree (Payload.Alike keys) x.payload x'.payload

omit hkeys in
theorem Claims.Alike.refl (x : Claims) : x.Alike keys x :=
  Agree.refl .same x.payload

omit hkeys in
/-- Claims that are a document have its canonical text for a payload. -/
theorem Signed.isEnclosedIn_canonical (s : Signed) :
    s.IsEnclosedIn (Utf8.encode (Json.object s.members).canonical) := by
  have hdraft : DraftBook.ofMembers (Value.ofMembers s.members)
      = .ok ⟨[(Value.ofMembers s.members).map fun p => (p.1, .value p.2)]⟩ := rfl
  have hdocument : (⟨[(Value.ofMembers s.members).map fun p => (p.1, .value p.2)]⟩ :
      DraftBook).document = .ok (.object s.members) := Value.toJson_ofJson (.object s.members)
  rw [IsEnclosedIn, Claims.payload, Claims.text, hdraft]
  show Except.map _ (((DraftBook.text _)).mapError _) = _
  rw [DraftBook.text, hdocument]
  rfl

omit hkeys in
/-- A document can be enclosed in claims. -/
theorem Signed.isEnclosedIn (s : Signed) : ∃ payload, s.IsEnclosedIn payload :=
  ⟨_, s.isEnclosedIn_canonical⟩

omit hkeys in
/-- Documents that are alike can be enclosed alike. -/
theorem Claims.alike_enclosing {s s' : Signed} (h : s.Alike keys Eq s') :
    (Claims.members (Value.ofMembers s.members)).Alike keys
      (.members (Value.ofMembers s'.members)) := by
  obtain ⟨payload, hs⟩ := s.isEnclosedIn
  obtain ⟨payload', hs'⟩ := s'.isEnclosedIn
  have hagree : Agree (Payload.Alike keys) (.ok payload) (.ok payload') :=
    .ok (.enclosing h hs hs')
  rw [← hs, ← hs'] at hagree
  exact hagree

/-- Keys that are alike, changed for keys that are alike, give documents that are alike. -/
theorem Client.agree_keyChange {oldKey oldKey' newKey newKey' : Key} (hold : keys oldKey oldKey')
    (hnew : keys newKey newKey') (location url : String) :
    Agree (Signed.Alike keys Eq) (keyChange location url oldKey newKey)
      (keyChange location url oldKey' newKey') := by
  have hput : ∀ b : DraftBook, b.putKey 0 "oldKey" oldKey = b.putKey 0 "oldKey" oldKey' := by
    intro b
    rw [DraftBook.putKey, DraftBook.putKey, (hkeys.samePublic hold).publicKey]
  have same : ∀ {γ : Type} (r : Except Fault γ), Agree Eq r r := fun r => .refl (fun _ => rfl) r
  rw [keyChange, keyChange, (hkeys.samePublic hnew).ofKey]
  refine (same _).bind fun b b' hb => ?_
  rw [hb, hput]
  refine (same _).bind fun a a' ha => ?_
  rw [ha]
  refine (same _).bind fun payload payload' hp => ?_
  exact Signed.agree_make hkeys hnew hp a' _ _ _

/-- The response to a challenge shows the public part of a key only. -/
theorem Resource.respond_of_alike {key key' : Option Key} (h : Option.Rel keys key key')
    (r : Resource) (b : DraftBook) : r.respond key b = r.respond key' b := by
  have hproof : r.keyAuthorization key = r.keyAuthorization key' := by
    cases h with
    | none => rfl
    | some hk =>
      simp only [Resource.keyAuthorization, AcmeClient.keyAuthorization,
        (hkeys.samePublic hk).thumbprint]
  rw [Resource.respond, Resource.respond, hproof]

end AcmeClient
