import AcmeClient.Http.Exchange
import AcmeClient.Proofs.SignedText

/-!
# What a request posts

The server sees a request as text. What the text says is read back here:

* `Request.posted?` — the members of the posted document;
* `Request.header?` — the members of its protected header;
* `Request.nonce?` — the nonce with which the request is signed; a header without one leaves it
  empty;
* `Signed.IsRequest` — a document that `Signed.request` makes, and what is read from a request that
  posts it.
-/

namespace AcmeClient

namespace Request

def posted? (r : Request) : Option Members := do
  (Body.text (← r.body).text).document.toOption

/-- The document that a request posts, as its members describe it. -/
def signed? (r : Request) : Option Signed := do
  Signed.ofMembers? (← r.posted?)

def header? (r : Request) : Option Members := do
  (Body.text (← r.signed?).protectedText).document.toOption

/-- The nonce with which a request is signed; a header without one leaves it empty. -/
def nonce? (r : Request) : Option (List UInt8) := do
  match (← r.header?).get? "nonce" with
  | none => some []
  | some j => (Nonce.decode (← j.string?)).toOption

end Request

/-- Whether a key signs every message with the algorithm for it. -/
def Key.Signs (k : Key) : Prop :=
  ∃ a, Algorithm.ofKey k = .ok a ∧ ∀ message, ∃ signature, a.sign k message = .ok signature

/-- A private RSA key signs when its modulus has room for a digest. -/
theorem Key.signs_rsa {p : Signature.RsaPublic} {s : Signature.RsaPrivate}
    (h : Signature.Rsa.hasRoom p .sha256 = true) : (Key.rsa p (some s)).Signs :=
  ⟨⟨.rsa, .sha256⟩, rfl, fun _ => ⟨_, if_pos h⟩⟩

namespace Signed

/-- Whether a document signs a payload for a URL with a key and a nonce, in the name of an account
or with the public key embedded. -/
structure IsRequest (s : Signed) (payload : List UInt8) (key : Key) (nonce : List UInt8)
    (url : String) (kid : Option String) : Prop where
  signing : ∃ a, Algorithm.ofKey key = .ok a ∧
    s.protectedText = (headerFor key a (some nonce) (some url) kid).protectedText ∧
    a.sign key (signedOctets s.protectedText payload) = .ok s.signature
  payload : s.payload = payload

/-- What is made of a payload is signed as it says. -/
theorem signing_of_make {payload : List UInt8} {key : Key} {a : Algorithm}
    {nonce : Option (List UInt8)} {url kid : Option String} {s : Signed}
    (h : make payload key a nonce url kid = .ok s) :
    s.payload = payload ∧ s.protectedText = (headerFor key a nonce url kid).protectedText ∧
      a.sign key (signedOctets s.protectedText payload) = .ok s.signature := by
  generalize hp : (headerFor key a nonce url kid).protectedText = text
  rw [make, hp] at h
  cases hs : a.sign key (signedOctets text payload) with
  | error e =>
    rw [hs] at h
    cases h
  | ok signature =>
    rw [hs] at h
    have heq : Except.ok (⟨text, payload, signature⟩ : Signed) = .ok s := h
    injection heq with heq
    rw [← heq]
    exact ⟨rfl, rfl, hs⟩

/-- Something is signed when every message can be. -/
theorem exists_make {key : Key} {a : Algorithm}
    (h : ∀ message, ∃ signature, a.sign key message = .ok signature) (payload : List UInt8)
    (nonce : Option (List UInt8)) (url kid : Option String) :
    ∃ s, make payload key a nonce url kid = .ok s := by
  obtain ⟨signature, hsign⟩ :=
    h (signedOctets (headerFor key a nonce url kid).protectedText payload)
  exact ⟨⟨_, payload, signature⟩, by rw [make, hsign]; rfl⟩

/-- What is signed is such a document. -/
theorem isRequest_of_request {payload : List UInt8} {key : Key} {nonce : List UInt8} {url : String}
    {kid : Option String} {s : Signed} (h : request payload key nonce (some url) kid = .ok s) :
    s.IsRequest payload key nonce url kid := by
  cases ha : Algorithm.ofKey key with
  | error e =>
    rw [request, ha] at h
    cases h
  | ok a =>
    rw [request, ha] at h
    obtain ⟨hpayload, htext, hsign⟩ := signing_of_make (show make payload key a (some nonce)
      (some url) kid = .ok s from h)
    exact ⟨⟨a, ha, htext, hsign⟩, hpayload⟩

theorem exists_request {key : Key} (h : key.Signs) (payload nonce : List UInt8)
    (url kid : Option String) : ∃ s, request payload key nonce url kid = .ok s := by
  obtain ⟨a, ha, hsign⟩ := h
  obtain ⟨s, hs⟩ := exists_make hsign payload (some nonce) url kid
  refine ⟨s, ?_⟩
  rw [request, ha]
  exact hs

end Signed

namespace Request

variable {r : Request} {s : Signed}

/-- A posted text is read as the three members of its document. -/
theorem posted?_of_body (h : r.body = some s) : r.posted? = some s.members := by
  simp [posted?, h, Signed.document_text, Except.toOption]

theorem signed?_of_body (h : r.body = some s) : r.signed? = some s := by
  simp [signed?, posted?_of_body h, Signed.ofMembers?_members]

variable {payload : List UInt8} {key : Key} {nonce : List UInt8} {url : String}
  {kid : Option String}

/-- The header of a signed request is read as its members. -/
theorem header?_of_isRequest (h : r.body = some s) (hs : s.IsRequest payload key nonce url kid) :
    ∃ a, Algorithm.ofKey key = .ok a ∧
      r.header? = some (Signed.headerMembers key a (some nonce) (some url) kid) := by
  obtain ⟨a, ha, hp, -⟩ := hs.signing
  refine ⟨a, ha, ?_⟩
  simp [header?, signed?_of_body h, hp, Signed.document_protectedText, Except.toOption]

/-- A request is signed with the nonce that it was given. -/
theorem nonce?_of_isRequest (h : r.body = some s) (hs : s.IsRequest payload key nonce url kid) :
    r.nonce? = some nonce := by
  obtain ⟨a, -, hh⟩ := header?_of_isRequest h hs
  simp only [nonce?, hh]
  show (match Members.get? _ "nonce" with | none => some [] | some j => _) = _
  rw [Signed.headerMembers, (Signed.get?_sparse _ _ _ _ _).2.2.2.1]
  cases nonce with
  | nil => rfl
  | cons b bs =>
    show (Nonce.decode (Base64.encode (b :: bs))).toOption = _
    rw [Nonce.decode_encode]
    rfl

end Request

end AcmeClient
