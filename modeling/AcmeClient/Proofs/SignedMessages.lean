import AcmeClient.Jose.Signed
import AcmeClient.Proofs.Json.Documents
import AcmeClient.Proofs.KeyText
import AcmeClient.Proofs.Operations
import AcmeClient.Proofs.Posted

/-!
# Signed messages read back

Signing writes three codecs into each other: the header as JSON, its text in base64, and that as a
member of the JSON text that is sent. Reading undoes them one by one:

* `Signed.ofText_protectedText` — the header of a document is read back, without the members that
  have no value;
* `SignedMessage.ofJson_members` and `SignedMessage.ofText_text` — the members and the text of a
  document are read as one message;
* `Header.Says` and `SignedMessage.IsOf` — what a message gives back of the signing;
* `signed_messages_read_back` — requests and account bindings are read back as what was signed, and
  a message verifies as its signature does.
-/

namespace AcmeClient

open Json Text

/-! ### Headers -/

namespace Header

/-- One member of the set, if a value holds it. -/
def readField (j : Json) (d : String × String × (Json → Except Fault HeaderValue)) :
    Except Fault (Option (String × HeaderValue)) := do
  if ← contained (j.holds d.1) then
    return some (d.1, ← decodeMember d.2.1 (← contained (j.under d.1)) d.2.2)
  else return none

theorem ofJson_eq (j : Json) : ofJson j = do return ⟨← decoders.filterMapM (readField j)⟩ := rfl

section Fields

variable {ms : Members} {name shown : String} {decode : Json → Except Fault HeaderValue}

/-- A member that is there and can be decoded is read; one that is not there is passed over. -/
theorem readField_of_get? {value : Option HeaderValue}
    (h : Members.get? ms name = value.map HeaderValue.toJson)
    (hread : ∀ v ∈ value, decode v.toJson = .ok v) :
    readField (.object ms) (name, shown, decode) = .ok (value.map fun v => (name, v)) := by
  cases value with
  | none =>
    have hno : (Json.object ms).holds name = .ok false := by
      simp [Json.holds, Members.has, h]
    simp [readField, hno, contained]
  | some v =>
    have hyes : (Json.object ms).holds name = .ok true := by
      simp [Json.holds, Members.has, h]
    have hunder : (Json.object ms).under name = .ok v.toJson := Key.under_of_get? h
    simp [readField, hyes, hunder, contained, decodeMember, hread v rfl]

end Fields

/-- Steps that all succeed collect what they give. -/
theorem filterMapM_of_forall_ok {α β : Type} {f : α → Except Fault (Option β)} {g : α → Option β}
    {l : List α} (h : ∀ a ∈ l, f a = .ok (g a)) : l.filterMapM f = .ok (l.filterMap g) := by
  induction l with
  | nil => rfl
  | cons a l ih =>
    rw [List.filterMapM_cons, h a (by simp), ih fun b hb => h b (by simp [hb])]
    cases hg : g a <;> simp [hg]

/-- A header is read back when each of its members is. -/
theorem ofJson_sparse {a : HeaderValue} {jwk kid nonce url : Option HeaderValue}
    (ha : decodeAlgorithm a.toJson = .ok a)
    (hjwk : ∀ v ∈ jwk, decodeKey v.toJson = .ok v)
    (hkid : ∀ v ∈ kid, decodeRaw v.toJson = .ok v)
    (hnonce : ∀ v ∈ nonce, decodeNonce v.toJson = .ok v)
    (hurl : ∀ v ∈ url, decodeRaw v.toJson = .ok v) :
    ofJson (.object (Signed.sparse a.toJson (jwk.map HeaderValue.toJson)
        (kid.map HeaderValue.toJson) (nonce.map HeaderValue.toJson) (url.map HeaderValue.toJson)))
      = .ok ⟨Signed.sparse a jwk kid nonce url⟩ := by
  obtain ⟨galg, gjwk, gkid, gnonce, gurl⟩ := Signed.get?_sparse a.toJson
    (jwk.map HeaderValue.toJson) (kid.map HeaderValue.toJson) (nonce.map HeaderValue.toJson)
    (url.map HeaderValue.toJson)
  have gother := @Signed.lookup_sparse_of_notMem _ a.toJson (jwk.map HeaderValue.toJson)
    (kid.map HeaderValue.toJson) (nonce.map HeaderValue.toJson) (url.map HeaderValue.toJson)
  generalize Signed.sparse a.toJson (jwk.map HeaderValue.toJson) (kid.map HeaderValue.toJson)
    (nonce.map HeaderValue.toJson) (url.map HeaderValue.toJson) = ms at *
  obtain ⟨lalg, ljwk, lkid, lnonce, lurl⟩ := Signed.lookup_sparse a jwk kid nonce url
  -- the members of the set that no document has
  have passed : ∀ name shown decode, name ∉ ["alg", "jwk", "kid", "nonce", "url"] →
      readField (.object ms) (name, shown, decode)
        = .ok (((Signed.sparse a jwk kid nonce url).lookup name).map fun v => (name, v)) := by
    intro name shown decode hname
    rw [Signed.lookup_sparse_of_notMem a jwk kid nonce url hname]
    exact readField_of_get? (gother hname) (by simp)
  have hfields : ∀ d ∈ decoders, readField (.object ms) d
      = .ok (((Signed.sparse a jwk kid nonce url).lookup d.1).map fun v => (d.1, v)) := by
    simp only [decoders, List.forall_mem_cons, List.not_mem_nil, false_implies, implies_true,
      and_true]
    refine ⟨?_, passed _ _ _ (by decide), ?_, ?_, passed _ _ _ (by decide),
      passed _ _ _ (by decide), passed _ _ _ (by decide), passed _ _ _ (by decide),
      passed _ _ _ (by decide), passed _ _ _ (by decide), passed _ _ _ (by decide), ?_, ?_⟩
    · rw [lalg]
      exact readField_of_get? (show _ = (some a).map _ from galg) (by simpa using ha)
    · rw [ljwk]
      exact readField_of_get? gjwk hjwk
    · rw [lkid]
      exact readField_of_get? gkid hkid
    · rw [lnonce]
      exact readField_of_get? gnonce hnonce
    · rw [lurl]
      exact readField_of_get? gurl hurl
  rw [ofJson_eq, filterMapM_of_forall_ok hfields]
  cases jwk <;> cases kid <;> cases nonce <;> cases url <;> rfl

end Header

namespace Signed

theorem ofName?_name (a : Algorithm) : Algorithm.ofName? a.name = some a := by
  obtain ⟨f, h⟩ := a
  cases f <;> cases h <;> decide

variable (key : Key) (a : Algorithm) (nonce : Option (List UInt8)) (url kid : Option String)

/-- The header of a document is read back, without the members that have no value. -/
theorem ofText_protectedText (hkey : kid = none → key.IsProper) :
    Header.ofText (headerFor key a nonce url kid).protectedText
      = .ok ⟨(headerFor key a nonce url kid).present⟩ := by
  have hjson : (Body.text (headerFor key a nonce url kid).protectedText).toJson
      = .ok (.object (headerMembers key a nonce url kid)) :=
    Body.toJson_of_document (document_protectedText key a nonce url kid)
  rw [Header.ofText, hjson, present_headerFor, headerMembers_eq]
  refine Header.ofJson_sparse ?halg ?hjwk ?hkid ?hnonce ?hurl
  case halg =>
    have hname : (Json.string a.name).string?.bind Algorithm.ofName? = some a := ofName?_name a
    show Header.decodeAlgorithm (.string a.name) = _
    simp only [Header.decodeAlgorithm, Json.hashDefect?, hname]
  case hjwk =>
    intro v hv
    cases kid with
    | some s => cases hv
    | none =>
      obtain rfl : HeaderValue.key key.publicKey = v := Option.some.inj hv
      show (Key.ofJson (.object key.publicKey.members)).map HeaderValue.key = _
      rw [Key.ofJson_publicKey (hkey rfl)]
      rfl
  case hkid =>
    intro v hv
    obtain ⟨s, -, rfl⟩ := Option.map_eq_some_iff.1 hv
    rfl
  case hnonce =>
    intro v hv
    obtain ⟨bs, -, rfl⟩ := Option.map_eq_some_iff.1 hv
    show Header.decodeNonce (.string (Base64.encode bs)) = _
    rw [Header.decodeNonce, Header.decodeOctets, Key.octetsOfJson_encode]
    rfl
  case hurl =>
    intro v hv
    obtain ⟨s, -, rfl⟩ := Option.map_eq_some_iff.1 hv
    rfl

end Signed

/-! ### Messages -/

/-- A header whose members all have a value stays what it is when it is joined to an empty one. -/
theorem Header.empty_add {h : Header} (hfull : h.present = h.fields) :
    Header.empty.add h = .ok h := by
  show Except.ok (⟨[] ++ h.present⟩ : Header) = _
  rw [List.nil_append, hfull]

section Messages

variable {s : Signed} {h : Header}

theorem MessageSignature.ofJson_members (hread : Header.ofText s.protectedText = .ok h)
    (hfull : h.present = h.fields) (halg : h.algorithm? ≠ none) :
    MessageSignature.ofJson (.object (Members.remove "payload" s.members))
      = .ok ⟨h, s.protectedText, s.signature⟩ := by
  have hne : s.protectedText ≠ "" := by
    intro hempty
    have hno : ∃ e, Header.ofText "" = .error e := ⟨_, rfl⟩
    obtain ⟨e, he⟩ := hno
    rw [hempty, he] at hread
    cases hread
  have hms : Members.remove "payload" s.members
      = [("protected", .string (Base64.encode (Utf8.encode s.protectedText))),
        ("signature", .string (Base64.encode s.signature))] := rfl
  generalize hj : Json.object (Members.remove "payload" s.members) = j
  have hlack : lackingNames j ["signature"] = .ok [] := by
    rw [← hj, hms]
    rfl
  have hprotected : MessageSignature.decodeOptional j "protected" ""
      MessageSignature.decodeProtected = .ok s.protectedText := by
    have hholds : j.holds "protected" = .ok true := by
      rw [← hj, hms]
      rfl
    have hunder : j.under "protected"
        = .ok (.string (Base64.encode (Utf8.encode s.protectedText))) := by
      rw [← hj, hms]
      rfl
    simp [MessageSignature.decodeOptional, hholds, hunder, contained, decodeMember,
      MessageSignature.decodeProtected, Key.octetsOfJson_encode, Utf8.decode_encode]
  have hheader : MessageSignature.decodeOptional j "header" Header.empty Header.ofJson
      = .ok Header.empty := by
    rw [← hj, hms]
    rfl
  have hsignature : j.under "signature" = .ok (.string (Base64.encode s.signature)) := by
    rw [← hj, hms]
    rfl
  simp [MessageSignature.ofJson, hlack, hprotected, hheader, hsignature, contained, decodeMember,
    Key.octetsOfJson_encode, hne, hread, Header.empty_add hfull, halg]

theorem SignedMessage.ofJson_members (hread : Header.ofText s.protectedText = .ok h)
    (hfull : h.present = h.fields) (halg : h.algorithm? ≠ none) :
    SignedMessage.ofJson (.object s.members)
      = .ok ⟨s.payload, [⟨h, s.protectedText, s.signature⟩]⟩ := by
  have hsignature : (Json.object s.members).holds "signature" = .ok true := rfl
  have hsignatures : (Json.object s.members).holds "signatures" = .ok false := rfl
  have hpayload : (Json.object s.members).under "payload"
      = .ok (.string (Base64.encode s.payload)) := rfl
  simp [SignedMessage.ofJson, hsignature, hsignatures, hpayload, contained,
    Key.octetsOfJson_encode, MessageSignature.ofJson_members hread hfull halg]

theorem SignedMessage.ofText_text (s : Signed) :
    SignedMessage.ofText s.text = SignedMessage.ofJson (.object s.members) := by
  rw [SignedMessage.ofText, Body.toJson_of_document (Signed.document_text s)]

end Messages

/-! ### What a message gives back -/

/-- What a header says of the signing: a nonce, a URL and an account are there unless they are
empty, the key is there when no account is named. -/
structure Header.Says (h : Header) (key : Key) (a : Algorithm) (nonce : Option (List UInt8))
    (url kid : Option String) : Prop where
  hasAlgorithm : h.algorithm? = some a
  hasNonce : h.nonce? = nonce.filter fun bs => !bs.isEmpty
  hasUrl : h.raw "url" = (Signed.textValue url).getD .null
  hasKid : h.raw "kid" = (Signed.textValue kid).getD .null
  hasKey : h.key? = if kid = none then some key.publicKey else none

/-- Whether a message is that of a signed document: it has the payload and one signature, whose
header says how it was signed, over the text that was signed. -/
structure SignedMessage.IsOf (m : SignedMessage) (s : Signed) (payload : List UInt8) (key : Key)
    (a : Algorithm) (nonce : Option (List UInt8)) (url kid : Option String) : Prop where
  hasPayload : m.payload = payload
  hasSignature : ∃ header, m.signatures = [⟨header, s.protectedText, s.signature⟩] ∧
    header.Says key a nonce url kid
  isSigned : a.sign key (signedOctets s.protectedText payload) = .ok s.signature

/-- Whether an algorithm accepts what it signs with a key under the public part of the key. -/
def Algorithm.AcceptsOwn (a : Algorithm) (key : Key) : Prop :=
  ∀ octets signature, a.sign key octets = .ok signature →
    a.verify key.publicKey octets signature = .ok true

theorem Algorithm.acceptsOwn_secret {a : Algorithm} (h : a.family = .mac) (octets : List UInt8) :
    a.AcceptsOwn (.secret octets) := by
  intro message signature hsign
  have hcode : Digest.hmac a.hash octets message = signature := by
    simpa [Algorithm.sign, h] using hsign
  simp [Key.publicKey, Algorithm.verify, h, hcode]

namespace Signed

theorem says_headerFor (key : Key) (a : Algorithm) (nonce : Option (List UInt8))
    (url kid : Option String) :
    (⟨(headerFor key a nonce url kid).present⟩ : Header).Says key a nonce url kid := by
  rw [present_headerFor]
  obtain ⟨halg, hjwk, hkid, hnonce, hurl⟩ := lookup_sparse (.algorithm a)
    (if kid.isNone then some (.key key.publicKey) else none)
    ((kid.filter fun s => s ≠ "").map fun s => HeaderValue.raw (.string s))
    ((nonce.filter fun bs => !bs.isEmpty).map .octets)
    ((url.filter fun s => s ≠ "").map fun s => HeaderValue.raw (.string s))
  constructor
  case hasAlgorithm => simp only [Header.algorithm?, Header.get?, halg]
  case hasNonce =>
    simp only [Header.nonce?, Header.get?, hnonce]
    cases nonce.filter fun bs => !bs.isEmpty <;> rfl
  case hasUrl =>
    simp only [Header.raw, Header.get?, hurl, textValue]
    cases url.filter fun s => s ≠ "" <;> rfl
  case hasKid =>
    simp only [Header.raw, Header.get?, hkid, textValue]
    cases kid.filter fun s => s ≠ "" <;> rfl
  case hasKey =>
    simp only [Header.key?, Header.get?, hjwk]
    cases kid <;> rfl

theorem present_present (h : Header) : (⟨h.present⟩ : Header).present = h.present := by
  simp [Header.present]

variable {s : Signed} {payload : List UInt8} {key : Key} {a : Algorithm}
  {nonce : Option (List UInt8)} {url kid : Option String}

/-- A document reads as the message that it was signed as. -/
theorem exists_message_of_make (hkey : kid = none → key.IsProper)
    (hs : make payload key a nonce url kid = .ok s) :
    ∃ m, SignedMessage.ofJson (.object s.members) = .ok m ∧
      m.IsOf s payload key a nonce url kid := by
  obtain ⟨hpayload, htext, hsign⟩ := signing_of_make hs
  have htold := says_headerFor key a nonce url kid
  have hread := ofText_protectedText key a nonce url kid hkey
  rw [← htext] at hread
  have hm := SignedMessage.ofJson_members hread (present_present _) (by simp [htold.hasAlgorithm])
  exact ⟨_, hm, hpayload, ⟨_, rfl, htold⟩, hsign⟩

end Signed

/-- A message verifies as its one signature does. -/
theorem SignedMessage.verify_of_isOf {m : SignedMessage} {s : Signed} {payload : List UInt8}
    {key : Key} {a : Algorithm} {nonce : Option (List UInt8)} {url kid : Option String}
    (hm : m.IsOf s payload key a nonce url kid) (k : Key) :
    m.verify k = a.verify k (signedOctets s.protectedText payload) s.signature := by
  obtain ⟨header, hsignatures, htold⟩ := hm.hasSignature
  have hone : (⟨header, s.protectedText, s.signature⟩ : MessageSignature).verify m.payload k
      = a.verify k (signedOctets s.protectedText payload) s.signature := by
    rw [hm.hasPayload, MessageSignature.verify]
    simp only [htold.hasAlgorithm]
  rw [SignedMessage.verify, hsignatures, List.allM, hone]
  cases a.verify k (signedOctets s.protectedText payload) s.signature with
  | error e => rfl
  | ok b => cases b <;> rfl

theorem family_of_macAlgorithm {name : String} {a : Algorithm} (h : macAlgorithm name = .ok a) :
    a.family = .mac := by
  unfold macAlgorithm at h
  split at h
  · next found hfound =>
    cases h
    have hmem := List.mem_of_find?_eq_some hfound
    simpa [Algorithm.macs] using (List.mem_filter.1 hmem).2
  · cases h

/-- An account is bound when the secret can be read and the algorithm is known. -/
theorem exists_accountBinding {secret algorithm : String} {octets : List UInt8} {a : Algorithm}
    (hsecret : decodeSecret secret = .ok octets) (ha : macAlgorithm algorithm = .ok a)
    (accountKey : Key) (kid url : Option String) :
    ∃ s, accountBinding accountKey kid secret url algorithm = .ok s ∧
      s.protectedText = (Signed.headerFor (.secret octets) a none url kid).protectedText ∧
      s.payload = Utf8.encode ((Json.object accountKey.members).render .plain) := by
  have hsign : ∀ message, ∃ signature, a.sign (.secret octets) message = .ok signature := by
    intro message
    exact ⟨Digest.hmac a.hash octets message, by simp [Algorithm.sign, family_of_macAlgorithm ha]⟩
  obtain ⟨s, hs⟩ := Signed.exists_make hsign
    (Utf8.encode ((Json.object accountKey.members).render .plain)) none url kid
  obtain ⟨hpayload, htext, -⟩ := Signed.signing_of_make hs
  refine ⟨s, ?_, htext, hpayload⟩
  rw [accountBinding, hsecret, ok_bind, ha, ok_bind, hs]

/-- **Signed messages are read back.** The text of a signed request is read as a message with its
payload and one signature by the algorithm for the key. Its header has the nonce, the URL and the
account that were given, unless they are empty, and the public key if no account was given; for
that the key has to be proper, as all keys are that are read. Its protected text is the text that
was signed, so it verifies whenever the algorithm accepts what it signs. The members that bind an
account to a secret are read back in the same way, and always verify. -/
theorem signed_messages_read_back :
    (∀ payload key nonce url kid s, (kid = none → Key.IsProper key) →
      Signed.request payload key nonce url kid = .ok s →
      ∃ a m, Algorithm.ofKey key = .ok a ∧ SignedMessage.ofText s.text = .ok m ∧
        m.IsOf s payload key a (some nonce) url kid ∧
        m.verify key.publicKey
          = a.verify key.publicKey (signedOctets s.protectedText payload) s.signature ∧
        (a.AcceptsOwn key → m.verify key.publicKey = .ok true)) ∧
    ∀ accountKey kid secret url algorithm s,
      accountBinding accountKey kid secret url algorithm = .ok s →
      ∃ a octets m, macAlgorithm algorithm = .ok a ∧ decodeSecret secret = .ok octets ∧
        SignedMessage.ofJson (.object s.members) = .ok m ∧
        m.IsOf s (Utf8.encode ((Json.object accountKey.members).render .plain)) (.secret octets) a
          none url kid ∧
        m.verify (.secret octets) = .ok true := by
  constructor
  · intro payload key nonce url kid s hkey hs
    obtain ⟨a, ha, hmake⟩ := bind_eq_ok.1 hs
    obtain ⟨m, hm, hof⟩ := Signed.exists_message_of_make hkey hmake
    have hverify := SignedMessage.verify_of_isOf hof key.publicKey
    exact ⟨a, m, ha, (SignedMessage.ofText_text s).trans hm, hof, hverify,
      fun haccept => hverify.trans (haccept _ _ hof.isSigned)⟩
  · intro accountKey kid secret url algorithm s hs
    obtain ⟨octets, hoctets, hs⟩ := bind_eq_ok.1 hs
    obtain ⟨a, ha, hmake⟩ := bind_eq_ok.1 hs
    have hproper : (Key.secret octets).IsProper := trivial
    obtain ⟨m, hm, hof⟩ := Signed.exists_message_of_make (fun _ => hproper) hmake
    have haccept := Algorithm.acceptsOwn_secret (family_of_macAlgorithm ha) octets
    exact ⟨a, octets, m, ha, hoctets, hm, hof,
      (SignedMessage.verify_of_isOf hof _).trans (haccept _ _ hof.isSigned)⟩

theorem signed_messages_read_back_sample :
    (∃ s m sig, Signed.request [104, 105] .sample [] (some "https://acme.test/x") none = .ok s ∧
      SignedMessage.ofText s.text = .ok m ∧ m.payload = [104, 105] ∧ m.signatures = [sig] ∧
      sig.header.nonce? = none ∧ sig.header.raw "kid" = .null ∧
      sig.header.raw "url" = .string "https://acme.test/x" ∧
      sig.header.key? = some Key.sample.publicKey) ∧
    ∃ s m,
      accountBinding .sample (some "kid-1") "AAAA" (some "https://acme.test/x") "HS256" = .ok s ∧
        SignedMessage.ofJson (.object s.members) = .ok m ∧
        m.verify (.secret [0, 0, 0]) = .ok true := by
  constructor
  · have hsigns : Key.sample.Signs := Key.signs_rsa (by decide +kernel)
    obtain ⟨s, hrequest⟩ :=
      Signed.exists_request hsigns [104, 105] [] (some "https://acme.test/x") none
    obtain ⟨a, m, -, hm, hof, -⟩ :=
      signed_messages_read_back.1 _ _ _ _ _ s (fun _ => by decide) hrequest
    obtain ⟨header, hsignatures, htold⟩ := hof.hasSignature
    exact ⟨s, m, _, hrequest, hm, hof.hasPayload, hsignatures, htold.hasNonce, htold.hasKid,
      htold.hasUrl, htold.hasKey⟩
  · have hsecret : decodeSecret "AAAA" = .ok [0, 0, 0] := by rfl
    have halg : macAlgorithm "HS256" = .ok ⟨.mac, .sha256⟩ := by rfl
    obtain ⟨s, hbinding, -⟩ := exists_accountBinding hsecret halg .sample (some "kid-1")
      (some "https://acme.test/x")
    obtain ⟨a, octets, m, -, hoctets, hm, -, hverify⟩ :=
      signed_messages_read_back.2 _ _ _ _ _ s hbinding
    obtain rfl : [0, 0, 0] = octets := Except.ok.inj (hsecret.symm.trans hoctets)
    exact ⟨s, m, hbinding, hm, hverify⟩

end AcmeClient
