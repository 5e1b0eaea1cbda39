import AcmeClient.Proofs.Arguments
import AcmeClient.Proofs.Json.Octets
import AcmeClient.Proofs.KnownDirectory
import AcmeClient.Proofs.Likeness
import AcmeClient.Proofs.Placement
import AcmeClient.Proofs.Posted
import AcmeClient.Proofs.RetryNonce

/-!
# How an account gets a new key

The change of a key is a document within a document. The inner one names the account by its
location and the key that it has, and is signed with the new key; the outer one is signed, like
every request, with the key of the session and in the name of the account of the session:

* `Signed.inside?_of_payload` — a document that is the payload of another one is found in it;
* `Client.keyChange_eq` — what the inner document is made of;
* `Signed.MovesKey` — an inner document that moves an account from one key to another;
* `Request.ChangesKey` — a request that posts such a document;
* `Operation.change_key_posts` — every request that the change of a key posts is one.
-/

namespace AcmeClient

open Act Json Text

/-! ### The inner document -/

namespace Signed

/-- The members of a document, in the order of their names. -/
theorem document_enclosed (s : Signed) :
    (Body.octets (Utf8.encode (Json.object s.members).canonical)).document
      = .ok [("payload", .string (Base64.encode s.payload)),
        ("protected", .string (Base64.encode (Utf8.encode s.protectedText))),
        ("signature", .string (Base64.encode s.signature))] := by
  have hlegible : Legible (.object s.members) :=
    ⟨by simp [members], by simp [members, LegibleMembers, Legible]⟩
  rw [Body.document_canonical hlegible]
  simp [members, arrangedMembers, arranged, Layout.order, Layout.canonical, List.mergeSort]

/-- A document that is the payload of another one is found in it. -/
theorem inside?_of_payload {outer s : Signed}
    (h : outer.payload = Utf8.encode (Json.object s.members).canonical) :
    outer.inside? = some s := by
  rw [inside?, h, document_enclosed]
  simp [ofMembers?, Members.get, Members.get?, List.lookup_cons, Json.string?, Base64.decode_encode,
    Utf8.decode_encode, Except.toOption]

end Signed

/-- What the inner document claims: the location of the account, and the public part of its key. -/
def keyChangeClaims (location : String) (oldKey : Key) : Members :=
  [("account", .string location), ("oldKey", .object oldKey.publicKey.members)]

theorem document_keyChangeClaims (location : String) (oldKey : Key) :
    (Body.octets (Utf8.encode (Json.object (keyChangeClaims location oldKey)).canonical)).document
      = .ok [("account", .string location),
        ("oldKey", arranged .canonical (.object oldKey.publicKey.members))] := by
  have hlegible : Legible (.object (keyChangeClaims location oldKey)) :=
    ⟨by simp [keyChangeClaims],
      by simpa [keyChangeClaims, LegibleMembers, Legible] using
        Signed.legible_members oldKey.publicKey⟩
  rw [Body.document_canonical hlegible]
  simp [keyChangeClaims, arrangedMembers, arranged, Layout.order, Layout.canonical, List.mergeSort]

/-- The inner document is these claims, signed with the new key. -/
theorem Client.keyChange_eq (location url : String) (oldKey newKey : Key) :
    keyChange location url oldKey newKey
      = (Algorithm.ofKey newKey >>= fun a =>
        Signed.make (Utf8.encode (Json.object (keyChangeClaims location oldKey)).canonical) newKey a
          none (some url) none) := by
  have hput : putValue .empty "account" (.string location)
      = .ok (DraftBook.empty.set 0 "account" (.value (.string location))) := rfl
  have hdocument : ((DraftBook.empty.set 0 "account" (.value (.string location))).putKey 0 "oldKey"
      oldKey).document = .ok (.object (keyChangeClaims location oldKey)) :=
    Value.toJson_ofJson (.object (keyChangeClaims location oldKey))
  have hpayload : (Claims.draft ((DraftBook.empty.set 0 "account"
      (.value (.string location))).putKey 0 "oldKey" oldKey)).payload
      = .ok (Utf8.encode (Json.object (keyChangeClaims location oldKey)).canonical) := by
    rw [Claims.payload, Claims.text, DraftBook.text, hdocument]
    rfl
  simp only [keyChange, hput, hpayload, ok_bind]

/-- Whether a document moves an account from one key to another: it is signed with the new key,
which its header embeds, for the given URL and without a nonce or an account, and claims the
location of the account and the public part of the old key. -/
structure Signed.MovesKey (s : Signed) (location url : String) (oldKey newKey : Key) : Prop where
  isSigned : ∃ a header, Algorithm.ofKey newKey = .ok a ∧
    a.sign newKey (signedOctets s.protectedText s.payload) = .ok s.signature ∧
    (Body.text s.protectedText).document = .ok header ∧
    header.get? "alg" = some (.string a.name) ∧
    header.get? "jwk" = some (.object newKey.publicKey.members) ∧
    header.get? "kid" = none ∧ header.get? "nonce" = none ∧
    header.get? "url" = Signed.textValue (some url)
  claims : (Body.octets s.payload).document = .ok [("account", .string location),
    ("oldKey", arranged .canonical (.object oldKey.publicKey.members))]

/-- The inner document moves the account to the new key. -/
theorem Client.movesKey_of_keyChange {location url : String} {oldKey newKey : Key} {s : Signed}
    (h : keyChange location url oldKey newKey = .ok s) :
    s.MovesKey location url oldKey newKey := by
  rw [keyChange_eq] at h
  obtain ⟨a, ha, hmake⟩ := bind_eq_ok.1 h
  obtain ⟨hpayload, htext, hsign⟩ := Signed.signing_of_make hmake
  obtain ⟨halg, hjwk, hkid, hnonce, hurl⟩ := Signed.get?_sparse (.string a.name)
    (some (.object newKey.publicKey.members)) (Signed.textValue none) (Signed.octetsValue none)
    (Signed.textValue (some url))
  constructor
  case isSigned =>
    refine ⟨a, _, ha, ?_, ?_, halg, hjwk, hkid, hnonce, hurl⟩
    · rw [hpayload]
      exact hsign
    · rw [htext, Signed.document_protectedText]
      rfl
  case claims =>
    rw [hpayload]
    exact document_keyChangeClaims location oldKey

/-! ### The outer document -/

/-- Whether a request with a header posts a change from one key to another: it is signed with the
old key in the name of an account, or with the key embedded if there is none, and what it carries
moves the account at the location to the new key, for the same URL. -/
structure Request.ChangesKey (q : Request) (header : Members) (location : String)
    (kid : Option String) (oldKey newKey : Key) : Prop where
  isSigned : ∃ outer nonce, q.body = some outer ∧
    outer.IsRequest outer.payload oldKey nonce q.url kid
  reads : q.header? = some header
  account : header.get? "kid" = Signed.textValue kid
  key : header.get? "jwk" = if kid = none then some (.object oldKey.publicKey.members) else none
  url : header.get? "url" = Signed.textValue (some q.url)
  inner : ∃ outer inner, q.body = some outer ∧ outer.inside? = some inner ∧
    inner.MovesKey location q.url oldKey newKey

/-- A signed request with the inner document for claims changes the key. -/
theorem Request.changesKey_of_isRequest {q : Request} {outer inner : Signed} {nonce : List UInt8}
    {location : String} {kid : Option String} {oldKey newKey : Key} (hbody : q.body = some outer)
    (hrequest : outer.IsRequest (Utf8.encode (Json.object inner.members).canonical) oldKey nonce
      q.url kid)
    (hinner : inner.MovesKey location q.url oldKey newKey) :
    ∃ header, q.ChangesKey header location kid oldKey newKey := by
  obtain ⟨a, -, hheader⟩ := header?_of_isRequest hbody hrequest
  obtain ⟨-, hjwk, hkid, -, hurl⟩ := Signed.get?_sparse (.string a.name)
    (if kid.isNone then some (.object oldKey.publicKey.members) else none) (Signed.textValue kid)
    (Signed.octetsValue (some nonce)) (Signed.textValue (some q.url))
  refine ⟨_, ⟨outer, nonce, hbody, ?_⟩, hheader, hkid, hjwk.trans ?_, hurl, outer, inner, hbody,
    Signed.inside?_of_payload hrequest.payload, hinner⟩
  · rw [hrequest.payload]
    exact hrequest
  · cases kid <;> rfl

/-! ### Requests of a run -/

/-- Whether a client sent some requests of which all signed ones are of a kind. -/
def Client.PostsOnly (P : Request → Prop) (c c' : Client) : Prop :=
  ∃ qs, c.Posts c' qs ∧ ∀ q ∈ qs, P q

namespace Client

variable {P : Request → Prop} {c c₁ c₂ c₃ : Client}

theorem PostsOnly.of_sent (h : c₂.sent = c₁.sent) : PostsOnly P c₁ c₂ :=
  ⟨[], ⟨[], by rw [h, List.append_nil], rfl⟩, by simp⟩

theorem PostsOnly.of_inquires (h : c₁.Inquires c₂) : PostsOnly P c₁ c₂ :=
  ⟨[], h.posts, by simp⟩

theorem PostsOnly.trans (h : PostsOnly P c₁ c₂) (h' : PostsOnly P c₂ c₃) : PostsOnly P c₁ c₃ := by
  obtain ⟨qs, hposts, hall⟩ := h
  obtain ⟨qs', hposts', hall'⟩ := h'
  refine ⟨qs ++ qs', hposts.trans hposts', fun q hq => ?_⟩
  obtain hq | hq := List.mem_append.1 hq
  · exact hall q hq
  · exact hall' q hq

end Client

/-- A signed request posts its envelope only, each time with a nonce. -/
theorem Exchange.postsOnly_sendSigned {P : Request → Prop} (env : Environment)
    (s : Client × Connection) {url wanted : String} {claims : Claims} {signing : Signing}
    (hP : ∀ m nonce document, Envelope.of s.1.session url claims signing wanted = .ok m →
      m.sign nonce = .ok document → P (m.request document)) :
    Client.PostsOnly P s.1 ((sendSigned url claims signing wanted).run env s).2.1 := by
  have hdelivers := delivers_sendSigned env s url claims signing wanted
  cases hof : Envelope.of s.1.session url claims signing wanted with
  | error e =>
    rw [hof] at hdelivers
    have hrun : (sendSigned url claims signing wanted).run env s = (.error e, s) := hdelivers
    rw [hrun]
    exact .of_sent rfl
  | ok m =>
    rw [hof] at hdelivers
    obtain ⟨attempts, hdelivery⟩ := hdelivers
    refine ⟨_, hdelivery.posts, fun q hq => ?_⟩
    obtain ⟨a, ha, rfl⟩ := List.mem_map.1 hq
    exact hP m a.nonce a.document hof (hdelivery.made a ha).signing

namespace Client

variable (env : Environment) {location url : String} {oldKey newKey : Key} {inner : Signed}

/-- The request with the inner document for claims changes the key. -/
theorem postsOnly_sendKeyChange {s : Client × Connection} (hkey : s.1.session.key = some oldKey)
    (hinner : inner.MovesKey location url oldKey newKey) :
    PostsOnly (fun q => ∃ header, q.ChangesKey header location s.1.session.kid oldKey newKey) s.1
      ((Exchange.sendSigned url (.members (Value.ofMembers inner.members)) .session
        Exchange.jsonType).run env s).2.1 := by
  refine Exchange.postsOnly_sendSigned env s fun m nonce document hof hsign => ?_
  obtain ⟨key, payload, hsigning, hpayload, rfl⟩ := Envelope.of_eq_ok.1 hof
  obtain rfl : oldKey = key := Option.some.inj (hkey.symm.trans hsigning)
  obtain rfl := Except.ok.inj (inner.isEnclosedIn_canonical.symm.trans hpayload)
  exact Request.changesKey_of_isRequest rfl (Signed.isRequest_of_request hsign) hinner

/-- Looking up an endpoint leaves the account of the session alone. -/
theorem account_of_endpointUrl {env : Environment} {c c' : Client} {name : String}
    {result : Except Fault String} (h : (endpointUrl name).run env c = (result, c')) :
    c'.session.kid = c.session.kid := by
  have hinquires := inquires_endpointUrl env c name
  rw [h] at hinquires
  have hkid : c'.session.profile.kid = c.session.profile.kid := by rw [hinquires.profile]
  exact hkid

/-- The request is the last thing that is sent. -/
theorem sent_changeKey {env : Environment} {c c₁ : Client}
    (hurl : (endpointUrl Endpoint.keyChange.name).run env c = (.ok url, c₁))
    (hkey : c₁.session.key = some oldKey)
    (hinner : keyChange location url oldKey newKey = .ok inner) :
    ((changeKey location newKey).run env c).2.sent
      = ((Exchange.sendSigned url (.members (Value.ofMembers inner.members)) .session
          Exchange.jsonType).run env (c₁, .idle)).2.1.sent := by
  have hsession : getSession.run env c₁ = (.ok c₁.session, c₁) := rfl
  rw [changeKey, run_bind_of_ok env hurl, run_bind_of_ok env hsession, hkey]
  dsimp only
  rw [run_bind, run_lift, hinner]
  dsimp only
  generalize hresult : ((Exchange.sendSigned url _ _ _).run env (c₁, .idle)).2.1.sent = sent
  refine leads_bind (v := Client.sent) (R := fun _ l => l = sent) (S := Eq) ?_
    (fun _ _ _ => rfl) (fun _ _ h => h) fun _ _ _ h h' => h'.symm.trans h
  rw [connected, run_within]
  refine leads_bind (v := fun s : Client × Connection => s.1.sent) (R := fun _ l => l = sent)
    (S := Eq) hresult (fun _ env s => ?_) (fun _ _ h => h) fun _ _ _ h h' => h'.symm.trans h
  have hreading : (Exchange.accept [200] >>= fun _ => pure () : Exchange Unit).IsReading
      Prod.fst :=
    isReading_bind (Exchange.isReading_accept _) fun _ => isReading_pure ()
  exact (run_of_isReading hreading env s).2.symm

/-- The change of a key posts requests that change it. -/
theorem postsOnly_changeKey (c : Client) (location : String) (newKey : Key) :
    PostsOnly (fun q => ∃ oldKey header, c.session.key = some oldKey ∧
      q.ChangesKey header location c.session.kid oldKey newKey) c
      ((changeKey location newKey).run env c).2 := by
  have hlookup := inquires_endpointUrl env c Endpoint.keyChange.name
  rcases hurl : (endpointUrl Endpoint.keyChange.name).run env c with ⟨e | url, c₁⟩
  · rw [hurl] at hlookup
    rw [changeKey, run_bind_of_error env hurl]
    exact .of_inquires hlookup
  · rw [hurl] at hlookup
    refine PostsOnly.trans (.of_inquires hlookup) ?_
    have hsession : getSession.run env c₁ = (.ok c₁.session, c₁) := rfl
    cases hkey : c₁.session.key with
    | none =>
      rw [changeKey, run_bind_of_ok env hurl, run_bind_of_ok env hsession, hkey]
      exact .of_sent rfl
    | some oldKey =>
      cases hinner : keyChange location url oldKey newKey with
      | error e =>
        rw [changeKey, run_bind_of_ok env hurl, run_bind_of_ok env hsession, hkey]
        dsimp only
        rw [run_bind, run_lift, hinner]
        exact .of_sent rfl
      | ok inner =>
        obtain ⟨qs, hposts, hall⟩ := postsOnly_sendKeyChange env (s := (c₁, .idle)) hkey
          (movesKey_of_keyChange hinner)
        refine PostsOnly.trans ⟨qs, hposts, fun q hq => ?_⟩
          (.of_sent (sent_changeKey hurl hkey hinner))
        obtain ⟨header, hq⟩ := hall q hq
        rw [account_of_endpointUrl hurl] at hq
        exact ⟨oldKey, header, key_of_endpointUrl hurl ▸ hkey, hq⟩

end Client

/-! ### Keys that are changed -/

namespace Exchange

variable {env : Environment} {s : Client × Connection} {url wanted : String} {claims : Claims}
  {signing : Signing} {m : Envelope} {a : Attempt}

/-- An attempt that is made is on record when the request is over. -/
theorem extends_sendSigned (hof : Envelope.of s.1.session url claims signing wanted = .ok m)
    (hstart : a.start = s.1) (ha : a.IsMade env m) :
    (a.posted m).Extends ((sendSigned url claims signing wanted).run env s).2.1 := by
  have hposting : (postOnce url claims signing wanted).Relates Client.Extends Prod.fst :=
    Discipline.covers_record.posting url claims signing wanted
  refine leads_bind (v := Prod.fst) (R := fun _ c => c.sent = (a.posted m).sent)
    (S := Client.Extends) (T := fun _ c => (a.posted m).Extends c)
    (sent_postOnce hof hstart ha) (fun status => ?_) (fun _ _ => .of_sent)
    fun _ _ _ h h' => (Client.Extends.of_sent h).trans h'
  have hagain : (postOnce url claims signing wanted).Moves Client.Extends Prod.fst :=
    fun env s => hposting.run Client.Extends.refl Client.Extends.trans env s
  split
  · refine moves_bind (R := Client.Extends) (fun _ _ _ => .trans)
      (moves_of_isReading (fun _ _ _ => .of_sent) isReading_refusesNonce) fun refused => ?_
    split
    · exact hagain
    · exact fun _ _ => .refl _
  · exact fun _ _ => .refl _

/-- A client with a key that signs and a nonce posts its claims whatever the server does. -/
theorem exists_post_sendSigned (env : Environment) {c : Client} {key : Key} {url wanted : String}
    {claims : Claims} {payload nonce : List UInt8} {rest : List (List UInt8)}
    (hpayload : claims.payload = .ok payload) (hkey : c.session.key = some key) (hsigns : key.Signs)
    (hnonces : c.session.nonces.tokens = nonce :: rest) :
    ∃ q ∈ ((sendSigned url claims .session wanted).run env (c, .idle)).2.1.sent,
      q.method = .post := by
  -- the one attempt that has to be made
  obtain ⟨m, hof, hm⟩ : ∃ m, Envelope.of c.session url claims .session wanted = .ok m ∧
      m.key = key :=
    ⟨_, Envelope.of_eq_ok.2 ⟨key, _, hkey, hpayload, rfl⟩, rfl⟩
  obtain ⟨document, hsign⟩ : ∃ document, m.sign nonce = .ok document :=
    Signed.exists_request (hm ▸ hsigns) m.payload nonce (some m.url) m.kid
  obtain ⟨a, hstart, -, -, ha, -⟩ := exists_attempt (s := (c, .idle)) env hof hsign hnonces
  exact ⟨m.request a.document, (extends_sendSigned (s := (c, .idle)) hof hstart ha).subset
    (by simp [Attempt.posted]), rfl⟩

end Exchange

namespace Client

/-- The inner document can be made for every key that signs. -/
theorem exists_keyChange {newKey : Key} (h : newKey.Signs) (location url : String) (oldKey : Key) :
    ∃ inner, keyChange location url oldKey newKey = .ok inner := by
  obtain ⟨a, ha, hsign⟩ := h
  obtain ⟨inner, hinner⟩ := Signed.exists_make hsign
    (Utf8.encode (Json.object (keyChangeClaims location oldKey)).canonical) none (some url) none
  refine ⟨inner, ?_⟩
  rw [keyChange_eq, ha]
  exact hinner

/-- A client that knows where keys are changed, and has a nonce, posts the change whatever the
server does. -/
theorem exists_post_changeKey (env : Environment) {c : Client} {d : Directory}
    {url location : String} {oldKey newKey : Key} {nonce : List UInt8} {rest : List (List UInt8)}
    (hdirectory : c.session.directory = some d) (hurl : d.url Endpoint.keyChange.name = .ok url)
    (hkey : c.session.key = some oldKey) (hold : oldKey.Signs) (hnew : newKey.Signs)
    (hnonces : c.session.nonces.tokens = nonce :: rest) :
    ∃ q ∈ ((changeKey location newKey).run env c).2.sent, q.method = .post := by
  obtain ⟨inner, hinner⟩ := exists_keyChange hnew location url oldKey
  have hlookup : (endpointUrl Endpoint.keyChange.name).run env c = (.ok url, c) := by
    rw [(knowsDirectory env hdirectory).endpointUrl, hurl]
  rw [sent_changeKey hlookup hkey hinner]
  exact Exchange.exists_post_sendSigned env inner.isEnclosedIn_canonical hkey hold hnonces

/-- What a client posts that had sent nothing is all that is signed on its record. -/
theorem Posts.mem {s : Session} {c : Client} {qs : List Request} {q : Request}
    (h : (ofSession s).Posts c qs) (hq : q ∈ c.sent) (hpost : q.method = .post) : q ∈ qs := by
  obtain ⟨new, hsent, rfl⟩ := h
  rw [hsent] at hq
  exact List.mem_filter.2 ⟨hq, by simpa using hpost⟩

end Client

/-! ### Sample changes -/

def Key.next : Key :=
  .rsa
    ⟨8666162985182327836642489900804584909907005484399847726700072457396738306152463450811816946318278238601482964054651547597092539319991083791071591446880413, 3⟩
    (some ⟨1444360497530387972773748316800764151651167580733307954450012076232789717692046140990008974585950382278671160142235412802765858234385656000674618848461627,
      99561953135164840153782759949572892994382026327209962751724594136289498913573,
      87042918627933962422162169506430308244688754170179950925423192887588857197081,
      66374635423443226769188506633048595329588017551473308501149729424192999275715,
      58028612418622641614774779670953538829792502780119967283615461925059238131387,
      5143079823853095830502438462233029031107424307049809141919656343105922460670⟩)

/-- A session with a nonce that knows where keys are changed. -/
def Session.rollover (kid : Option String) : Session :=
  { Session.sample with
    kid
    nonces := ⟨[[0]]⟩
    directory := some ⟨[("keyChange", .string "https://acme.test/key")],
      ⟨.null, .null, .null, .null⟩⟩ }

/-- In such a session a change of the key is posted. -/
theorem Client.exists_post_rollover (env : Environment) (kid : Option String) (location : String) :
    ∃ q ∈ ((changeKey location .next).run env (ofSession (.rollover kid))).2.sent,
      q.method = .post :=
  exists_post_changeKey env rfl rfl rfl (Key.signs_rsa (by decide +kernel))
    (Key.signs_rsa (by decide +kernel)) rfl

/-! ### The account that a change names -/

theorem Signed.textValue_eq_some {value : Option String} {text : String} :
    textValue value = some (.string text) ↔ value = some text ∧ text ≠ "" := by
  cases value with
  | none => simp [textValue]
  | some s =>
    by_cases hs : s = ""
    · simp [textValue, hs, Option.filter, eq_comm]
    · simp [textValue, hs, Option.filter]
      rintro rfl
      exact hs

theorem ne_empty_of_isAcceptable {location : String} (h : IsAcceptable (some location)) :
    location ≠ "" := by
  rintro rfl
  have hcheck := isAcceptable_some.1 h
  have hrefused : ∃ e, checkUrl (.string "") "location" = .error e := ⟨_, rfl⟩
  obtain ⟨e, he⟩ := hrefused
  rw [he] at hcheck
  cases hcheck

namespace Request.ChangesKey

variable {q : Request} {header : Members} {location kid : String} {oldKey newKey : Key}

/-- In the name of an account the header has that name, which is read as absent when it is empty,
and no key. -/
theorem names_account (h : q.ChangesKey header location (some kid) oldKey newKey)
    (hkid : kid ≠ "") : header.get? "kid" = some (.string kid) ∧ header.get? "jwk" = none :=
  ⟨h.account.trans (Signed.textValue_eq_some.2 ⟨rfl, hkid⟩), h.key⟩

/-- Without an account the header has the key. -/
theorem names_key (h : q.ChangesKey header location none oldKey newKey) :
    header.get? "kid" = none ∧ header.get? "jwk" = some (.object oldKey.publicKey.members) :=
  ⟨h.account, h.key⟩

end Request.ChangesKey

/-- **The change of a key is signed twice.** Every signed request that the change of a key sends,
whatever the session and the new key, is signed with the key that the session has. Its header names
the account of the session if that name is not empty, and embeds the public part of that key if the
session has no account. The request carries a document that is signed with the new key and embeds
its public part, without nonce and account and for the same URL; that document claims the location
of the account and the public part of the key that signs the request. The request names the account
at this location exactly if it is the account of the session. -/
theorem Operation.change_key_posts (env : Environment) (c : Client) (r : Resource)
    (location : String) (newKey : Key) (hlocation : r.location = some location)
    (hplaced : IsAcceptable r.location) :
    ∃ qs, c.Posts ((onResource r (.changeKey newKey)).act.run env c).2 qs ∧
      ∀ q ∈ qs, ∃ oldKey header, c.session.key = some oldKey ∧
        q.ChangesKey header location c.session.kid oldKey newKey ∧
        (∀ kid, c.session.kid = some kid → kid ≠ "" →
          header.get? "kid" = some (.string kid) ∧ header.get? "jwk" = none) ∧
        (c.session.kid = none →
          header.get? "kid" = none ∧
            header.get? "jwk" = some (.object oldKey.publicKey.members)) ∧
        (header.get? "kid" = some (.string location) ↔ c.session.kid = some location) := by
  rw [run_changeKey_of_location hlocation]
  obtain ⟨qs, hposts, hall⟩ := Client.postsOnly_changeKey env c location newKey
  refine ⟨qs, hposts, fun q hq => ?_⟩
  obtain ⟨oldKey, header, hkey, hchanges⟩ := hall q hq
  have hne : location ≠ "" := ne_empty_of_isAcceptable (hlocation ▸ hplaced)
  refine ⟨oldKey, header, hkey, hchanges, fun kid hkid => ?_, fun hnone => ?_, ?_⟩
  · rw [hkid] at hchanges
    exact hchanges.names_account
  · rw [hnone] at hchanges
    exact hchanges.names_key
  · rw [hchanges.account, Signed.textValue_eq_some]
    exact and_iff_left hne

/-- A session for the account at the location posts a change in which both documents name it. -/
theorem Operation.change_key_posts_own_account :
    let env : Environment := ⟨countingServer, fun _ => ⟨0, some 0⟩⟩
    let u := "https://acme.test/acct/1"
    let c := Client.ofSession (.rollover (some u))
    let r : Resource := ⟨.account, some u, [], none⟩
    r.location = some u ∧ IsAcceptable r.location ∧
      ∃ q header, q ∈ ((onResource r (.changeKey .next)).act.run env c).2.sent ∧
        q.method = .post ∧ q.ChangesKey header u (some u) .sample .next ∧
        header.get? "kid" = some (.string u) := by
  intro env u c r
  have hplaced : IsAcceptable r.location :=
    isAcceptable_some.2 (eq_ok_of_toOption (by decide +kernel))
  obtain ⟨qs, hposts, hall⟩ := change_key_posts env c r u .next rfl hplaced
  obtain ⟨q, hq, hpost⟩ := Client.exists_post_rollover env (some u) u
  rw [← run_changeKey_of_location (r := r) rfl] at hq
  obtain ⟨oldKey, header, hkey, hchanges, -, -, hsame⟩ := hall q (hposts.mem hq hpost)
  obtain rfl : Key.sample = oldKey := Option.some.inj hkey
  exact ⟨rfl, hplaced, q, header, hq, hpost, hchanges, hsame.2 rfl⟩

/-- The account that the session names need not be the one whose key is changed: a session without
an account names none, and a session for another account names that one. -/
theorem Operation.change_key_posts_other_account :
    let env : Environment := ⟨countingServer, fun _ => ⟨0, some 0⟩⟩
    let u := "https://acme.test/acct/1"
    let v := "https://acme.test/acct/2"
    let r : Resource := ⟨.account, some u, [], none⟩
    let sent kid :=
      ((onResource r (.changeKey .next)).act.run env (.ofSession (.rollover kid))).2.sent
    IsAcceptable r.location ∧
      (∃ q header, q ∈ sent none ∧ q.method = .post ∧
        q.ChangesKey header u none .sample .next ∧ header.get? "kid" = none) ∧
      (∃ q header, q ∈ sent (some v) ∧ q.method = .post ∧
        q.ChangesKey header u (some v) .sample .next ∧
        header.get? "kid" = some (.string v) ∧ v ≠ u) := by
  intro env u v r sent
  have hchanges kid : ∃ q header, q ∈ sent kid ∧ q.method = .post ∧
      q.ChangesKey header u kid .sample .next := by
    obtain ⟨qs, hposts, hall⟩ :=
      Client.postsOnly_changeKey env (.ofSession (.rollover kid)) u .next
    obtain ⟨q, hq, hpost⟩ := Client.exists_post_rollover env kid u
    obtain ⟨oldKey, header, hkey, hchanges⟩ := hall q (hposts.mem hq hpost)
    obtain rfl : Key.sample = oldKey := Option.some.inj hkey
    rw [← run_changeKey_of_location (r := r) rfl] at hq
    exact ⟨q, header, hq, hpost, hchanges⟩
  refine ⟨isAcceptable_some.2 (eq_ok_of_toOption (by decide +kernel)), ?_, ?_⟩
  · obtain ⟨q, header, hq, hpost, h⟩ := hchanges none
    exact ⟨q, header, hq, hpost, h, h.names_key.1⟩
  · obtain ⟨q, header, hq, hpost, h⟩ := hchanges (some v)
    exact ⟨q, header, hq, hpost, h, (h.names_account (by decide)).1, by decide⟩

end AcmeClient
