import AcmeClient.Proofs.Armour
import AcmeClient.Proofs.Asn1.Elements
import AcmeClient.Proofs.KeyChange
import Mathlib.Data.Bool.AllAny

/-!
# The forms of a signing request

A signing request may be given as it was read, as its octets, or in armour, as text or as octets.
Octets are taken for armour when they start, after white space, with a marker. The octets of a
request start with the tag of a sequence, so they are never taken for armour, and armour is read as
the octets in it, whatever its layout:

* `X509.Request.StandsFor` — the forms of a request;
* `X509.Request.derOf_of_standsFor` — each of them stands for its octets;
* `X509.Request.derOf_octets` — what a form stands for stands for itself;
* `Request.Submits` — a request to the server that submits a signing request;
* `Operation.request_forms_agree` — an order is finalized alike with each form, by requests that
  submit the octets.
-/

namespace AcmeClient

open Act Asn1 Text

namespace X509.Request

variable {r : Request} {form : Form} {der : List UInt8}

/-- Whether a form is one of a request: the request itself, its octets, or its armour under one of
the labels with any layout, perhaps behind white space, as text or as octets. -/
inductive StandsFor (r : Request) : Form → Prop where
  | loaded : StandsFor r (.loaded r)
  | octets : StandsFor r (.octets r.der)
  | armour {label text : String} {front : List Char} : label ∈ labels →
      Pem.IsArmour label r.der text → (∀ c ∈ front, c ∈ Pem.whites) →
      StandsFor r (.octets (Pem.ascii (String.ofList front ++ text)))
  | text {label text : String} {front : List Char} : label ∈ labels →
      Pem.IsArmour label r.der text → (∀ c ∈ front, c ∈ Pem.whites) →
      StandsFor r (.text (String.ofList front ++ text))

/-! ### Octets -/

theorem ofDer?_der (r : Request) : ofDer? r.der = some r :=
  dif_pos r.wellFormed

theorem der_of_ofDer? {bs : List UInt8} (h : ofDer? bs = some r) : r.der = bs := by
  rw [ofDer?] at h
  split at h
  · rw [← Option.some.inj h]
  · cases h

theorem ofOctets_der (r : Request) : ofOctets r.der = .ok r := by
  rw [ofOctets, ofDer?_der]

/-- The octets of a request are one sequence. -/
theorem exists_element (r : Request) : ∃ e, Element.only? r.der = some e ∧ e.tag = 0x30 := by
  have hversion : requestVersion? r.der = some 0 := eq_of_beq r.wellFormed
  rw [requestVersion?] at hversion
  cases hsequence : (Element.only? r.der).bind Element.sequence? with
  | none =>
    rw [hsequence] at hversion
    cases hversion
  | some es =>
    obtain ⟨e, he, hinside⟩ := Option.bind_eq_some_iff.1 hsequence
    refine ⟨e, he, ?_⟩
    rw [Element.sequence?, Element.inside?] at hinside
    split at hinside
    · assumption
    · cases hinside

/-- The octets of a request start with the tag of a sequence. -/
theorem exists_der_eq (r : Request) : ∃ rest, r.der = 0x30 :: rest := by
  obtain ⟨e, he, htag⟩ := exists_element r
  obtain ⟨rest, hder⟩ := Element.exists_of_only? he
  exact ⟨rest, by rw [hder, htag]⟩

/-- Octets of a request are not taken for armour. -/
theorem read_der (r : Request) : read r.der = .ok r := by
  obtain ⟨rest, hder⟩ := exists_der_eq r
  have hplain : (Pem.ascii "-----BEGIN").isPrefixOf
      (r.der.dropWhile fun b => b = 32 || (9 ≤ b && b ≤ 13)) = false := by
    rw [hder]
    rfl
  rw [read, hplain]
  exact ofOctets_der r

/-! ### Armour -/

theorem isLabel_of_mem_labels {label : String} (h : label ∈ labels) : Pem.IsLabel label := by
  simp only [labels, List.mem_cons, List.not_mem_nil, or_false] at h
  obtain rfl | rfl := h
  · exact ⟨by decide, by decide, Pem.isAscii_of_all (by decide)⟩
  · exact ⟨by decide, by decide, Pem.isAscii_of_all (by decide)⟩

/-- The one block of armour holds the request. -/
theorem ofPem_armour {label text : String} {front : List Char} (hlabel : label ∈ labels)
    (htext : Pem.IsArmour label r.der text) (hfront : ∀ c ∈ front, c ∈ Pem.whites) :
    ofPem (Pem.ascii (String.ofList front ++ text)) = .ok r := by
  have hblocks := Pem.blocks?_of_isArmour (isLabel_of_mem_labels hlabel) htext hfront
  rw [ofPem, blockOctets?, hblocks]
  simp [hlabel, ofOctets_der]

/-- What is written for a request is read as it. -/
theorem ofPem_pemOf (r : Request) : ofPem (Pem.ascii (pemOf r.der)) = .ok r := by
  have hfront : String.ofList [] ++ pemOf r.der = pemOf r.der := by simp
  rw [← hfront]
  exact ofPem_armour List.mem_cons_self (Pem.isArmour_block _ _) nofun

/-- Armour behind white space is taken for armour. -/
theorem read_armour {label text : String} {front : List Char} (hlabel : label ∈ labels)
    (htext : Pem.IsArmour label r.der text) (hfront : ∀ c ∈ front, c ∈ Pem.whites) :
    read (Pem.ascii (String.ofList front ++ text)) = .ok r := by
  have hpem := ofPem_armour hlabel htext hfront
  have hmarked : (Pem.ascii "-----BEGIN").isPrefixOf
      ((Pem.ascii (String.ofList front ++ text)).dropWhile fun b => b = 32 || (9 ≤ b && b ≤ 13))
        = true := by
    rw [Pem.ascii_append, List.dropWhile_append_of_pos]
    · obtain ⟨hbody, -⟩ := htext
      rw [Pem.ascii_append, Pem.ascii_armoured]
      rfl
    · intro b hb
      rw [Pem.ascii_ofList] at hb
      obtain ⟨c, hc, rfl⟩ := List.mem_map.1 hb
      have all : Pem.whites.all (fun c => UInt8.ofNat c.toNat = 32 ||
          (9 ≤ UInt8.ofNat c.toNat && UInt8.ofNat c.toNat ≤ 13)) = true := by decide
      exact List.all_eq_true.1 all c (hfront c hc)
  rw [read, hmarked]
  exact hpem

theorem firstForeign?_eq_none {cs : List Char} (h : ∀ c ∈ cs, c.toNat < 128) :
    firstForeign? cs = none := by
  have hnil : cs.dropWhile (fun c => c.toNat < 128) = [] :=
    List.dropWhile_eq_nil_iff.2 fun c hc => by simpa using h c hc
  rw [firstForeign?, hnil]

/-- Each form of a request stands for its octets. -/
theorem derOf_of_standsFor (h : r.StandsFor form) : derOf form = .ok r.der := by
  cases h with
  | loaded => rfl
  | octets => rw [derOf, read_der]; rfl
  | armour hlabel htext hfront => rw [derOf, read_armour hlabel htext hfront]; rfl
  | @text label text front hlabel htext hfront =>
    have hascii : ∀ c ∈ (String.ofList front ++ text).toList, c.toNat < 128 := by
      rw [String.toList_append, String.toList_ofList, List.forall_mem_append]
      exact ⟨fun c hc => (Pem.plain_of_mem_whites (hfront c hc)).1,
        Pem.isAscii_of_isArmour (isLabel_of_mem_labels hlabel) htext⟩
    rw [derOf, firstForeign?_eq_none hascii]
    dsimp only
    rw [read_armour hlabel htext hfront]
    rfl

/-- What a form stands for is the octets of a request. -/
theorem exists_of_derOf (h : derOf form = .ok der) : ∃ r : Request, der = r.der := by
  cases form with
  | loaded r => exact ⟨r, (Except.ok.inj h).symm⟩
  | other kind => cases h
  | octets bs =>
    obtain ⟨r, -, hr⟩ := map_eq_ok.1 h
    exact ⟨r, hr.symm⟩
  | text s =>
    rw [derOf] at h
    split at h
    · cases h
    · obtain ⟨r, -, hr⟩ := map_eq_ok.1 h
      exact ⟨r, hr.symm⟩

/-- What a form stands for stands for itself. -/
theorem derOf_octets (h : derOf form = .ok der) : derOf (.octets der) = .ok der := by
  obtain ⟨r, rfl⟩ := exists_of_derOf h
  exact derOf_of_standsFor .octets

end X509.Request

/-! ### What is posted -/

/-- Whether a request to the server submits a signing request with some octets: the document that it
posts has these as its only member. -/
def Request.Submits (q : Request) (der : List UInt8) : Prop :=
  ∃ s, q.signed? = some s ∧
    (Body.octets s.payload).document = .ok [("csr", .string (Base64.encode der))]

/-- The claims that submit a signing request. -/
theorem payload_csr (der : List UInt8) :
    (Claims.draft (DraftBook.empty.putOctets 0 "csr" der)).payload
      = .ok (Utf8.encode (Json.object [("csr", .string (Base64.encode der))]).canonical) := by
  have hdocument : (DraftBook.empty.putOctets 0 "csr" der).document
      = .ok (.object [("csr", .string (Base64.encode der))]) :=
    Value.toJson_ofJson (.object [("csr", .string (Base64.encode der))])
  rw [Claims.payload, Claims.text, DraftBook.text, hdocument]
  rfl

theorem document_csr (der : List UInt8) :
    (Body.octets (Utf8.encode
        (Json.object [("csr", .string (Base64.encode der))]).canonical)).document
      = .ok [("csr", .string (Base64.encode der))] := by
  have hlegible : Json.Legible (.object [("csr", .string (Base64.encode der))]) :=
    ⟨by simp, by simp [Json.LegibleMembers, Json.Legible]⟩
  rw [Body.document_canonical hlegible]
  simp [Json.arrangedMembers, Json.arranged, Json.Layout.order, Json.Layout.canonical]

/-- Each of the requests that send claims carries their payload. -/
theorem Exchange.postsOnly_payload {P : Request → Prop} (env : Environment)
    (s : Client × Connection) {url wanted : String} {claims : Claims} {signing : Signing}
    (hP : ∀ q document, q.url = url → q.signed? = some document →
      claims.payload = .ok document.payload → P q) :
    Client.PostsOnly P s.1 ((sendSigned url claims signing wanted).run env s).2.1 := by
  refine postsOnly_sendSigned env s fun m nonce document hof hsign => ?_
  obtain ⟨key, payload, -, hpayload, rfl⟩ := Envelope.of_eq_ok.1 hof
  refine hP _ document rfl (Request.signed?_of_body rfl) ?_
  rw [(Signed.isRequest_of_request hsign).payload]
  exact hpayload

/-- The answer to claims is read where it is. -/
theorem Client.sent_posted (env : Environment) (c : Client) (url : String) (claims : Claims)
    (codes : List Int) : ((posted url claims codes).run env c).2.sent
      = ((Exchange.sendSigned url claims .session Exchange.jsonType).run env
          (c, .idle)).2.1.sent := by
  rw [posted, connected, run_within]
  generalize hresult : ((Exchange.sendSigned url _ _ _).run env (c, .idle)).2.1.sent = sent
  refine leads_bind (v := fun s : Client × Connection => s.1.sent) (R := fun _ l => l = sent)
    (S := Eq) hresult (fun _ env s => ?_) (fun _ _ h => h) fun _ _ _ h h' => h'.symm.trans h
  have hreading : (Exchange.accept codes >>= fun _ => Exchange.answer).IsReading Prod.fst :=
    isReading_bind (Exchange.isReading_accept codes) fun _ => Exchange.isReading_answer
  exact (run_of_isReading hreading env s).2.symm

namespace Loading

variable (env : Environment) (c : Client) (order : Resource)

theorem sent_post (url : String) (claims : Claims) (codes : List Int) :
    ((post url claims codes).run env (c, order)).2.1.sent
      = ((Client.posted url claims codes).run env c).2.sent := by
  rw [run_post]
  rcases (Client.posted url claims codes).run env c with ⟨e | ⟨ms, t⟩, c'⟩
  · rfl
  · dsimp only
    cases order.load ms <;> rfl

/-- An order is finalized by sending the octets that a form stands for to the URL for it. -/
theorem run_finalize {form : X509.Request.Form} {der : List UInt8}
    (h : X509.Request.derOf form = .ok der) : (finalize form).run env (c, order) =
      match order.finalizeUrl with
      | .error e => (.error e, (c, order))
      | .ok none => (.error (.protocol (.missing "finalize")), (c, order))
      | .ok (some url) => (post url (.draft (DraftBook.empty.putOctets 0 "csr" der)) [200]).run env
          (c, order) := by
  have hresource : resource.run env (c, order) = (.ok order, (c, order)) := rfl
  rw [finalize, h, run_bind, run_lift]
  dsimp only [Except.mapError]
  rw [run_bind_of_ok env hresource, run_bind, run_lift]
  rcases order.finalizeUrl with e | (_ | url) <;> rfl

/-- What is posted to finalize an order submits the octets that a form stands for. -/
theorem postsOnly_finalize {form : X509.Request.Form} {der : List UInt8}
    (h : X509.Request.derOf form = .ok der) :
    Client.PostsOnly (fun q => order.finalizeUrl = .ok (some q.url) ∧ q.Submits der) c
      ((finalize form).run env (c, order)).2.1 := by
  rw [run_finalize env c order h]
  rcases hurl : order.finalizeUrl with e | (_ | url)
  · exact .of_sent rfl
  · exact .of_sent rfl
  · dsimp only
    refine .trans
      (Exchange.postsOnly_payload env (c, .idle) fun q document hq hsigned hpayload => ?_)
      (.of_sent ((sent_post env c order url _ _).trans (Client.sent_posted env c url _ _)))
    rw [payload_csr] at hpayload
    refine ⟨by rw [hq], document, hsigned, ?_⟩
    rw [← Except.ok.inj hpayload]
    exact document_csr der

end Loading

theorem Operation.run_finalize (env : Environment) (c : Client) (order : Resource)
    (form : X509.Request.Form) : ((onResource order (.load (.finalize form))).act.run env c).2
      = ((Loading.finalize form).run env (c, order)).2.1 :=
  congrArg Prod.snd (run_within env order (Loading.finalize form) c)

/-- A client with a key that signs and a nonce submits a signing request whatever the server
does. -/
theorem Operation.exists_post_finalize (env : Environment) {c : Client} {order : Resource}
    {form : X509.Request.Form} {der nonce : List UInt8} {rest : List (List UInt8)} {key : Key}
    {url : String} (hder : X509.Request.derOf form = .ok der)
    (hurl : order.finalizeUrl = .ok (some url)) (hkey : c.session.key = some key)
    (hsigns : key.Signs) (hnonces : c.session.nonces.tokens = nonce :: rest) :
    ∃ q ∈ ((onResource order (.load (.finalize form))).act.run env c).2.sent, q.method = .post := by
  rw [run_finalize, Loading.run_finalize env c order hder, hurl]
  dsimp only
  rw [Loading.sent_post, Client.sent_posted]
  exact Exchange.exists_post_sendSigned env (payload_csr der) hkey hsigns hnonces

/-- **All forms of a request submit the same octets.** Every form of a signing request stands for
its octets, and what any form stands for stands for itself. Whatever the server does, an order is
finalized with a form of a request as it is with the request itself, and what is posted goes to the
URL for it and submits the octets of the request. -/
theorem Operation.request_forms_agree (r : X509.Request) (form : X509.Request.Form) :
    (∀ der, X509.Request.derOf form = .ok der → X509.Request.derOf (.octets der) = .ok der) ∧
    (r.StandsFor form →
      X509.Request.derOf form = .ok r.der ∧
      ∀ (env : Environment) (c : Client) (order : Resource),
        (onResource order (.load (.finalize form))).act.run env c
          = (onResource order (.load (.finalize (.loaded r)))).act.run env c ∧
        ∃ qs, c.Posts ((onResource order (.load (.finalize form))).act.run env c).2 qs ∧
          ∀ q ∈ qs, order.finalizeUrl = .ok (some q.url) ∧ q.Submits r.der) := by
  refine ⟨fun der => X509.Request.derOf_octets, fun h => ?_⟩
  have hder := X509.Request.derOf_of_standsFor h
  refine ⟨hder, fun env c order => ⟨?_, ?_⟩⟩
  · have hsame : Loading.finalize form = Loading.finalize (.loaded r) := by
      rw [Loading.finalize, Loading.finalize, hder, X509.Request.derOf]
    exact congrArg (fun x => (within order x).run env c) hsame
  · rw [run_finalize]
    exact Loading.postsOnly_finalize env c order hder

/-- A request without names, for a key of no known kind. -/
def X509.Request.sample : X509.Request where
  der :=
    let algorithm := sequenceOf [element 0x06 [0x2b, 0x65, 0x70]]
    sequenceOf [sequenceOf [element 0x02 [0], sequenceOf [],
        sequenceOf [algorithm, element 0x03 [0, 1]], element 0xa0 []],
      algorithm, element 0x03 [0, 2]]
  wellFormed := by decide +kernel

/-- The armour of the request behind white space, in two lines that end in two characters. -/
def X509.Request.sampleText : String :=
  "\r\n\t-----BEGIN NEW CERTIFICATE REQUEST-----\r\nMCEwFAIBADAAMAswBQYDK2VwAwIA\r\n" ++
    "  AaAAMAUGAytlcAMCAAI=\r\n-----END NEW CERTIFICATE REQUEST-----"

/-- An order that names the URL for the signing request. -/
def Resource.sampleOrder : Resource :=
  ⟨.order, some "https://acme.test/order/1",
    [("finalize", .string "https://acme.test/order/1/finalize")], none⟩

theorem X509.Request.standsFor_sampleText :
    sample.StandsFor (.octets (Pem.ascii sampleText)) ∧ sample.StandsFor (.text sampleText) := by
  have hspread : Pem.IsSpread (Base64.encodePadded sample.der).toList
      "\r\nMCEwFAIBADAAMAswBQYDK2VwAwIA\r\n  AaAAMAUGAytlcAMCAAI=\r\n".toList :=
    ⟨Base64.mem_alphabet_of_isPadded (Base64.isPadded_encodePadded sample.der),
      by decide +kernel, List.all_iff_forall_prop.1 (by decide +kernel), by decide +kernel⟩
  have harmour : Pem.IsArmour "NEW CERTIFICATE REQUEST" sample.der _ := .mk [] hspread nofun
  have hfront : ∀ c ∈ "\r\n\t".toList, c ∈ Pem.whites := by simp [Pem.whites]
  have hoctets := StandsFor.armour (by decide) harmour hfront
  have htext := StandsFor.text (by decide) harmour hfront
  have hsample : String.ofList "\r\n\t".toList ++ (Pem.armoured "NEW CERTIFICATE REQUEST"
      "\r\nMCEwFAIBADAAMAswBQYDK2VwAwIA\r\n  AaAAMAUGAytlcAMCAAI=\r\n".toList ++ String.ofList [])
        = sampleText := by decide +kernel
  rw [hsample] at hoctets htext
  exact ⟨hoctets, htext⟩

/-- The text is finalized with as the request is, and the octets of the request are posted. -/
theorem Operation.request_forms_agree_sample :
    let r := X509.Request.sample
    let form : X509.Request.Form := .text X509.Request.sampleText
    let c := Client.ofSession { Session.sample with nonces := ⟨[[0]]⟩ }
    let submission form : Operation := .onResource .sampleOrder (.load (.finalize form))
    r.StandsFor form ∧ X509.Request.derOf form = .ok r.der ∧
      (submission form).act.run countingEnvironment c
        = (submission (.loaded r)).act.run countingEnvironment c ∧
      ∃ q ∈ ((submission form).act.run countingEnvironment c).2.sent,
        q.method = .post ∧ q.Submits r.der := by
  intro r form c submission
  have hform : r.StandsFor form := X509.Request.standsFor_sampleText.2
  obtain ⟨hder, hsame⟩ := (request_forms_agree r form).2 hform
  obtain ⟨hrun, qs, hposts, hall⟩ := hsame countingEnvironment c .sampleOrder
  have hurl : Resource.sampleOrder.finalizeUrl = .ok (some "https://acme.test/order/1/finalize") :=
    eq_ok_of_toOption (by decide +kernel)
  obtain ⟨q, hq, hpost⟩ := exists_post_finalize countingEnvironment (c := c) hder hurl rfl
    (Key.signs_rsa (by decide +kernel)) rfl
  dsimp only [submission]
  exact ⟨hform, hder, hrun, q, hq, hpost, (hall q (hposts.mem hq hpost)).2⟩

end AcmeClient
