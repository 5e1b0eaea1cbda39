import AcmeClient.Operation
import AcmeClient.Proofs.Reading

/-!
# Disciplines for all operations

Every operation of a client is put together from a few acts on the session: reading, keeping a
directory, sending a request, signed or not, and at the end a change of key or account. A discipline
that covers these covers all operations, so the operations are taken apart here once:

* `Discipline.Permits` — what the directory takes: reading, keeping it, and requests that are not
  signed;
* `Discipline.Serves` — what the other requests take besides: nonces and signatures;
* `Discipline.Covers` — what the remaining operations take: changes of the session at the end;
* `Act.Keeps` — an act that leaves its account as it found it;
* `Serves.follows_unchanging` and `Covers.follows_operation` — every operation follows a
  discipline that covers the acts of a client, and most need no change of the session.
-/

namespace AcmeClient

open Act

variable {γ σ τ α β : Type} {d : Discipline γ Client} {ready : γ → Prop} {client : σ → Client}

/-- Whether an act follows a discipline and leaves an account that is ready as it found it. -/
def Act.Keeps (d : Discipline γ Client) (ready : γ → Prop) (client : σ → Client) (x : Act σ α) :
    Prop :=
  ∀ g, ready g → x.Follows (d.onto client) (fun _ g' => g' = g) g

/-- What the directory takes: readings, keeping a directory, and requests that are not signed. -/
structure Discipline.Permits (d : Discipline γ Client) (ready : γ → Prop) : Prop where
  reading : ∀ env g c c', c'.session = c.session → c'.sent = c.sent → d.allows env g c g c'
  learning : ∀ directory, (Client.modifySession fun s => { s with directory }).Keeps d ready id
  asking : ∀ url wanted, (Exchange.sendPlain url wanted).Keeps d ready Prod.fst

/-- What requests take: nonces may be taken, and requests be signed and sent. -/
structure Discipline.Serves (d : Discipline γ Client) (ready : γ → Prop) : Prop extends
    d.Permits ready where
  taking : ∀ g, ready g → Client.takeNonce.Follows d (fun _ _ => True) g
  fetching : ∀ url g, ready g →
    (Exchange.fetchNonce url).Follows (d.onto Prod.fst) (fun _ _ => True) g
  posting : ∀ url claims signing wanted,
    (Exchange.postOnce url claims signing wanted).Keeps d ready Prod.fst

/-- What all operations take: in the end key and account may change. -/
structure Discipline.Covers (d : Discipline γ Client) (ready : γ → Prop) : Prop extends
    d.Serves ready where
  changing : ∀ f : Session → Session, (∀ s, (f s).nonces = s.nonces) → ∀ g, ready g →
    (Client.modifySession f).Follows d (fun _ _ => True) g

/-! ### Operations that may change key or account -/

/-- Whether an operation may change the key of the session. -/
def ResourceOperation.changesIdentity : ResourceOperation → Bool
  | .changeKey _ => true
  | _ => false

/-- Whether an operation may change the key or the account of the session. -/
def Operation.changesIdentity : Operation → Bool
  | .assign .. => true
  | .login .. => true
  | .createAccount _ => true
  | .onResource _ o => o.changesIdentity
  | _ => false

/-! ### Acts that leave the account as it is -/

namespace Act

theorem keeps_pure (a : α) : (pure a : Act σ α).Keeps d ready client :=
  fun _ _ => follows_pure rfl

theorem keeps_throw (e : Fault) : (throw e : Act σ α).Keeps d ready client :=
  fun _ _ => follows_throw e

theorem keeps_lift (r : Except Fault α) : (liftM r : Act σ α).Keeps d ready client :=
  fun _ _ => follows_lift r fun _ _ => rfl

theorem keeps_bind {x : Act σ α} {y : α → Act σ β} (hx : x.Keeps d ready client)
    (hy : ∀ a, (y a).Keeps d ready client) : (x >>= y).Keeps d ready client := by
  intro g hg
  refine follows_bind (hx g hg) fun a g' hg' => ?_
  rw [hg']
  exact hy a g hg

theorem keeps_tryCatch {x : Act σ α} {y : Fault → Act σ α} (hx : x.Keeps d ready client)
    (hy : ∀ e g g', (y e).Follows (d.onto client) (fun _ g'' => g'' = g) g') :
    (tryCatch x y).Keeps d ready client :=
  fun g hg => follows_tryCatch (hx g hg) fun e g' => hy e g g'

theorem keeps_onFirst {x : Act Client α} (hx : x.Keeps d ready id) :
    (onFirst x : Act (Client × τ) α).Keeps d ready Prod.fst :=
  fun g hg => follows_onFirst (hx g hg)

theorem keeps_within {x : Act (Client × τ) α} (t : τ) (hx : x.Keeps d ready Prod.fst) :
    (within t x).Keeps d ready id :=
  fun g hg => follows_within t (hx g hg)

/-- What follows an act that leaves its account as it is starts with the same account. -/
theorem follows_then {x : Act σ α} {y : α → Act σ β} {Q : β → γ → Prop}
    (hx : x.Keeps d ready client) {g : γ} (hg : ready g)
    (hy : ∀ a, (y a).Follows (d.onto client) Q g) : (x >>= y).Follows (d.onto client) Q g := by
  refine follows_bind (hx g hg) fun a g' hg' => ?_
  rw [hg']
  exact hy a

theorem Keeps.follows {x : Act σ α} (hx : x.Keeps d ready client) {g : γ} (hg : ready g) :
    x.Follows (d.onto client) (fun _ _ => True) g :=
  follows_mono (hx g hg) fun _ _ _ => trivial

end Act

/-! ### The directory -/

namespace Discipline.Permits

theorem keeps_of_isReading (hd : d.Permits ready) {x : Act σ α} (hx : x.IsReading client) :
    x.Keeps d ready client :=
  fun g _ => follows_of_isReading hd.reading hx g

theorem keeps_fetchDirectory (hd : d.Permits ready) (url : String) :
    (Client.fetchDirectory url).Keeps d ready Prod.fst := by
  refine keeps_bind (hd.asking url _) fun _ => ?_
  have haccept : (Exchange.accept [200]).Keeps d ready Prod.fst :=
    hd.keeps_of_isReading (Exchange.isReading_accept _)
  refine keeps_bind (keeps_tryCatch (keeps_bind haccept fun _ => keeps_pure _) ?_) fun _ =>
    hd.keeps_of_isReading Exchange.isReading_readJson
  -- a refusal is only worded anew
  intro e g g'
  split
  · exact follows_throw _
  · exact follows_throw _

theorem keeps_directory (hd : d.Permits ready) : Client.directory.Keeps d ready id := by
  refine keeps_bind (hd.keeps_of_isReading Client.isReading_getSession) fun session => ?_
  split
  · exact keeps_pure _
  · refine keeps_bind (keeps_within _ (hd.keeps_fetchDirectory _)) fun ms => ?_
    refine keeps_bind (keeps_lift _) fun directory => ?_
    exact keeps_bind (hd.learning _) fun _ => keeps_pure _

theorem keeps_endpointUrl (hd : d.Permits ready) (name : String) :
    (Client.endpointUrl name).Keeps d ready id :=
  keeps_bind hd.keeps_directory fun _ => keeps_lift _

end Discipline.Permits

/-! ### Acts with signed requests -/

namespace Discipline.Serves

variable (hd : d.Serves ready)
include hd

theorem keeps_of_isReading {x : Act σ α} (hx : x.IsReading client) : x.Keeps d ready client :=
  hd.toPermits.keeps_of_isReading hx

theorem keeps_accept (codes : List Int) : (Exchange.accept codes).Keeps d ready Prod.fst :=
  hd.keeps_of_isReading (Exchange.isReading_accept codes)

theorem keeps_sendSigned (url : String) (claims : Claims) (signing : Exchange.Signing)
    (wanted : String) : (Exchange.sendSigned url claims signing wanted).Keeps d ready Prod.fst := by
  refine keeps_bind (hd.posting url claims signing wanted) fun status => ?_
  split
  · refine keeps_bind (hd.keeps_of_isReading Exchange.isReading_refusesNonce) fun refused => ?_
    split
    · exact hd.posting url claims signing wanted
    · exact keeps_pure _
  · exact keeps_pure _

theorem keeps_fetch (url wanted : String) : (Exchange.fetch url wanted).Keeps d ready Prod.fst := by
  refine keeps_bind (keeps_onFirst (hd.keeps_of_isReading Client.isReading_getSession))
    fun session => ?_
  split
  · exact hd.keeps_sendSigned _ _ _ _
  · exact hd.asking _ _

theorem keeps_fetched (url : String) : (Client.fetched url).Keeps d ready id :=
  keeps_within _ (keeps_bind (hd.keeps_fetch _ _) fun _ =>
    keeps_bind (hd.keeps_accept _) fun _ => hd.keeps_of_isReading Exchange.isReading_answer)

theorem keeps_posted (url : String) (claims : Claims) (codes : List Int) :
    (Client.posted url claims codes).Keeps d ready id :=
  keeps_within _ (keeps_bind (hd.keeps_sendSigned _ _ _ _) fun _ =>
    keeps_bind (hd.keeps_accept _) fun _ => hd.keeps_of_isReading Exchange.isReading_answer)

theorem keeps_requested (endpoint : Endpoint) (b : DraftBook) (kind : ResourceKind)
    (name : String) : (Client.requested endpoint b kind name).Keeps d ready id :=
  keeps_within _ (keeps_bind (keeps_onFirst (hd.toPermits.keeps_endpointUrl _)) fun _ =>
    keeps_bind (hd.keeps_sendSigned _ _ _ _) fun _ =>
      keeps_bind (hd.keeps_accept _) fun _ =>
        hd.keeps_of_isReading (Exchange.isReading_created kind name))

theorem keeps_bindResource (kind : ResourceKind) (registry : Registry) (location : Json) :
    (Client.bind kind registry location).Keeps d ready id :=
  keeps_bind (keeps_lift _) fun _ => keeps_bind (hd.keeps_fetched _) fun _ =>
    keeps_bind (keeps_lift _) fun _ => keeps_bind (keeps_lift _) fun _ => keeps_pure _

theorem keeps_registered (b : DraftBook) : (Client.connected do
    let url ← onFirst (Client.endpointUrl Endpoint.newAccount.name)
    let _ ← Exchange.sendSigned url (.draft b) ⟨none, false⟩ Exchange.jsonType
    let _ ← Exchange.accept [200, 201]
    Exchange.created .account "account").Keeps d ready id :=
  keeps_within _ (keeps_bind (keeps_onFirst (hd.toPermits.keeps_endpointUrl _)) fun _ =>
    keeps_bind (hd.keeps_sendSigned _ _ _ _) fun _ =>
      keeps_bind (hd.keeps_accept _) fun _ =>
        hd.keeps_of_isReading (Exchange.isReading_created _ _))

theorem keeps_accepted (url : String) (claims : Claims) (codes : List Int) : (Client.connected do
    let _ ← Exchange.sendSigned url claims .session Exchange.jsonType
    let _ ← Exchange.accept codes).Keeps d ready id :=
  keeps_within _ (keeps_bind (hd.keeps_sendSigned _ _ _ _) fun _ =>
    keeps_bind (hd.keeps_accept _) fun _ => keeps_pure _)

theorem keeps_newOrder (identifiers : Value) (notBefore notAfter : Option Value) :
    (Client.newOrder identifiers notBefore notAfter).Keeps d ready id :=
  keeps_bind (keeps_lift _) fun _ => hd.keeps_requested _ _ _ _

theorem keeps_preAuthorize (identifier : Value) :
    (Client.preAuthorize identifier).Keeps d ready id :=
  keeps_bind (keeps_lift _) fun _ => hd.keeps_requested _ _ _ _

theorem keeps_orderPage (url : String) : (Client.orderPage url).Keeps d ready id :=
  keeps_within _ (keeps_bind (hd.keeps_fetch _ _) fun _ =>
    keeps_bind (hd.keeps_accept _) fun _ =>
      keeps_bind (hd.keeps_of_isReading Exchange.isReading_readJson) fun _ =>
        keeps_bind (keeps_lift _) fun _ => keeps_bind (keeps_lift _) fun _ =>
          keeps_bind (hd.keeps_of_isReading (Exchange.isReading_links _)) fun _ => keeps_pure _)

theorem keeps_ordersFrom (limit : Nat) (visited : List String) (url : Option String) :
    (Client.ordersFrom limit visited url).Keeps d ready id := by
  induction limit generalizing visited url with
  | zero =>
    cases url with
    | none => exact keeps_pure _
    | some url =>
      unfold Client.ordersFrom
      split
      · exact keeps_pure _
      · exact keeps_pure _
  | succ limit ih =>
    cases url with
    | none => exact keeps_pure _
    | some url =>
      unfold Client.ordersFrom
      split
      · exact keeps_pure _
      · exact keeps_bind (hd.keeps_orderPage url) fun _ => keeps_bind (ih _ _) fun _ =>
          keeps_pure _

theorem keeps_revoke (c : X509.Certificate) (reason : Json) (key : Option Key) :
    (Client.revoke c reason key).Keeps d ready id :=
  keeps_bind (keeps_lift _) fun _ =>
    keeps_bind (hd.toPermits.keeps_endpointUrl _) fun _ =>
      keeps_within _ (keeps_bind (hd.keeps_sendSigned _ _ _ _) fun _ =>
        keeps_bind (hd.keeps_accept _) fun _ => keeps_pure _)

/-! ### Operations on a resource -/

theorem keeps_post (url : String) (claims : Claims) (codes : List Int) :
    (Loading.post url claims codes).Keeps d ready Prod.fst :=
  keeps_bind (keeps_onFirst (hd.keeps_posted _ _ _)) fun _ =>
    hd.keeps_of_isReading (Loading.isReading_adopt _ _)

theorem keeps_postHere (claims : Claims) (codes : List Int) :
    (Loading.postHere claims codes).Keeps d ready Prod.fst :=
  keeps_bind (hd.keeps_of_isReading Loading.isReading_requireLocation) fun _ =>
    hd.keeps_post _ _ _

theorem keeps_update : Loading.update.Keeps d ready Prod.fst := by
  refine keeps_bind (hd.keeps_of_isReading Loading.isReading_requireLocation) fun url => ?_
  refine keeps_bind (keeps_onFirst (hd.keeps_fetched url)) fun answer => ?_
  refine keeps_bind (hd.keeps_of_isReading (Loading.isReading_adopt _ _)) fun _ => ?_
  split
  · exact keeps_bind (hd.keeps_of_isReading Loading.isReading_resource) fun _ => keeps_throw _
  · exact keeps_pure _

theorem keeps_loading (o : LoadingOperation) : o.act.Keeps d ready Prod.fst := by
  cases o with
  | unmarshall ms => exact hd.keeps_of_isReading (Loading.isReading_unmarshall ms)
  | update => exact hd.keeps_update
  | trigger =>
    exact keeps_bind (hd.keeps_of_isReading (Loading.isReading_respond _)) fun _ =>
      hd.keeps_postHere _ _
  | finalize form =>
    refine keeps_bind (keeps_lift _) fun der => ?_
    refine keeps_bind (hd.keeps_of_isReading Loading.isReading_resource) fun r => ?_
    refine keeps_bind (keeps_lift _) fun url => ?_
    split
    · exact keeps_throw _
    · exact hd.keeps_post _ _ _
  | deactivate => exact keeps_bind (keeps_lift _) fun _ => hd.keeps_postHere _ _
  | modify contact =>
    exact keeps_bind (keeps_lift _) fun _ => keeps_bind (keeps_lift _) fun _ =>
      hd.keeps_postHere _ _

/-! ### Operations on a certificate -/

theorem keeps_download : Holding.download.Keeps d ready Prod.fst := by
  have hdownloaded : ∀ url, (Holding.downloaded url).Keeps d ready Prod.fst := fun url =>
    keeps_bind (hd.keeps_fetch _ _) fun _ => keeps_bind (hd.keeps_accept _) fun _ =>
      keeps_bind (hd.keeps_of_isReading Exchange.isReading_readCertificates) fun _ =>
        keeps_bind (hd.keeps_of_isReading (Exchange.isReading_links _)) fun _ => keeps_pure _
  refine keeps_bind (hd.keeps_of_isReading Holding.isReading_resource) fun r => ?_
  refine keeps_bind (keeps_lift _) fun url => ?_
  refine keeps_bind (keeps_onFirst (keeps_within _ (hdownloaded url))) fun _ => ?_
  exact hd.keeps_of_isReading (isReading_modify fun _ => ⟨rfl, rfl⟩)

theorem keeps_ensure : Holding.ensure.Keeps d ready Prod.fst := by
  refine keeps_bind (hd.keeps_of_isReading Holding.isReading_resource) fun r => ?_
  split
  · exact hd.keeps_download
  · exact keeps_pure _

theorem keeps_chain : Holding.chain.Keeps d ready Prod.fst :=
  keeps_bind hd.keeps_ensure fun _ =>
    keeps_bind (hd.keeps_of_isReading Holding.isReading_resource) fun _ => keeps_pure _

theorem keeps_leaf : Holding.leaf.Keeps d ready Prod.fst := by
  refine keeps_bind hd.keeps_chain fun chain => ?_
  split
  · exact keeps_pure _
  · exact keeps_throw _

theorem keeps_alternates : Holding.alternates.Keeps d ready Prod.fst :=
  keeps_bind hd.keeps_ensure fun _ =>
    keeps_bind (hd.keeps_of_isReading Holding.isReading_resource) fun _ => keeps_pure _

theorem keeps_certificate (o : CertificateOperation) : o.act.Keeps d ready Prod.fst := by
  cases o with
  | bindTo location => exact hd.keeps_of_isReading (Holding.isReading_bindTo location)
  | download => exact hd.keeps_download
  | chain => exact keeps_bind hd.keeps_chain fun _ => keeps_pure _
  | leaf => exact keeps_bind hd.keeps_leaf fun _ => keeps_pure _
  | alternates => exact keeps_bind hd.keeps_alternates fun _ => keeps_pure _
  | alternateCertificates =>
    refine keeps_bind (keeps_bind hd.keeps_alternates fun urls => ?_) fun _ => keeps_pure _
    exact hd.keeps_of_isReading (isReading_mapM (fun _ => isReading_lift _) urls)
  | writtenChain =>
    exact keeps_bind (keeps_bind hd.keeps_chain fun _ => keeps_pure _) fun _ => keeps_pure _
  | revoke reason =>
    exact keeps_bind hd.keeps_leaf fun _ => keeps_onFirst (hd.keeps_revoke _ _ _)

/-! ### Operations that leave key and account alone -/

theorem follows_connection (o : ConnectionOperation) {g : γ} (hg : ready g) :
    o.act.Follows (d.onto Prod.fst) (fun _ _ => True) g := by
  have reads : ∀ {β : Type} {x : Exchange β}, x.IsReading Prod.fst →
      (do let _ ← x : Exchange Unit).Follows (d.onto Prod.fst) (fun _ _ => True) g := fun hx =>
    follows_then (hd.keeps_of_isReading hx) hg fun _ => follows_pure trivial
  cases o with
  | sendPlain url wanted => exact follows_then (hd.asking _ _) hg fun _ => follows_pure trivial
  | sendSigned url claims signing wanted =>
    exact follows_then (hd.keeps_sendSigned _ _ _ _) hg fun _ => follows_pure trivial
  | fetchNonce url => exact follows_bind (hd.fetching url g hg) fun _ _ _ => follows_pure trivial
  | accept codes => exact reads (Exchange.isReading_accept codes)
  | readJson => exact reads Exchange.isReading_readJson
  | readCertificates => exact reads Exchange.isReading_readCertificates
  | links relation => exact reads (Exchange.isReading_links relation)
  | location => exact reads Exchange.isReading_location
  | retryAfter => exact reads Exchange.isReading_retryAfter
  | refuseEarly message =>
    exact (hd.keeps_of_isReading (Exchange.isReading_refuseEarly message)).follows hg
  | nonce => exact reads Exchange.isReading_nonce
  | close => exact (hd.keeps_of_isReading Exchange.isReading_close).follows hg

theorem follows_resource {o : ResourceOperation} (ho : o.changesIdentity = false) {g : γ}
    (hg : ready g) : o.act.Follows (d.onto Prod.fst) (fun _ _ => True) g := by
  cases o with
  | load o => exact (hd.keeps_loading o).follows hg
  | bindTo location => exact (hd.keeps_of_isReading (Loading.isReading_bindTo location)).follows hg
  | respond b =>
    exact follows_then (hd.keeps_of_isReading (Loading.isReading_respond b)) hg fun _ =>
      follows_pure trivial
  | orders limit =>
    refine follows_then (keeps_bind (hd.keeps_of_isReading Loading.isReading_resource) fun r => ?_)
      hg fun _ => follows_pure trivial
    exact keeps_bind (keeps_lift _) fun url => keeps_onFirst (hd.keeps_ordersFrom limit [] url)
  | changeKey newKey => cases ho

/-- An operation that leaves key and account alone needs no change of the session. -/
theorem follows_unchanging {o : Operation} (ho : o.changesIdentity = false) {g : γ}
    (hg : ready g) : o.act.Follows d (fun _ _ => True) g := by
  have keeps : ∀ {β : Type} {x : Act Client β}, x.Keeps d ready id →
      (do let _ ← x : Act Client Unit).Follows d (fun _ _ => True) g := fun hx =>
    follows_then hx hg fun _ => follows_pure trivial
  cases o with
  | assign | login | createAccount => cases ho
  | directory => exact keeps hd.toPermits.keeps_directory
  | endpointUrl name => exact keeps (hd.toPermits.keeps_endpointUrl name)
  | takeNonce => exact follows_bind (hd.taking g hg) fun _ _ _ => follows_pure trivial
  | newOrder identifiers notBefore notAfter =>
    exact keeps (hd.keeps_newOrder identifiers notBefore notAfter)
  | preAuthorize identifier => exact keeps (hd.keeps_preAuthorize identifier)
  | bind kind registry location => exact keeps (hd.keeps_bindResource kind registry location)
  | revoke c reason key => exact (hd.keeps_revoke c reason key).follows hg
  | onConnection c o => exact follows_within c (hd.follows_connection o hg)
  | onResource r o => exact follows_within r (hd.follows_resource ho hg)
  | onCertificate r o => exact follows_within r ((hd.keeps_certificate o).follows hg)

end Discipline.Serves

/-! ### Operations that change the session at the end -/

namespace Discipline.Covers

variable (hd : d.Covers ready)
include hd

theorem follows_login (url : Json) (key : Option Key) {g : γ} (hg : ready g) :
    (Client.login url key).Follows d (fun _ _ => True) g := by
  refine follows_then (keeps_lift _) hg fun url => ?_
  refine follows_bind (hd.changing _ ?_ g hg) fun _ _ _ => follows_lift _ fun _ _ => trivial
  exact fun _ => rfl

theorem follows_createAccount (w : AccountWishes) {g : γ} (hg : ready g) :
    (Client.createAccount w).Follows d (fun _ _ => True) g := by
  refine follows_then (hd.keeps_of_isReading Client.isReading_getSession) hg fun session => ?_
  split
  · exact follows_throw_bind _ _
  · refine follows_then (keeps_lift _) hg fun b => ?_
    refine follows_then (hd.keeps_registered b) hg fun r => ?_
    refine follows_bind (hd.changing _ ?_ g hg) fun _ _ _ => follows_pure trivial
    exact fun _ => rfl

theorem follows_changeKey (location : String) (newKey : Key) {g : γ} (hg : ready g) :
    (Client.changeKey location newKey).Follows d (fun _ _ => True) g := by
  refine follows_then (hd.keeps_endpointUrl _) hg fun url => ?_
  refine follows_then (hd.keeps_of_isReading Client.isReading_getSession) hg fun session => ?_
  split
  · exact follows_throw _
  · refine follows_then (keeps_lift _) hg fun inner => ?_
    refine follows_then (hd.keeps_accepted _ _ _) hg fun _ => hd.changing _ ?_ g hg
    exact fun _ => rfl

/-- Every operation follows a discipline that covers the acts of a client. -/
theorem follows_operation (o : Operation) {g : γ} (hg : ready g) :
    o.act.Follows d (fun _ _ => True) g := by
  have ends : ∀ {β : Type} {x : Act Client β}, x.Follows d (fun _ _ => True) g →
      (do let _ ← x : Act Client Unit).Follows d (fun _ _ => True) g := fun hx =>
    follows_bind hx fun _ _ _ => follows_pure trivial
  cases ho : o.changesIdentity with
  | false => exact hd.follows_unchanging ho hg
  | true =>
    cases o with
    | assign key kid locale userAgent verification timeout =>
      unfold Operation.act
      refine hd.changing _ ?_ g hg
      exact fun _ => rfl
    | login url key => exact ends (hd.follows_login url key hg)
    | createAccount w => exact ends (hd.follows_createAccount w hg)
    | onResource r o =>
      cases o with
      | changeKey newKey =>
        refine follows_within r ?_
        refine follows_then (hd.keeps_of_isReading Loading.isReading_requireLocation) hg ?_
        exact fun url => follows_onFirst (hd.follows_changeKey url newKey hg)
      | load | bindTo | respond | orders => cases ho
    | directory | endpointUrl | takeNonce | newOrder | preAuthorize | bind | revoke | onConnection
      | onCertificate => cases ho

end Discipline.Covers

/-! ### A session and a server for runs on fixed inputs -/

/-- An RSA key of 512 bits. -/
def Key.sample : Key :=
  .rsa
    ⟨11422183735077130193860337217829886089372822578680062695841547586556554978519118177858568270114241445626147588239708319248529837971892397971528467156691817, 3⟩
    (some ⟨271956755597074528425246124234044906889829109016191968948608275870394166155212010077821512912611950205958853601638172031291299462591255303329374729931827,
      107633904811460970895160808461133834354575230657907219977418279744699834935877,
      106120685253266813644376167414603136550518703637353323082256951950028664619221,
      71755936540973980596773872307422556236383487105271479984945519829799889957251,
      70747123502177875762917444943068757700345802424902215388171301300019109746147,
      59070206828566924416926000588018924581061768659377389475886824950963158156569⟩)

/-- A new session with this key, for an account that is known. -/
def Session.sample : Session where
  serverUrl := "https://acme.test/dir"
  directoryUrl := "https://acme.test/dir"
  key := some .sample
  kid := some "https://acme.test/acct/1"
  locale := none
  userAgent := Session.defaultUserAgent
  verification := .bool true
  timeout := Session.defaultTimeout
  nonces := .empty
  directory := none

/-- A server that carries the number of the request as a nonce in each answer. -/
def countingServer : Server := fun sent =>
  .response ⟨200, none, ⟨[("Replay-Nonce", Base64.encode [UInt8.ofNat sent.length])]⟩, []⟩

/-- Two signed requests after one that fetches a nonce. -/
def threeRequests : List Operation :=
  [.onConnection .idle (.sendPlain "https://acme.test/a" "application/json"),
    .onConnection .idle (.sendSigned "https://acme.test/b" .nothing .session "application/json"),
    .onConnection .idle (.sendSigned "https://acme.test/b" .nothing .session "application/json")]

/-- The surroundings of that server; its clock stands still. -/
def countingEnvironment : Environment := ⟨countingServer, fun _ => ⟨0, some 0⟩⟩

end AcmeClient
