import AcmeClient.Resource.Account

/-!
# Operations

Everything that a program may ask of a session, its connections and its resources, with the values
that it gives. What an operation works on besides the session — a connection, a resource, a
certificate — is one of these values, and what it gives back is not of interest here.

* **`LoadingOperation`** are the operations that take a document into a resource.
* **`ConnectionOperation`**, **`ResourceOperation`**, **`CertificateOperation`** are those on one
  thing.
* **`Operation`** is any of them, or one on the session itself; **`Operation.act`** does it, and
  **`Client.after`** is what a client is after some of them.
-/

namespace AcmeClient

/-- The operations that take a document into a resource: one that is given, or the answer of the
server to a question, to claims or to a certificate request. -/
inductive LoadingOperation where
  | unmarshall (ms : Members) : LoadingOperation
  | update : LoadingOperation
  | trigger : LoadingOperation
  | finalize (form : X509.Request.Form) : LoadingOperation
  | deactivate : LoadingOperation
  | modify (contact : Value) : LoadingOperation

def LoadingOperation.act : LoadingOperation → Loading Unit
  | .unmarshall ms => Loading.unmarshall ms
  | .update => Loading.update
  | .trigger => Loading.trigger
  | .finalize form => Loading.finalize form
  | .deactivate => Loading.deactivate
  | .modify contact => Loading.modifyContacts contact

inductive ConnectionOperation where
  | sendPlain (url wanted : String) : ConnectionOperation
  | sendSigned (url : String) (claims : Claims) (signing : Exchange.Signing) (wanted : String) :
      ConnectionOperation
  | fetchNonce (url : String) : ConnectionOperation
  | accept (codes : List Int) : ConnectionOperation
  | readJson : ConnectionOperation
  | readCertificates : ConnectionOperation
  | links (relation : String) : ConnectionOperation
  | location : ConnectionOperation
  | retryAfter : ConnectionOperation
  | refuseEarly (message : String) : ConnectionOperation
  | nonce : ConnectionOperation
  | close : ConnectionOperation

def ConnectionOperation.act : ConnectionOperation → Exchange Unit
  | .sendPlain url wanted => do let _ ← Exchange.sendPlain url wanted
  | .sendSigned url claims signing wanted => do
      let _ ← Exchange.sendSigned url claims signing wanted
  | .fetchNonce url => do let _ ← Exchange.fetchNonce url
  | .accept codes => do let _ ← Exchange.accept codes
  | .readJson => do let _ ← Exchange.readJson
  | .readCertificates => do let _ ← Exchange.readCertificates
  | .links relation => do let _ ← Exchange.links relation
  | .location => do let _ ← Exchange.location
  | .retryAfter => do let _ ← Exchange.retryAfter
  | .refuseEarly message => Exchange.refuseEarly message
  | .nonce => do let _ ← Exchange.nonce
  | .close => Exchange.close

inductive ResourceOperation where
  | load (o : LoadingOperation) : ResourceOperation
  | bindTo (location : Json) : ResourceOperation
  | respond (b : DraftBook) : ResourceOperation
  | orders (limit : Nat) : ResourceOperation
  | changeKey (newKey : Key) : ResourceOperation

def ResourceOperation.act : ResourceOperation → Loading Unit
  | .load o => o.act
  | .bindTo location => Loading.bindTo location
  | .respond b => do let _ ← Loading.respond b
  | .orders limit => do let _ ← Loading.orders limit
  | .changeKey newKey => Loading.changeKey newKey

inductive CertificateOperation where
  | bindTo (location : Json) : CertificateOperation
  | download : CertificateOperation
  | chain : CertificateOperation
  | leaf : CertificateOperation
  | alternates : CertificateOperation
  | alternateCertificates : CertificateOperation
  | writtenChain : CertificateOperation
  | revoke (reason : Json) : CertificateOperation

def CertificateOperation.act : CertificateOperation → Holding Unit
  | .bindTo location => Holding.bindTo location
  | .download => Holding.download
  | .chain => do let _ ← Holding.chain
  | .leaf => do let _ ← Holding.leaf
  | .alternates => do let _ ← Holding.alternates
  | .alternateCertificates => do let _ ← Holding.alternateCertificates
  | .writtenChain => do let _ ← Holding.writtenChain
  | .revoke reason => Holding.revoke reason

/-- The operations. Nonces enter the pool with the answers of the server only. -/
inductive Operation where
  | assign (key : Option Key) (kid locale : Option String) (userAgent : String)
      (verification timeout : Json) : Operation
  | directory : Operation
  | endpointUrl (name : String) : Operation
  | takeNonce : Operation
  | login (url : Json) (key : Option Key) : Operation
  | createAccount (w : AccountWishes) : Operation
  | newOrder (identifiers : Value) (notBefore notAfter : Option Value) : Operation
  | preAuthorize (identifier : Value) : Operation
  | bind (kind : ResourceKind) (registry : Registry) (location : Json) : Operation
  | revoke (c : X509.Certificate) (reason : Json) (key : Option Key) : Operation
  | onConnection (c : Connection) (o : ConnectionOperation) : Operation
  | onResource (r : Resource) (o : ResourceOperation) : Operation
  | onCertificate (r : CertificateResource) (o : CertificateOperation) : Operation

def Operation.act : Operation → Act Client Unit
  | .assign key kid locale userAgent verification timeout =>
      Client.modifySession fun s => { s with key, kid, locale, userAgent, verification, timeout }
  | .directory => do let _ ← Client.directory
  | .endpointUrl name => do let _ ← Client.endpointUrl name
  | .takeNonce => do let _ ← Client.takeNonce
  | .login url key => do let _ ← Client.login url key
  | .createAccount w => do let _ ← Client.createAccount w
  | .newOrder identifiers notBefore notAfter => do
      let _ ← Client.newOrder identifiers notBefore notAfter
  | .preAuthorize identifier => do let _ ← Client.preAuthorize identifier
  | .bind kind registry location => do let _ ← Client.bind kind registry location
  | .revoke c reason key => Client.revoke c reason key
  | .onConnection c o => Act.within c o.act
  | .onResource r o => Act.within r o.act
  | .onCertificate r o => Act.within r o.act

def Client.after (env : Environment) (c : Client) (os : List Operation) : Client :=
  os.foldl (fun c o => (o.act.run env c).2) c

end AcmeClient
