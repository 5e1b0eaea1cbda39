import AcmeClient.Client.Basic
import AcmeClient.Http.Headers
import AcmeClient.Http.Link
import AcmeClient.Http.Unreachable
import AcmeClient.Problem.Reading
import AcmeClient.X509.Certificate

/-!
# Connections

A connection serves one exchange at a time: it sends a request and holds the answer, and everything
that is read concerns the answer that it holds. A new request replaces it, even if it fails.

* **`Connection`** holds an answer, the URL of its request, and the instant to come back at.
* **`Exchange α`** is an act of a client on a connection; **`Client.connected`** does it on a new
  one.
* **`send`** sends a request, **`accept`** checks the status of the answer and refuses with what the
  server explains.
* **`readJson`**, **`readCertificates`**, **`location`**, **`links`**, **`retryAfter`** and
  **`nonce`** read the answer.
-/

namespace AcmeClient

open Calendar

structure Connection where
  response : Option Response
  url : Option String
  retryAfter : Option Instant
  deriving Repr

namespace Connection

/-- A connection on which nothing was sent. -/
def idle : Connection := ⟨none, none, none⟩

def close (c : Connection) : Connection :=
  { c with response := none }

def held (c : Connection) : Except Fault Response :=
  match c.response with
  | some r => .ok r
  | none => .error (.usage .nothingSent)

def resolve (c : Connection) (reference : String) : Except Fault String :=
  wellSplit (Url.join (c.url.getD "") reference)

end Connection

/-- An act of a client on a connection. -/
abbrev Exchange (α : Type) := Act (Client × Connection) α

/-- An exchange on a new connection. -/
def Client.connected {α : Type} (x : Exchange α) : Act Client α :=
  Act.within Connection.idle x

namespace Exchange

/-- The form in which answers are wanted. -/
def jsonType : String := "application/json"

/-- The form in which certificates are wanted. -/
def chainType : String := "application/pem-certificate-chain"

/-- The form in which requests are signed. -/
def signedType : String := "application/jose+json"

def nonceHeader : String := "Replay-Nonce"

/-- The header that says when to come back. -/
def retryHeader : String := "Retry-After"

def connection : Exchange Connection := do
  return (← get).2

def held : Exchange Response := do
  (← connection).held

def close : Exchange Unit :=
  modify fun s => (s.1, s.2.close)

def headersFor (s : Session) (accept : Option String) : List (String × String) :=
  [("User-Agent", s.userAgent)]
    ++ (accept.map fun a => ("Accept", a)).toList
    ++ (s.locale.map fun l => ("Accept-Language", l)).toList

def send (method : Method) (url : String) (headers : List (String × String))
    (body : Option Signed) : Exchange Response := do
  close
  let session ← Act.onFirst Client.getSession
  let request := {
    method, url, headers, verification := session.verification, timeout := session.timeout, body }
  match ← Act.onFirst (Client.transmit request) with
  | .failure text => throw (Unreachable.fault text)
  | .response r =>
      modify fun s => (s.1, ⟨some r, some url, none⟩)
      return r

/-- Puts the nonce of an answer into the pool; it may be missing unless it is required. -/
def keepNonce (r : Response) (isRequired : Bool) : Exchange Unit := do
  match r.headers.get? nonceHeader with
  | some text => Act.onFirst (Client.offerNonce text)
  | none => if isRequired then throw (.missingNonce r.headers.fields)

def sendPlain (url : String) (accept : String) : Exchange Int := do
  let headers := headersFor (← Act.onFirst Client.getSession) (some accept)
  let r ← send .get url headers none
  keepNonce r false
  return r.status

/-! ### What the server refuses -/

/-- Whether a document explains a problem: its type or its detail is a text. -/
def isProblem (ms : Members) : Bool :=
  ["type", "detail"].any fun n => (ms.get n).string?.isSome

def problemIn (r : Response) (url : Option String) : Option Problem :=
  match (Body.octets r.content).document with
  | .ok ms => if isProblem ms then some ⟨ms, url⟩ else none
  | .error _ => none

def readProblem : Exchange (Option Problem) := do
  let c ← connection
  return problemIn (← c.held) c.url

def links (relation : String) : Exchange (List String) := do
  let c ← connection
  match (← c.held).headers.get? "Link" with
  | none => return []
  | some value => (Link.related relation value).mapM fun url => (c.resolve url : Except Fault _)

/-- The instant in the header of an answer that refuses a request; a value that is malformed is
passed over. -/
def refusalInstant (r : Response) : Exchange (Option Instant) := do
  match r.headers.get? retryHeader with
  | none => return none
  | some value =>
      let now ← Act.onFirst Client.now
      match RetryAfter.parse value now with
      | .ok t => return some t
      | .error (.protocol _) => return none
      | .error e => throw e

def rejectionKind (r : Response) (code : Option String) : Exchange RejectionKind := do
  match code with
  | some "rateLimited" => return .rateLimited (← refusalInstant r)
  | some "unauthorized" => return .unauthorized
  | some "userActionRequired" => return .userActionRequired (← links "terms-of-service").head?
  | _ => return .plain

/-- The words for an answer without a problem. -/
def statusLine (r : Response) : String :=
  "HTTP " ++ Number.integerText r.status ++ " " ++ r.reason.getD "None"

/-- What an answer refuses. -/
def rejection (r : Response) : Exchange Rejection := do
  match ← readProblem with
  | none => return ⟨.plain, none, some r.status, some (statusLine r)⟩
  | some p =>
      let code ← (p.code? : Except Fault _)
      return ⟨← rejectionKind r code, some p, some r.status, none⟩

/-- The status of the answer, which has to be one of a list. -/
def accept (codes : List Int) : Exchange Int := do
  let r ← held
  if codes.contains r.status then return r.status
  throw (.rejected (← rejection r))

/-! ### Reading the answer -/

def readJson : Exchange Members := do
  let c ← connection
  let r ← c.held
  if r.content.isEmpty then throw (.protocol (.emptyBody c.url))
  match (Body.octets r.content).document with
  | .ok ms => return ms
  | .error d => throw (.protocol (.document d))

/-- The fault of octets that hold no chain of certificates. -/
def ofChainDefect : X509.Certificate.ChainDefect → Fault
  | .missing => .protocol .noCertificate
  | .malformed => .protocol .malformedChain
  | .version d => .version d

def readCertificates : Exchange (List X509.Certificate) := do
  ((X509.Certificate.chainOfPem (← held).content).mapError ofChainDefect : Except Fault _)

/-- The instant at which to come back, read once for each answer. -/
def retryAfter : Exchange (Option Instant) := do
  let c ← connection
  match (← c.held).headers.get? retryHeader with
  | none => return none
  | some value =>
      match c.retryAfter with
      | some t => return some t
      | none =>
          let now ← Act.onFirst Client.now
          let t ← RetryAfter.parse value now
          modify fun s => (s.1, { s.2 with retryAfter := some t })
          return some t

/-- Fails with a message when the answer says when to come back. -/
def refuseEarly (message : String) : Exchange Unit := do
  match ← retryAfter with
  | some t => throw (.retryAfter message t)
  | none => return ()

def location : Exchange (Option String) := do
  let c ← connection
  match (← c.held).headers.get? "Location" with
  | none => return none
  | some value => return some (← c.resolve value)

def nonce : Exchange (Option String) := do
  return (← held).headers.get? nonceHeader

def fetchNonce (url : String) : Exchange (List UInt8) := do
  let headers := headersFor (← Act.onFirst Client.getSession) none
  let r ← send .head url headers none
  let _ ← accept [200, 204]
  match r.headers.get? nonceHeader with
  | some text => decodeHeaderNonce text
  | none => throw (.missingNonce r.headers.fields)

end Exchange

end AcmeClient
