import AcmeClient.Claims.Draft
import AcmeClient.Client.Endpoints

/-!
# Signed requests

* **`Claims`** are what a signed request says; a request without claims only reads.
  **`Claims.ofValue`** takes the claims from a value that lists its members.
* **`Exchange.sendSigned`** signs and sends a request. It is sent once more, with a new nonce, when
  the server refuses the first nonce.
-/

namespace AcmeClient

/-- What a signed request says: nothing, a draft, members that become a draft, or a value of a kind
that does not list members. -/
inductive Claims where
  | nothing : Claims
  | draft (b : DraftBook) : Claims
  | members (ms : List (String × Value)) : Claims
  | unlisted (kind : String) : Claims
  deriving Repr

namespace Claims

def ofValue : Value → Claims
  | .null => .nothing
  | .record ms => .members ms
  | .draft ms => .members ms
  | .identifier kind value => .members [("typ", .constant (.identifierKind kind)), ("value", value)]
  | .instant _ => .unlisted "datetime.datetime"
  | other => .unlisted other.kindName

/-- The text of claims. -/
def text : Claims → Except Fault String
  | .nothing => .ok ""
  | .draft b => b.text.mapError .ofValue
  | .members ms => (do (← DraftBook.ofMembers ms).text).mapError .ofValue
  | .unlisted kind => .error (.lacking (.object kind "items"))

/-- The octets that are signed. -/
def payload (c : Claims) : Except Fault (List UInt8) :=
  c.text.map Text.Utf8.encode

end Claims

namespace Exchange

/-- How a request is signed: the key, unless it is that of the session, and whether the account is
named by its URL if that is known. -/
structure Signing where
  key : Option Key
  usesKid : Bool
  deriving Repr

/-- The key of the session, and the account named by its URL. -/
def Signing.session : Signing := ⟨none, true⟩

def postOnce (url : String) (claims : Claims) (signing : Signing) (accept : String) :
    Exchange Int := do
  let session ← Act.onFirst Client.getSession
  match signing.key.or session.key with
  | none => throw (.usage .noSigningKey)
  | some key =>
      let kid := if signing.usesKid then session.kid else none
      let payload ← claims.payload
      let nonce ← Act.onFirst Client.takeNonce
      let signed ← Signed.request payload key nonce (some url) kid
      let headers := headersFor (← Act.onFirst Client.getSession) (some accept)
      let r ← send .post url (headers ++ [("Content-Type", signedType)]) (some signed)
      keepNonce r r.isOk
      return r.status

def refusesNonce : Exchange Bool := do
  match ← readProblem with
  | none => return false
  | some p => return (← (p.code? : Except Fault _)) = some "badNonce"

/-- Signs and sends a request, and once more when its nonce is refused. -/
def sendSigned (url : String) (claims : Claims) (signing : Signing) (accept : String) :
    Exchange Int := do
  let status ← postOnce url claims signing accept
  if 400 ≤ status then
    if ← refusesNonce then return ← postOnce url claims signing accept
  return status

/-- Reads with the account where one is known, and without otherwise. -/
def fetch (url accept : String) : Exchange Int := do
  if (← Act.onFirst Client.getSession).kid.isSome then
    sendSigned url .nothing .session accept
  else sendPlain url accept

end Exchange

end AcmeClient
