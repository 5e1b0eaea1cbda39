import AcmeClient.Connection.Signed
import AcmeClient.Resource.Basic

/-!
# Loading resources

* **`Loading α`** is an act of a client on a resource.
* **`Loading.update`** asks for the document again; when the server says when to come back, the
  document is taken all the same, and the act fails with the instant.
* **`Loading.post`** sends claims and takes the document of the answer.
* **`Client.bind`** makes a resource from its location.
-/

namespace AcmeClient

open Calendar

/-- An act of a client on a resource. -/
abbrev Loading (α : Type) := Act (Client × Resource) α

/-- The document of the answer, and when to come back. -/
def Exchange.answer : Exchange (Members × Option Instant) := do
  let ms ← Exchange.readJson
  return (ms, ← Exchange.retryAfter)

def Client.fetched (url : String) : Act Client (Members × Option Instant) :=
  connected do
    let _ ← Exchange.fetch url Exchange.jsonType
    let _ ← Exchange.accept [200, 202]
    Exchange.answer

def Client.posted (url : String) (claims : Claims) (codes : List Int) :
    Act Client (Members × Option Instant) :=
  connected do
    let _ ← Exchange.sendSigned url claims .session Exchange.jsonType
    let _ ← Exchange.accept codes
    Exchange.answer

namespace Loading

def resource : Loading Resource := do
  return (← get).2

/-- The location, which has to be known. -/
def requireLocation : Loading String := do
  let r ← resource
  locationOf r.kind.name r.location

def bindTo (location : Json) : Loading Unit := do
  let placed ← (← resource).bindTo location
  modify fun s => (s.1, placed)

/-- Takes a document that is given, and after it the URL that it names. -/
def unmarshall (ms : Members) : Loading Unit := do
  let r ← resource
  let url ← r.urlFor ms
  r.kind.check ms
  modify fun s => (s.1, { s.2 with body := ms })
  match url with
  | some u => bindTo (.string u)
  | none => return ()

/-- Takes a document, and when to come back. -/
def adopt (ms : Members) (t : Option Instant) : Loading Unit := do
  unmarshall ms
  modify fun s => (s.1, { s.2 with retryAfter := t })

/-- Asks for the document again. -/
def update : Loading Unit := do
  let url ← requireLocation
  let (ms, t) ← Act.onFirst (Client.fetched url)
  adopt ms t
  match t with
  | some t => throw (.retryAfter ((← resource).kind.name ++ " is not completed yet") t)
  | none => return ()

/-- Sends claims and takes the document of the answer. -/
def post (url : String) (claims : Claims) (codes : List Int) : Loading Unit := do
  let (ms, t) ← Act.onFirst (Client.posted url claims codes)
  adopt ms t

/-- Sends claims to the location. -/
def postHere (claims : Claims) (codes : List Int) : Loading Unit := do
  post (← requireLocation) claims codes

end Loading

/-- The resource at a location, loaded. -/
def Client.bind (kind : ResourceKind) (registry : Registry) (location : Json) :
    Act Client Resource := do
  let url ← checkUrl location "location"
  let (ms, t) ← fetched url
  let actual ← kind.forDocument registry ms
  let r ← Resource.make actual (.string url) (some ms)
  return { r with retryAfter := t }

end AcmeClient
