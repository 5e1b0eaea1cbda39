import AcmeClient.Jose.Signed
import AcmeClient.Resource.Order

/-!
# Accounts

* **`Client.createAccount`** registers the key of the session, or finds the account that it has;
  **`Client.login`** uses an account that is known.
* **`Resource.contacts`**, **`termsAgreed`** and **`ordersUrl`** are read from the document.
* **`Client.newOrder`** and **`Client.preAuthorize`** ask for an order and for an authorization.
* **`Loading.orders`** reads the orders of the account, page by page; a page that was read already
  ends the list.
* **`Loading.modifyContacts`** replaces the contacts, **`Loading.changeKey`** the key.
-/

namespace AcmeClient

namespace Resource

/-- The contacts; an item that is `null` is none. -/
def contacts (r : Resource) : Except Fault (List (Option String)) := do
  (← (r.field "contact").array).mapM Field.uri?

def termsAgreed (r : Resource) : Except Fault (Option Bool) :=
  (r.field "termsOfServiceAgreed").bool?

/-- The URL of the first page of orders. -/
def ordersUrl (r : Resource) : Except Fault (Option String) :=
  (r.field "orders").url?

end Resource

def putValue (b : DraftBook) (name : String) (v : Value) : Except Fault DraftBook :=
  (b.put 0 name v).mapError .ofValue

/-- A draft with one more value, if there is one. -/
def putSome (b : DraftBook) (name : String) (v : Option Value) : Except Fault DraftBook :=
  match v with
  | some v => putValue b name v
  | none => .ok b

def DraftBook.putKey (b : DraftBook) (number : Nat) (name : String) (k : Key) : DraftBook :=
  b.set number name (.value (.ofJson (.object k.publicKey.members)))

/-- What a new account is asked for. -/
structure AccountWishes where
  contact : Value
  agreesToTerms : Bool
  onlyExisting : Bool
  binding : Option Value

namespace AccountWishes

def claims (w : AccountWishes) : Except Fault DraftBook := do
  let contact ← w.contact.elements.mapError .ofValue
  let b ← putSome .empty "contact" (if contact.isEmpty then none else some (.list contact))
  let b ← putSome b "termsOfServiceAgreed" (if w.agreesToTerms then some (.bool true) else none)
  let b ← putSome b "onlyReturnExisting" (if w.onlyExisting then some (.bool true) else none)
  putSome b "externalAccountBinding" w.binding

end AccountWishes

/-- The resource that an answer describes, at the location that it names. -/
def Exchange.created (kind : ResourceKind) (name : String) : Exchange Resource := do
  match ← Exchange.location with
  | none => throw (.protocol (.noLocation name))
  | some url =>
      let ms ← Exchange.readJson
      (Resource.make kind (.string url) (some ms) : Except Fault _)

namespace Client

/-- Registers the key of the session, or finds its account; the account is named by its URL from
then on. -/
def createAccount (w : AccountWishes) : Act Client Resource := do
  if (← getSession).key.isNone then throw (.usage .noKeyToCreate)
  let b ← w.claims
  let r ← connected do
    let url ← Act.onFirst (endpointUrl Endpoint.newAccount.name)
    let _ ← Exchange.sendSigned url (.draft b) ⟨none, false⟩ Exchange.jsonType
    let _ ← Exchange.accept [200, 201]
    Exchange.created .account "account"
  modifySession fun s => { s with kid := r.location }
  return r

/-- Uses an account that is known, with another key if one is given. -/
def login (url : Json) (key : Option Key) : Act Client Resource := do
  let url ← checkUrl url "account_url"
  modifySession fun s => { s with key := key.or s.key, kid := some url }
  (Resource.make .account (.string url) none : Except Fault _)

/-- Sends claims to an endpoint, which creates a resource. -/
def requested (endpoint : Endpoint) (b : DraftBook) (kind : ResourceKind) (name : String) :
    Act Client Resource :=
  connected do
    let url ← Act.onFirst (endpointUrl endpoint.name)
    let _ ← Exchange.sendSigned url (.draft b) .session Exchange.jsonType
    let _ ← Exchange.accept [201]
    Exchange.created kind name

def orderClaims (identifiers : Value) (notBefore notAfter : Option Value) :
    Except Fault DraftBook := do
  let items ← identifiers.elements.mapError .ofValue
  let b ← putValue .empty "identifiers"
    (.list (items.map fun v => (Identifier.ofValue v).toValue))
  let b ← putSome b "notBefore" notBefore
  putSome b "notAfter" notAfter

def newOrder (identifiers : Value) (notBefore notAfter : Option Value) : Act Client Resource := do
  let b ← orderClaims identifiers notBefore notAfter
  requested .newOrder b .order "order"

def preAuthorize (identifier : Value) : Act Client Resource := do
  let b ← putValue .empty "identifier" (Identifier.ofValue identifier).toValue
  requested .newAuthz b .authorization "authorization"

/-- One page of orders: the orders on it, and the URL of the next page. -/
def orderPage (url : String) : Act Client (List Resource × Option String) :=
  connected do
    let _ ← Exchange.fetch url Exchange.jsonType
    let _ ← Exchange.accept [200]
    let items ← ((← Exchange.readJson).field "orders").array
    let orders ← (items.mapM (Resource.linked .order) : Except Fault _)
    return (orders, (← Exchange.links "next").head?)

/-- The orders on the pages from a URL on. A page that was read already ends the list; none is the
answer when `limit` pages are not enough. -/
def ordersFrom : Nat → List String → Option String → Act Client (Option (List Resource))
  | _, _, none => pure (some [])
  | limit, visited, some url =>
      if visited.contains url then pure (some [])
      else
        match limit with
        | 0 => pure none
        | limit + 1 => do
            let (orders, next) ← orderPage url
            let rest ← ordersFrom limit (url :: visited) next
            return rest.map (orders ++ ·)

/-- The document that moves an account to a new key: its location and its present key, signed with
the new one. -/
def keyChange (location url : String) (oldKey newKey : Key) : Except Fault Signed := do
  let b ← putValue .empty "account" (.string location)
  let b := b.putKey 0 "oldKey" oldKey
  let a ← Algorithm.ofKey newKey
  Signed.make (← (Claims.draft b).payload) newKey a none (some url) none

def changeKey (location : String) (newKey : Key) : Act Client Unit := do
  let url ← endpointUrl Endpoint.keyChange.name
  match (← getSession).key with
  | none => throw (.usage .noKeyToChange)
  | some oldKey =>
      let inner ← keyChange location url oldKey newKey
      connected do
        let claims := Claims.members (Value.ofMembers inner.members)
        let _ ← Exchange.sendSigned url claims .session Exchange.jsonType
        let _ ← Exchange.accept [200]
      modifySession fun s => { s with key := some newKey }

end Client

namespace Loading

/-- The orders of the account, on at most `limit` pages. -/
def orders (limit : Nat) : Loading (Option (List Resource)) := do
  let url ← (← resource).ordersUrl
  Act.onFirst (Client.ordersFrom limit [] url)

def modifyContacts (contact : Value) : Loading Unit := do
  let items ← contact.elements.mapError Fault.ofValue
  let b ← putValue .empty "contact" (.list items)
  postHere (.draft b) [200]

def changeKey (newKey : Key) : Loading Unit := do
  let location ← requireLocation
  Act.onFirst (Client.changeKey location newKey)

end Loading

end AcmeClient
