import AcmeClient.Connection.Basic

/-!
# The endpoints of the server

The directory is fetched when it is first asked for, and kept from then on.

* **`Client.directory`** is the directory, **`Client.endpointUrl`** one of its URLs.
* **`Client.takeNonce`** takes a nonce out of the pool, or asks the server for one.
-/

namespace AcmeClient.Client

/-- A refusal of the directory, explained. -/
def directoryFault (url : String) (r : Rejection) : Fault :=
  match r.text with
  | .ok text => .protocol (.directoryUnavailable url r text)
  | .error d => .argument (.url d)

def fetchDirectory (url : String) : Exchange Members := do
  let _ ← Exchange.sendPlain url Exchange.jsonType
  try
    let _ ← Exchange.accept [200]
  catch e =>
    match e with
    | .rejected r => throw (directoryFault url r)
    | other => throw other
  Exchange.readJson

/-- The directory in a document; what cannot be decoded breaks the protocol. -/
def readDirectory (ms : Members) : Except Fault Directory :=
  match Directory.ofJson (.object ms) with
  | .error (.decoding d) => .error (.protocol (.malformedDirectory d))
  | r => r

def directory : Act Client Directory := do
  let session ← getSession
  match session.directory with
  | some d => return d
  | none =>
      let ms ← connected (fetchDirectory session.directoryUrl)
      let d ← readDirectory ms
      modifySession fun s => { s with directory := some d }
      return d

def endpointUrl (name : String) : Act Client String := do
  (← directory).url name

/-- Takes a nonce out of the pool, or asks the server for one. -/
def takeNonce : Act Client (List UInt8) := do
  match ← takePooled with
  | some token => return token
  | none => connected do
      let url ← Act.onFirst (endpointUrl Endpoint.newNonce.name)
      Exchange.fetchNonce url

end AcmeClient.Client
