import AcmeClient.Client.Act
import AcmeClient.Directory
import AcmeClient.Location
import AcmeClient.Nonce

/-!
# Clients

All requests to one server share a session: the directory, the key and the URL of the account, and
the nonces that wait.

* **`Session`** is that state, **`Session.start`** makes it for a server.
* **`Client`** is a session with the requests that it sent and the count of its readings of the
  clock.
* **`Client.transmit`** sends a request, **`Client.now`** reads the clock.
-/

namespace AcmeClient

open Calendar

/-- The state that all requests to one server share. -/
structure Session where
  serverUrl : String
  directoryUrl : String
  key : Option Key
  kid : Option String
  locale : Option String
  userAgent : String
  verification : Json
  timeout : Json
  nonces : NoncePool
  directory : Option Directory
  deriving Repr

namespace Session

/-- The name under which a client introduces itself unless told otherwise. -/
def defaultUserAgent : String := "acmekit-python"

/-- The seconds to wait for an answer unless told otherwise. -/
def defaultTimeout : Json := .int 45

/-- A session with the server of a URL or a short name. -/
def start (server : Json) (key : Option Key) (kid locale : Option String) (userAgent : String)
    (verification timeout : Json) : Except Fault Session := do
  let directoryUrl ← directoryOf server
  return {
    serverUrl := server.string?.getD "", directoryUrl, key, kid, locale, userAgent, verification,
    timeout, nonces := .empty, directory := none }

end Session

/-- A session, the requests that it sent, and how often it read the clock. -/
structure Client where
  session : Session
  sent : List Request
  readings : Nat
  deriving Repr

namespace Client

/-- A client that has sent nothing. -/
def ofSession (s : Session) : Client := ⟨s, [], 0⟩

def getSession : Act Client Session :=
  .once id fun _ c => .ok c.session

def modifySession (f : Session → Session) : Act Client Unit :=
  .once (fun c => { c with session := f c.session }) fun _ _ => .ok ()

def now : Act Client Instant :=
  .once (fun c => { c with readings := c.readings + 1 }) fun env c => .ok (env.clock c.readings)

def transmit (r : Request) : Act Client Reply :=
  .once (fun c => { c with sent := c.sent ++ [r] }) fun env c => .ok (env.server (c.sent ++ [r]))

def offerNonce (text : String) : Act Client Unit := do
  let token ← decodeHeaderNonce text
  modifySession fun s => { s with nonces := s.nonces.add token }

def takePooled : Act Client (Option (List UInt8)) :=
  .once (fun c => { c with session := { c.session with nonces := c.session.nonces.take.2 } })
    fun _ c => .ok c.session.nonces.take.1

end Client

end AcmeClient
