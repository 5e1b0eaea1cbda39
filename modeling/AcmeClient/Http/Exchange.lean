import AcmeClient.Http.Headers
import AcmeClient.Jose.Signed

/-!
# Exchanges with a server

* **`Request`** is what is sent, **`Response`** what comes back; a transport that fails gives only
  an explanation.
* **`Server`** answers each request in view of all requests so far.
-/

namespace AcmeClient

/-- The ways to send a request. -/
inductive Method where
  | get : Method
  | head : Method
  | post : Method
  deriving DecidableEq, Repr

def Method.name : Method → String
  | .get => "GET"
  | .head => "HEAD"
  | .post => "POST"

/-- A request with the options of the transport: how the certificate of the server is verified, and
how long to wait. -/
structure Request where
  method : Method
  url : String
  headers : List (String × String)
  verification : Json
  timeout : Json
  body : Option Signed
  deriving Repr

structure Response where
  status : Int
  reason : Option String
  headers : Headers
  content : List UInt8
  deriving Repr

/-- Whether an answer is no error of client or server. -/
def Response.isOk (r : Response) : Bool :=
  !(400 ≤ r.status && r.status < 600)

/-- What comes of a request: an answer, or the explanation why there is none. -/
inductive Reply where
  | response (r : Response) : Reply
  | failure (text : String) : Reply
  deriving Repr

/-- A server answers the last of the requests that were sent. -/
abbrev Server := List Request → Reply

end AcmeClient
