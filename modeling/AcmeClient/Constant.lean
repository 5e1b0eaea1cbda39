/-!
# Constants of the protocol

Three closed sets of names: the states of a resource, the kinds of identifiers, and the endpoints
that a server lists.

* **`Status`**, **`IdentifierKind`** and **`Endpoint`** are the sets; **`name`** writes a constant
  and **`ofName?`** reads it.
* **`Status.parse`** takes a name that is not known for the state `unknown`.
-/

namespace AcmeClient

/-- The state of a resource. -/
inductive Status where
  | unknown : Status
  | pending : Status
  | processing : Status
  | valid : Status
  | invalid : Status
  | revoked : Status
  | ready : Status
  | deactivated : Status
  | expired : Status
  | canceled : Status
  deriving DecidableEq, Repr

namespace Status

def name : Status → String
  | .unknown => "unknown"
  | .pending => "pending"
  | .processing => "processing"
  | .valid => "valid"
  | .invalid => "invalid"
  | .revoked => "revoked"
  | .ready => "ready"
  | .deactivated => "deactivated"
  | .expired => "expired"
  | .canceled => "canceled"

def all : List Status :=
  [.unknown, .pending, .processing, .valid, .invalid, .revoked, .ready, .deactivated, .expired,
    .canceled]

def ofName? (s : String) : Option Status :=
  all.find? fun c => c.name == s

/-- The state of a name, `unknown` when there is none. -/
def parse (s : String) : Status :=
  (ofName? s).getD .unknown

end Status

inductive IdentifierKind where
  | dns : IdentifierKind
  | ip : IdentifierKind
  deriving DecidableEq, Repr

namespace IdentifierKind

def name : IdentifierKind → String
  | .dns => "dns"
  | .ip => "ip"

def all : List IdentifierKind :=
  [.dns, .ip]

def ofName? (s : String) : Option IdentifierKind :=
  all.find? fun c => c.name == s

end IdentifierKind

inductive Endpoint where
  | newNonce : Endpoint
  | newAccount : Endpoint
  | newOrder : Endpoint
  | newAuthz : Endpoint
  | revokeCert : Endpoint
  | keyChange : Endpoint
  deriving DecidableEq, Repr

namespace Endpoint

def name : Endpoint → String
  | .newNonce => "newNonce"
  | .newAccount => "newAccount"
  | .newOrder => "newOrder"
  | .newAuthz => "newAuthz"
  | .revokeCert => "revokeCert"
  | .keyChange => "keyChange"

def all : List Endpoint :=
  [.newNonce, .newAccount, .newOrder, .newAuthz, .revokeCert, .keyChange]

def ofName? (s : String) : Option Endpoint :=
  all.find? fun c => c.name == s

end Endpoint

inductive ConstantSet where
  | status : ConstantSet
  | identifierKind : ConstantSet
  | endpoint : ConstantSet
  deriving DecidableEq, Repr

namespace ConstantSet

def name : ConstantSet → String
  | .status => "Status"
  | .identifierKind => "IdentifierType"
  | .endpoint => "ResourceType"

def ofName? (s : String) : Option ConstantSet :=
  [ConstantSet.status, .identifierKind, .endpoint].find? fun c => c.name == s

end ConstantSet

inductive Constant where
  | status (c : Status) : Constant
  | identifierKind (c : IdentifierKind) : Constant
  | endpoint (c : Endpoint) : Constant
  deriving DecidableEq, Repr

namespace Constant

def set : Constant → ConstantSet
  | .status _ => .status
  | .identifierKind _ => .identifierKind
  | .endpoint _ => .endpoint

def name : Constant → String
  | .status c => c.name
  | .identifierKind c => c.name
  | .endpoint c => c.name

def text (c : Constant) : String :=
  c.set.name ++ "(" ++ c.name ++ ")"

def ofName? (set : ConstantSet) (s : String) : Option Constant :=
  match set with
  | .status => (Status.ofName? s).map .status
  | .identifierKind => (IdentifierKind.ofName? s).map .identifierKind
  | .endpoint => (Endpoint.ofName? s).map .endpoint

end Constant

end AcmeClient
