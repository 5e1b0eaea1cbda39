/-!
# Kinds of resources

* **`Variant`** is a variant of challenges: a name, what it proves, and the type of body that it
  accepts, if it accepts one type only. A variant may be added to those of the protocol.
* **`Registry`** finds the variant for a type, and the variant of a name.
* **`ResourceKind`** is the kind of a resource that a server describes by a document.
* **`ResourceKind.offers`** tells which operations a kind has.
-/

namespace AcmeClient

/-- What a challenge proves: nothing that is known, a key authorization of its token, and where the
proof is found. -/
inductive Proof where
  | unknown : Proof
  | token : Proof
  | http : Proof
  | dns : Proof
  | tls : Proof
  deriving DecidableEq, Repr

structure Variant where
  name : String
  proves : Proof
  typ : Option String
  deriving DecidableEq, Repr

namespace Variant

/-- A challenge of any type. -/
def plain : Variant := ⟨"Challenge", .unknown, none⟩

/-- A challenge with a token, of any type. -/
def token : Variant := ⟨"TokenChallenge", .token, none⟩

/-- A file on a web server proves the authorization. -/
def http : Variant := ⟨"HTTP01", .http, some "http-01"⟩

/-- A record in the domain name system proves the authorization. -/
def dns : Variant := ⟨"DNS01", .dns, some "dns-01"⟩

/-- A certificate that a server shows proves the authorization. -/
def tls : Variant := ⟨"TLSALPN01", .tls, some "tls-alpn-01"⟩

/-- A variant that proves the same for another type. -/
def extended (v : Variant) (name : String) (typ : Option String) : Variant :=
  ⟨name, v.proves, typ⟩

def hasToken (v : Variant) : Bool :=
  v.proves ≠ .unknown

end Variant

/-- The variants that are known, the latest one first. -/
structure Registry where
  variants : List Variant
  deriving Repr

namespace Registry

/-- The variants of the protocol. -/
def standard : Registry :=
  ⟨[.plain, .token, .http, .dns, .tls]⟩

def register (r : Registry) (v : Variant) : Registry :=
  ⟨v :: r.variants⟩

/-- The variant for a type of body; the latest one counts. -/
def get? (r : Registry) (typ : String) : Option Variant :=
  r.variants.find? fun v => v.typ = some typ

def named? (r : Registry) (name : String) : Option Variant :=
  r.variants.find? fun v => v.name = name

end Registry

/-- The kind of a resource that a server describes by a document. -/
inductive ResourceKind where
  | document : ResourceKind
  | account : ResourceKind
  | order : ResourceKind
  | authorization : ResourceKind
  | challenge (v : Variant) : ResourceKind
  deriving DecidableEq, Repr

namespace ResourceKind

def name : ResourceKind → String
  | .document => "JSONResource"
  | .account => "Account"
  | .order => "Order"
  | .authorization => "Authorization"
  | .challenge v => v.name

def ofName? (registry : Registry) : String → Option ResourceKind
  | "JSONResource" => some .document
  | "Account" => some .account
  | "Order" => some .order
  | "Authorization" => some .authorization
  | other => (registry.named? other).map .challenge

def common : List String :=
  ["_bind_location", "unmarshall", "update"]

def own : ResourceKind → List String
  | .document => []
  | .account => ["new_order", "pre_authorize", "orders", "modify", "deactivate", "change_key"]
  | .order => ["authorizations", "certificate", "finalize"]
  | .authorization => ["challenges", "find_challenge", "deactivate"]
  | .challenge v =>
      ["respond", "trigger"]
        ++ (match v.proves with
          | .http => ["uri"]
          | .dns => ["validation_domain_name"]
          | _ => [])

def offers (k : ResourceKind) (operation : String) : Bool :=
  common.contains operation || k.own.contains operation

end ResourceKind

end AcmeClient
