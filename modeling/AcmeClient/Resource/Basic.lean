import AcmeClient.Location
import AcmeClient.Resource.Kind

/-!
# Resources

A resource of the server has a location and, once it is loaded, the last document that the server
sent for it. The location never changes once it is known. A document of another kind is refused and
the last one kept.

* **`Resource`** is such a resource; **`Resource.make`** makes one.
* **`Resource.load`** takes a document, **`Resource.bindTo`** a location.
* **`Resource.fromDocument`** makes the challenge of a document, of the variant for its type.
* **`Resource.status`** is the state, **`Resource.literal`** the resource as it is shown.
-/

namespace AcmeClient

open Calendar Text

/-- A resource with its last document; the document is empty until one is loaded. -/
structure Resource where
  kind : ResourceKind
  location : Option String
  body : Members
  retryAfter : Option Instant
  deriving Repr

/-- A location for a resource of some kind, which may have one already. -/
def bound (kind : String) (old : Option String) (location : Json) : Except Fault String := do
  let url ← checkUrl location "location"
  match old with
  | none => return url
  | some o => if o = url then return url else throw (.argument (.rebound kind o url))

/-- The location of a resource of some kind, which has to be known. -/
def locationOf (kind : String) (location : Option String) : Except Fault String :=
  match location with
  | some url => .ok url
  | none => .error (.usage (.unbound kind))

def locationLiteral (location : Option String) : String :=
  (location.map quoted).getD "None"

namespace ResourceKind

def typeIn (ms : Members) : Except Fault String := do
  match ← (ms.field "type").string? with
  | some t => return t
  | none => throw (.argument .notChallenge)

def check (k : ResourceKind) (ms : Members) : Except Fault Unit :=
  match k with
  | .document => .ok ()
  | .account =>
      match ["type", "identifier", "identifiers"].find? fun n => ms.has n with
      | some n => .error (.argument (.notAccount n))
      | none => .ok ()
  | .order =>
      if !ms.isEmpty && !ms.has "identifiers" then .error (.argument .notOrder) else .ok ()
  | .authorization =>
      if !ms.isEmpty && !ms.has "identifier" then .error (.argument .notAuthorization) else .ok ()
  | .challenge v => do
      let t ← typeIn ms
      match v.typ with
      | some expected =>
          if t ≠ expected then throw (.protocol (.challengeType t expected)) else return ()
      | none => return ()

/-- The URL of a challenge in its document; there are two names for it. -/
def challengeUrl (ms : Members) : Except Fault (Option String) := do
  match ← (ms.field "url").url? with
  | some u => return some u
  | none => (ms.field "uri").url?

/-- The kind for a document: a challenge of any type gets the variant for its type. -/
def forDocument (k : ResourceKind) (registry : Registry) (ms : Members) :
    Except Fault ResourceKind :=
  match k with
  | .challenge v => do
      let t ← typeIn ms
      if v.typ.isSome then return k else return .challenge ((registry.get? t).getD v)
  | other => .ok other

end ResourceKind

namespace Resource

def bindTo (r : Resource) (location : Json) : Except Fault Resource := do
  return { r with location := some (← bound r.kind.name r.location location) }

/-- The URL that a document gives to a resource without a location. -/
def urlFor (r : Resource) (ms : Members) : Except Fault (Option String) :=
  match r.kind, r.location with
  | .challenge _, none => ResourceKind.challengeUrl ms
  | _, _ => .ok none

def load (r : Resource) (ms : Members) : Except Fault Resource := do
  let url ← r.urlFor ms
  r.kind.check ms
  let loaded := { r with body := ms }
  match url with
  | some u => loaded.bindTo (.string u)
  | none => return loaded

/-- A resource with a location, unless it is `null`, and a document, if there is one. -/
def make (kind : ResourceKind) (location : Json) (body : Option Members) :
    Except Fault Resource := do
  let fresh : Resource := ⟨kind, none, [], none⟩
  let placed ← match location with
    | .null => pure fresh
    | url => fresh.bindTo url
  match body with
  | some ms => placed.load ms
  | none => return placed

/-- A resource without a document, and without a location if there is none. -/
def unloaded (kind : ResourceKind) (location : Option String) : Except Fault Resource :=
  make kind ((location.map Json.string).getD .null) none

/-- The resource of a document, of the kind for it. -/
def fromDocument (kind : ResourceKind) (registry : Registry) (ms : Members) :
    Except Fault Resource := do
  make (← kind.forDocument registry ms) .null (some ms)

def field (r : Resource) (name : String) : Field :=
  Members.field r.body name

def status (r : Resource) : Except Fault Status :=
  (r.field "status").status .unknown

def literal (r : Resource) : Except Fault String := do
  return r.kind.name ++ "(location=" ++ locationLiteral r.location ++ ", status="
    ++ (← r.status).name ++ ")"

/-- Refuses an operation that resources of this kind have not. -/
def demand (r : Resource) (operation : String) : Except Fault Unit :=
  if r.kind.offers operation then .ok ()
  else .error (.lacking (.object r.kind.name operation))

end Resource

end AcmeClient
