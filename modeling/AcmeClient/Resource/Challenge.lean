import AcmeClient.Jose.Signed
import AcmeClient.Resource.Loading

/-!
# Challenges

The server asks for a proof that the account controls an identifier. Where the proof is a key
authorization, it joins the token of the challenge with the account key.

* **`Resource.challengeType`**, **`validated`**, **`failure`** and **`token`** are read from the
  document.
* **`Resource.keyAuthorization`** is the proof; **`path`**, **`uri`**, **`digest`** and
  **`validationDigest`** show it where the server looks.
* **`Loading.respond`** are the claims with which **`Loading.trigger`** asks the server to look.
-/

namespace AcmeClient

open Calendar Digest Text

namespace Resource

def variant? (r : Resource) : Option Variant :=
  match r.kind with
  | .challenge v => some v
  | _ => none

/-- The type: that of the document, or that of the variant. -/
def challengeType (r : Resource) : Except Fault (Option String) := do
  match ← (r.field "type").string? with
  | some t => return if t = "" then r.variant?.bind Variant.typ else some t
  | none => return r.variant?.bind Variant.typ

/-- When the server found the proof. -/
def validated (r : Resource) : Except Fault (Option Instant) :=
  (r.field "validated").instant?

/-- Why the proof failed; only an invalid challenge has failed. -/
def failure (r : Resource) : Except Fault (Option Problem) := do
  if (← r.status) = .invalid then (r.field "error").problem? r.location else return none

def token (r : Resource) : Except Fault String := do
  let f ← (r.field "token").required
  return (← f.string?).getD ""

/-- Whether the token may stand in the name of a file or the path of a URL. -/
def hasGoodToken (r : Resource) : Except Fault Bool := do
  let t := (← r.token).toList
  return !Json.hasPart ['.', '.'] t && !t.contains '/'

/-- The proof: the key authorization of the token. -/
def keyAuthorization (r : Resource) (key : Option Key) : Except Fault String :=
  match key with
  | none => .error (.usage .noKeyToAuthorize)
  | some k => do return AcmeClient.keyAuthorization (← r.token) k

/-- The path at which a web server shows the proof. -/
def path (r : Resource) : Except Fault String := do
  return "/.well-known/acme-challenge/" ++ (← r.token)

/-- The URL at which the web server of a host shows the proof. -/
def uri (r : Resource) (host : String) : Except Fault String := do
  return "http://" ++ host ++ (← r.path)

def validationDigest (r : Resource) (key : Option Key) : Except Fault (List UInt8) := do
  return sha256 (Utf8.encode (← r.keyAuthorization key))

/-- The text of the record that shows the proof. -/
def digest (r : Resource) (key : Option Key) : Except Fault String := do
  return Base64.encode (← r.validationDigest key)

/-- The name of the record that shows the proof for a host. -/
def validationDomainName (host : String) : String :=
  "_acme-challenge." ++ host

/-- Writes the claims that ask the server to look for the proof. -/
def respond (r : Resource) (key : Option Key) (b : DraftBook) : Except Fault DraftBook := do
  let typ ← r.challengeType
  let b ← (b.put 0 "type" ((typ.map Value.string).getD .null)).mapError .ofValue
  match r.variant? with
  | some v =>
      if v.hasToken then
        (b.put 0 "keyAuthorization" (.string (← r.keyAuthorization key))).mapError .ofValue
      else return b
  | none => return b

end Resource

namespace Loading

def key : Loading (Option Key) := do
  return (← Act.onFirst Client.getSession).key

/-- Writes the claims that ask the server to look for the proof. -/
def respond (b : DraftBook) : Loading DraftBook := do
  (← resource).respond (← key) b

/-- Asks the server to look for the proof. -/
def trigger : Loading Unit := do
  let b ← respond .empty
  postHere (.draft b) [200, 202]

end Loading

end AcmeClient
