import AcmeClient.Connection.Signed
import AcmeClient.Resource.Basic
import AcmeClient.Revocation

/-!
# Certificates

The chain of a certificate is downloaded when it is first asked for, together with the links to
other chains, and kept.

* **`CertificateResource`** is a certificate at its location.
* **`Holding α`** is an act of a client on a certificate: **`download`**, **`chain`**, **`leaf`**,
  **`alternates`**, **`alternateCertificates`**, **`writtenChain`**, **`revoke`**.
* **`Client.revoke`** revokes a certificate, with the account key or with the key of the
  certificate.
-/

namespace AcmeClient

open X509

/-- A certificate, with the chain and the links of its last download. -/
structure CertificateResource where
  location : Option String
  chain : Option (List Certificate)
  alternates : List String

namespace CertificateResource

def kindName : String := "Certificate"

/-- A certificate at a location, unless it is `null`. -/
def make (location : Json) : Except Fault CertificateResource :=
  match location with
  | .null => .ok ⟨none, none, []⟩
  | url => do return ⟨some (← bound kindName none url), none, []⟩

def bindTo (r : CertificateResource) (location : Json) : Except Fault CertificateResource := do
  return { r with location := some (← bound kindName r.location location) }

def literal (r : CertificateResource) : String :=
  kindName ++ "(location=" ++ locationLiteral r.location ++ ")"

def operations : List String :=
  ["_bind_location", "download", "chain", "certificate", "alternates", "alternate_certificates",
    "write_certificate", "revoke"]

end CertificateResource

/-- A resource of which only the location is known. -/
structure BareResource where
  location : Option String
  deriving DecidableEq, Repr

namespace BareResource

def kindName : String := "Resource"

/-- A resource at a location, unless it is `null`. -/
def make (location : Json) : Except Fault BareResource :=
  match location with
  | .null => .ok ⟨none⟩
  | url => do return ⟨some (← bound kindName none url)⟩

def bindTo (r : BareResource) (location : Json) : Except Fault BareResource := do
  return ⟨some (← bound kindName r.location location)⟩

def literal (r : BareResource) : String :=
  kindName ++ "(location=" ++ locationLiteral r.location ++ ")"

end BareResource

namespace Client

/-- The statuses of success. -/
def successes : List Int :=
  (List.range 100).map fun (n : Nat) => (200 : Int) + n

/-- The claims that revoke a certificate, with a reason unless it is `null`. -/
def revocationClaims (c : Certificate) (reason : Json) : Except Fault DraftBook := do
  let b := DraftBook.empty.putOctets 0 "certificate" c.der
  match reason with
  | .null => return b
  | given =>
      let r ← RevocationReason.ofGiven given
      (b.put 0 "reason" (.int r.code)).mapError .ofValue

/-- Revokes a certificate; a key that is given is the one of the certificate. -/
def revoke (c : Certificate) (reason : Json) (key : Option Key) : Act Client Unit := do
  let b ← revocationClaims c reason
  let url ← endpointUrl Endpoint.revokeCert.name
  connected do
    let _ ← Exchange.sendSigned url (.draft b) ⟨key, key.isNone⟩ Exchange.jsonType
    let _ ← Exchange.accept successes

end Client

/-- An act of a client on a certificate. -/
abbrev Holding (α : Type) := Act (Client × CertificateResource) α

namespace Holding

def resource : Holding CertificateResource := do
  return (← get).2

def bindTo (location : Json) : Holding Unit := do
  let placed ← (← resource).bindTo location
  modify fun s => (s.1, placed)

/-- The chain at a URL, and the links to other chains. -/
def downloaded (url : String) : Exchange (List Certificate × List String) := do
  let _ ← Exchange.fetch url Exchange.chainType
  let _ ← Exchange.accept [200]
  let chain ← Exchange.readCertificates
  return (chain, ← Exchange.links "alternate")

def download : Holding Unit := do
  let url ← locationOf CertificateResource.kindName (← resource).location
  let (chain, alternates) ← Act.onFirst (Client.connected (downloaded url))
  modify fun s => (s.1, { s.2 with chain := some chain, alternates })

/-- Downloads the chain unless it is there. -/
def ensure : Holding Unit := do
  if (← resource).chain.isNone then download

/-- The chain, the certificate itself first. -/
def chain : Holding (List Certificate) := do
  ensure
  return (← resource).chain.getD []

/-- The certificate itself. -/
def leaf : Holding Certificate := do
  match (← chain).head? with
  | some c => return c
  | none => throw .noItem

def alternates : Holding (List String) := do
  ensure
  return (← resource).alternates

/-- The certificates with other chains. -/
def alternateCertificates : Holding (List CertificateResource) := do
  (← alternates).mapM fun url => (CertificateResource.make (.string url) : Except Fault _)

def writtenChain : Holding String := do
  return Certificate.pemOfChain (← chain)

/-- Revokes the certificate with the account key. -/
def revoke (reason : Json) : Holding Unit := do
  let c ← leaf
  Act.onFirst (Client.revoke c reason none)

end Holding

end AcmeClient
