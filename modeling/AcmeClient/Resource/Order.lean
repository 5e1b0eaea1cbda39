import AcmeClient.Resource.Authorization
import AcmeClient.Resource.Certificate

/-!
# Orders

An order asks for a certificate for some identifiers. It needs an authorization for each, then it is
finalized with a certificate request, and in the end it links to the certificate.

* **`Resource.identifiers`**, **`notBefore`**, **`notAfter`**, **`orderFailure`** and
  **`finalizeUrl`** are read from the document.
* **`Resource.authorizations`** and **`Resource.certificate`** are linked resources, not loaded.
* **`Loading.finalize`** sends the certificate request.
-/

namespace AcmeClient

open Calendar

namespace Resource

/-- The identifiers; an item that is `null` is none. -/
def identifiers (r : Resource) : Except Fault (List (Option Identifier)) := do
  (← (r.field "identifiers").array).mapM Field.identifier?

/-- The start of the validity that was asked for. -/
def notBefore (r : Resource) : Except Fault (Option Instant) :=
  (r.field "notBefore").instant?

/-- The end of the validity that was asked for. -/
def notAfter (r : Resource) : Except Fault (Option Instant) :=
  (r.field "notAfter").instant?

/-- Why the order failed. -/
def orderFailure (r : Resource) : Except Fault (Option Problem) :=
  (r.field "error").problem? r.location

/-- The resource of a kind that an item of a list links to. -/
def linked (kind : ResourceKind) (f : Field) : Except Fault Resource := do
  unloaded kind (← f.url?)

/-- The authorizations, not loaded. -/
def authorizations (r : Resource) : Except Fault (List Resource) := do
  (← (r.field "authorizations").array).mapM (linked .authorization)

/-- The URL that takes the certificate request. -/
def finalizeUrl (r : Resource) : Except Fault (Option String) :=
  (r.field "finalize").url?

/-- The certificate, once there is one. -/
def certificate (r : Resource) : Except Fault (Option CertificateResource) := do
  match ← (r.field "certificate").url? with
  | none => return none
  | some url => return some (← CertificateResource.make (.string url))

end Resource

/-- Sends a certificate request and takes the document of the answer. -/
def Loading.finalize (form : X509.Request.Form) : Loading Unit := do
  let der ← ((X509.Request.derOf form).mapError Fault.ofForm : Except Fault _)
  match ← (← resource).finalizeUrl with
  | none => throw (.protocol (.missing "finalize"))
  | some url => post url (.draft (DraftBook.empty.putOctets 0 "csr" der)) [200]

end AcmeClient
