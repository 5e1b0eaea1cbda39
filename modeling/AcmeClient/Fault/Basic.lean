import AcmeClient.Claims.Value
import AcmeClient.Fault.Argument
import AcmeClient.Fault.Protocol
import AcmeClient.Json.Container

/-!
# Faults

Every operation of the client either gives a result or fails with a fault.

* **`Fault`** says what failed: an argument, the transport, the answer of the server, or the server
  itself, which may refuse a request or ask to come back later.
* **`Fault.message?`** words a fault. There is no wording for what is wrong inside a key or a
  certificate request, and for a problem whose type cannot be resolved.
* **`UsageDefect`** is why an operation is not possible in the present state.
-/

namespace AcmeClient

open Calendar Text

/-- Why an operation is not possible in the present state. -/
inductive UsageDefect where
  | unspecified : UsageDefect
  | nothingSent : UsageDefect
  | noSigningKey : UsageDefect
  | unbound (kind : String) : UsageDefect
  | noKeyToAuthorize : UsageDefect
  | noKeyToCreate : UsageDefect
  | noKeyToChange : UsageDefect
  deriving DecidableEq, Repr

def UsageDefect.message : UsageDefect → String
  | .unspecified => ""
  | .nothingSent => "No request was sent on this connection"
  | .noSigningKey => "No key available to sign the request"
  | .unbound kind => kind ++ " is not bound to a location"
  | .noKeyToAuthorize => "Key authorization requires the account key"
  | .noKeyToCreate => "Creating an account requires the account key"
  | .noKeyToChange => "Changing the key requires the current account key"

/-- Why a key cannot be read or cannot sign: it has no private part, it lists only some of the
members that go together, or it is too short for the digest. -/
inductive KeyDefect where
  | publicOnly : KeyDefect
  | incomplete (members : List Json) : KeyDefect
  | short : KeyDefect
  deriving Repr

def KeyDefect.message : KeyDefect → String
  | .publicOnly => "Public key cannot be used for signing"
  | .incomplete members =>
      "Some private parameters are missing: (" ++ ", ".intercalate (members.map Json.literal) ++ ")"
  | .short =>
      "Digest or salt length too long for key size. Use a larger key or shorter salt length if you "
        ++ "are specifying a PSS salt"

/-- Why an object has no attribute: its class or itself lacks it, or the directory lists no entry
of that name. -/
inductive AttributeDefect where
  | object (kind name : String) : AttributeDefect
  | type (kind name : String) : AttributeDefect
  | entry (name : String) : AttributeDefect
  deriving DecidableEq, Repr

def missingEntry (name : String) : String :=
  quoted ("Directory field \"" ++ name ++ "\" not found")

def AttributeDefect.message : AttributeDefect → String
  | .object kind name => quoted kind ++ " object has no attribute " ++ quoted name
  | .type kind name => "type object " ++ quoted kind ++ " has no attribute " ++ quoted name
  | .entry name => missingEntry name

inductive Fault where
  | argument (d : ArgumentDefect) : Fault
  | kind (d : KindDefect) : Fault
  | container (d : ContainerDefect) : Fault
  | unknownName (value : Json) : Fault
  | noEntry (name : String) : Fault
  | lacking (d : AttributeDefect) : Fault
  | outOfRange (d : RangeDefect) : Fault
  | unbounded : Fault
  | noItem : Fault
  | foreignText (run : List Char) (place : Nat) : Fault
  | malformedText (d : Text.Defect) : Fault
  | transport (text : String) : Fault
  | base64 (d : Base64.Defect) : Fault
  | decoding (d : DecodingDefect) : Fault
  | key (d : KeyDefect) : Fault
  | version (d : X509.VersionDefect) : Fault
  | usage (d : UsageDefect) : Fault
  | protocol (d : ProtocolDefect) : Fault
  | unspecifiedNonce : Fault
  | badNonce (nonce reason : String) : Fault
  | missingNonce (headers : List (String × String)) : Fault
  | rejected (r : Rejection) : Fault
  | retryAfter (message : String) (instant : Instant) : Fault
  deriving Repr

/-- What a value stands for where a certificate request is wanted. -/
def X509.Request.Form.ofValue : Value → X509.Request.Form
  | .string s => .text s
  | .octets bs => .octets bs
  | v => .other v.kindName

namespace Fault

/-- The fault of a value that cannot be a claim. -/
def ofValue : ValueDefect → Fault
  | .noOffset t => .argument (.noOffset t)
  | .outOfRange d => .outOfRange d
  | .unwritable k => .kind (.unwritable k)
  | .notIterable k => .kind (.notIterable k)

def ofForm : X509.Request.FormDefect → Fault
  | .kind name => .kind (.request name)
  | .notAscii run place => .foreignText run place
  | .malformed => .argument .unreadable
  | .version d => .version d

def headersText (headers : List (String × String)) : String :=
  (Json.object (headers.map fun p => (p.1, .string p.2))).literal

/-- The wording of characters that are not ASCII. -/
def foreignMessage (run : List Char) (place : Nat) : String :=
  "'ascii' codec can't encode character"
    ++ (match run with
      | [c] => " '" ++ String.ofList (hexEscape c.toNat) ++ "' in position " ++ toString place
      | _ => "s in position " ++ toString place ++ "-" ++ toString (place + run.length - 1))
    ++ ": ordinal not in range(128)"

def message? : Fault → Option String
  | .argument d => d.message?
  | .kind d => some d.message
  | .container d => some d.message
  | .unknownName value => some value.literal
  | .noEntry name => some (missingEntry name)
  | .lacking d => some d.message
  | .outOfRange d => some d.message
  | .unbounded => some "cannot convert float infinity to integer"
  | .noItem => some "list index out of range"
  | .foreignText run place => some (foreignMessage run place)
  | .malformedText d => some d.message
  | .transport text => some text
  | .base64 d => some d.message
  | .decoding d => some d.message
  | .key d => some d.message
  | .version d => some d.message
  | .usage d => some d.message
  | .protocol d => some d.message
  | .unspecifiedNonce => some ""
  | .badNonce nonce reason => some ("Invalid nonce (" ++ quoted nonce ++ "): " ++ reason)
  | .missingNonce headers =>
      some ("Server response did not include a replay nonce, headers: " ++ headersText headers
        ++ " (This may be a service outage)")
  | .rejected r => r.text.toOption
  | .retryAfter message instant =>
      some (message ++ " (retry after " ++ instant.text ++ ")")

end Fault

end AcmeClient
