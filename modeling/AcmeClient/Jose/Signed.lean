import AcmeClient.Jose.Header

/-!
# Signed documents

A signature covers the protected header and the payload, both in base64 with a point between them.

* **`Signed`** is a document with one signature, as it is sent; **`Signed.make`** signs and
  **`Signed.text`** writes it. **`Signed.inside?`** is a document that another one carries.
* **`Signed.request`** signs a request with a nonce: the account is named by its URL, or else the
  public key is embedded.
* **`SignedMessage`** is a document as it is read, with any number of signatures;
  **`SignedMessage.ofText`** reads it, **`SignedMessage.verify`** tests all signatures.
* **`accountBinding`** binds an account key to an account that a certificate authority knows
  already, with a secret that it gave out; **`keyAuthorization`** binds the token of a challenge to
  an account key.
-/

namespace AcmeClient

open Text

def signedOctets (protectedText : String) (payload : List UInt8) : List UInt8 :=
  Utf8.encode (Base64.encode (Utf8.encode protectedText) ++ "." ++ Base64.encode payload)

/-- A document with one signature and a protected header. -/
structure Signed where
  protectedText : String
  payload : List UInt8
  signature : List UInt8
  deriving DecidableEq, Repr

namespace Signed

/-- The protected header of a document: the key is embedded where no account is named. -/
def headerFor (key : Key) (a : Algorithm) (nonce : Option (List UInt8)) (url kid : Option String) :
    Header :=
  let text (name : String) (value : Option String) : List (String × HeaderValue) :=
    (value.map fun s => (name, HeaderValue.raw (.string s))).toList
  ⟨[("alg", .algorithm a)]
    ++ (if kid.isNone then [("jwk", .key key.publicKey)] else [])
    ++ text "kid" kid
    ++ (nonce.map fun bs => ("nonce", HeaderValue.octets bs)).toList
    ++ text "url" url⟩

def make (payload : List UInt8) (key : Key) (a : Algorithm) (nonce : Option (List UInt8))
    (url kid : Option String) : Except Fault Signed := do
  let protectedText := (headerFor key a nonce url kid).protectedText
  let signature ← a.sign key (signedOctets protectedText payload)
  return ⟨protectedText, payload, signature⟩

def request (payload : List UInt8) (key : Key) (nonce : List UInt8) (url kid : Option String) :
    Except Fault Signed := do
  make payload key (← Algorithm.ofKey key) (some nonce) url kid

def members (s : Signed) : Members :=
  [("protected", .string (Base64.encode (Utf8.encode s.protectedText))),
    ("signature", .string (Base64.encode s.signature)),
    ("payload", .string (Base64.encode s.payload))]

def ofMembers? (ms : Members) : Option Signed := do
  let octets (name : String) : Option (List UInt8) := do
    (Base64.decode (← (ms.get name).string?).toList).toOption
  return ⟨← (Utf8.decode (← octets "protected")).toOption, ← octets "payload", ← octets "signature"⟩

/-- The document that the payload is, or that binds an account among the claims of the payload. -/
def inside? (s : Signed) : Option Signed := do
  let ms ← (Body.octets s.payload).document.toOption
  (ofMembers? ms).or (match ms.get "externalAccountBinding" with
    | .object bound => ofMembers? bound
    | _ => none)

def algorithmName (s : Signed) : String :=
  match (Body.text s.protectedText).document with
  | .ok ms => (ms.get "alg").string?.getD ""
  | .error _ => ""

def verify (s : Signed) (key : Key) : Bool :=
  match Algorithm.ofName? s.algorithmName with
  | some a =>
      (a.verify key (signedOctets s.protectedText s.payload) s.signature).toOption.getD false
  | none => false

/-- The text of a document, one member on a line. -/
def text (s : Signed) : String :=
  let line (p : String × Json) : String :=
    "  " ++ (Json.string p.1).canonical ++ ": " ++ p.2.canonical
  "\x7b\n" ++ ",\n".intercalate (s.members.map line) ++ "\n\x7d"

end Signed

structure MessageSignature where
  header : Header
  protectedText : String
  octets : List UInt8
  deriving Repr

/-- A document as it is read. -/
structure SignedMessage where
  payload : List UInt8
  signatures : List MessageSignature
  deriving Repr

namespace MessageSignature

/-- The protected part of a header: octets in base64 that spell a text. -/
def decodeProtected (j : Json) : Except Fault String := do
  (Utf8.decode (← Key.octetsOfJson j)).mapError .malformedText

/-- A member that may be missing. -/
def decodeOptional {α : Type} (j : Json) (name : String) (default : α)
    (decode : Json → Except Fault α) : Except Fault α := do
  if ← contained (j.holds name) then
    decodeMember name (← contained (j.under name)) decode
  else return default

def ofJson (j : Json) : Except Fault MessageSignature := do
  let lacking ← lackingNames j ["signature"]
  if lacking ≠ [] then throw (.decoding (.required lacking))
  let protectedText ← decodeOptional j "protected" "" decodeProtected
  let free ← decodeOptional j "header" Header.empty Header.ofJson
  let octets ← decodeMember "signature" (← contained (j.under "signature")) Key.octetsOfJson
  let header ← if protectedText = "" then pure free else free.add (← Header.ofText protectedText)
  if header.algorithm?.isNone then throw (.decoding .noAlgorithm)
  return ⟨header, protectedText, octets⟩

def verify (s : MessageSignature) (payload : List UInt8) (key : Key) : Except Fault Bool :=
  match s.header.algorithm? with
  | some a => a.verify key (signedOctets s.protectedText payload) s.octets
  | none => .ok false

end MessageSignature

namespace SignedMessage

/-- The document that a JSON value describes: with one signature in it, or with a list of them. -/
def ofJson (j : Json) : Except Fault SignedMessage := do
  if ← contained (j.holds "signature") then
    if ← contained (j.holds "signatures") then throw (.decoding .mixedForms)
    match j with
    | .object ms =>
        let payload ← Key.octetsOfJson (← contained (j.under "payload"))
        return ⟨payload, [← MessageSignature.ofJson (.object (Members.remove "payload" ms))]⟩
    | other => throw (.lacking (.object other.kindName "items"))
  else
    let payload ← Key.octetsOfJson (← contained (j.under "payload"))
    let items ← contained (← contained (j.under "signatures")).elements
    return ⟨payload, ← items.mapM MessageSignature.ofJson⟩

def ofText (s : String) : Except Fault SignedMessage :=
  match (Body.text s).toJson with
  | .ok j => ofJson j
  | .error d => .error (.decoding (.grammar d))

/-- Whether all signatures are those of the payload under a key; the first one that is not ends the
test. -/
def verify (m : SignedMessage) (key : Key) : Except Fault Bool :=
  m.signatures.allM fun s => s.verify m.payload key

end SignedMessage

/-! ### What binds an account key -/

/-- The octets of a secret that is given in base64; only ASCII is read. -/
def decodeSecret (s : String) : Except Fault (List UInt8) :=
  if s.toList.any fun c => 128 ≤ c.toNat then .error (.argument .notAscii)
  else (Base64.decode s.toList).mapError .base64

/-- The algorithm of a name among those for message authentication codes. -/
def macAlgorithm (name : String) : Except Fault Algorithm :=
  match Algorithm.macs.find? fun a => a.name == name with
  | some a => .ok a
  | none => .error (.argument (.macAlgorithm name (Algorithm.macs.map Algorithm.name)))

/-- The document that binds an account key. -/
def accountBinding (accountKey : Key) (kid : Option String) (secret : String)
    (url : Option String) (algorithm : String) : Except Fault Signed := do
  let payload := Utf8.encode ((Json.object accountKey.members).render .plain)
  let octets ← decodeSecret secret
  let a ← macAlgorithm algorithm
  Signed.make payload (.secret octets) a none url kid

def keyAuthorization (token : String) (key : Key) : String :=
  token ++ "." ++ Base64.encode key.thumbprint

end AcmeClient
