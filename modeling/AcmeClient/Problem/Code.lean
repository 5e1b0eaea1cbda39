/-!
# Codes of problems

A problem of the protocol has a type that starts with one name space and ends in a code of the
table.

* **`ProblemCode.descriptions`** is the table of codes and what they mean.
* **`ProblemCode.ofType?`** is the code of a type, **`ProblemCode.describe?`** its description.
-/

namespace AcmeClient.ProblemCode

def space : String :=
  "urn:ietf:params:acme:error:"

def descriptions : List (String × String) :=
  [("accountDoesNotExist", "The request specified an account that does not exist"),
    ("alreadyRevoked",
      "The request specified a certificate to be revoked that has already been revoked"),
    ("badCSR", "The CSR is unacceptable (e.g., due to a short key)"),
    ("badNonce", "The client sent an unacceptable anti-replay nonce"),
    ("badPublicKey", "The JWS was signed by a public key the server does not support"),
    ("badRevocationReason", "The revocation reason provided is not allowed by the server"),
    ("badSignatureAlgorithm",
      "The JWS was signed with an algorithm the server does not support"),
    ("caa",
      "Certification Authority Authorization (CAA) records forbid the CA from issuing a certificate"),
    ("compound", "Specific error conditions are indicated in the \"subproblems\" array"),
    ("connection", "The server could not connect to the client to verify the domain"),
    ("dns", "There was a problem with a DNS query during identifier validation"),
    ("dnssec", "The server could not validate a DNSSEC signed domain"),
    ("incorrectResponse", "Response received didn't match the challenge's requirements"),
    ("invalidContact", "The provided contact URI was invalid"),
    ("malformed", "The request message was malformed"),
    ("rejectedIdentifier", "The server will not issue certificates for the identifier"),
    ("orderNotReady",
      "The request attempted to finalize an order that is not ready to be finalized"),
    ("rateLimited", "There were too many requests of a given type"),
    ("serverInternal", "The server experienced an internal error"),
    ("tls", "The server experienced a TLS error during domain verification"),
    ("unauthorized", "The client lacks sufficient authorization"),
    ("unsupportedContact", "A contact URL for an account used an unsupported protocol scheme"),
    ("unsupportedIdentifier", "An identifier is of an unsupported type"),
    ("userActionRequired", "Visit the \"instance\" URL and take actions specified there"),
    ("externalAccountRequired", "The server requires external account binding")]

/-- Whether a code is in the table. -/
def isKnown (code : String) : Bool :=
  (descriptions.lookup code).isSome

def isSpaced (typ : String) : Bool :=
  space.toList.isPrefixOf typ.toList

/-- What a type in the name space says after it. -/
def local? (typ : String) : Option String :=
  if isSpaced typ then some (String.ofList (typ.toList.drop space.toList.length)) else none

def ofType? (typ : String) : Option String := do
  let code ← local? typ
  if isKnown code then some code else none

def describe? (typ : String) : Option String := do
  descriptions.lookup (← local? typ)

end AcmeClient.ProblemCode
