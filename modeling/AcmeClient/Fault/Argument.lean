import AcmeClient.Calendar.Instant
import AcmeClient.Json.Literal
import AcmeClient.Url.Split
import AcmeClient.X509.Request

/-!
# Arguments that are refused

* **`ArgumentDefect`** is why a value of the right kind is refused, or why a body does not represent
  the resource that it should.
* **`KindDefect`** is why a value of the wrong kind is refused.
* **`message?`** words a defect; what is wrong inside a key or a request has no wording.
-/

namespace AcmeClient

open Calendar Text

inductive ArgumentDefect where
  | url (d : Url.Defect) : ArgumentDefect
  | notText (name kind : String) : ArgumentDefect
  | notAbsolute (name url : String) : ArgumentDefect
  | unknownProvider (url : String) : ArgumentDefect
  | noOffset (t : Instant) : ArgumentDefect
  | revocationReason (code : Json) : ArgumentDefect
  | notInteger (text : String) : ArgumentDefect
  | notANumber : ArgumentDefect
  | problemCode (code : String) : ArgumentDefect
  | macAlgorithm (name : String) (known : List String) : ArgumentDefect
  | curve (name : String) : ArgumentDefect
  | keyKind (name : String) : ArgumentDefect
  | notAscii : ArgumentDefect
  | notAsciiText : ArgumentDefect
  | longDigest : ArgumentDefect
  | unreachable (host path reason : String) : ArgumentDefect
  | rebound (kind old new : String) : ArgumentDefect
  | notAccount (member : String) : ArgumentDefect
  | notAddress (text : String) : ArgumentDefect
  | notOrder : ArgumentDefect
  | notAuthorization : ArgumentDefect
  | notChallenge : ArgumentDefect
  | request (d : X509.Request.MakeDefect) : ArgumentDefect
  | unreadable : ArgumentDefect
  deriving Repr

namespace ArgumentDefect

def message? : ArgumentDefect → Option String
  | .url d => some d.message
  | .notText name kind => some (name ++ " must be a string, got " ++ kind)
  | .notAbsolute name text => some (name ++ " is not an absolute http(s) URL: " ++ quoted text)
  | .unknownProvider text => some ("Unknown ACME provider: " ++ quoted text)
  | .noOffset t => some ("Naive datetime cannot be encoded: " ++ t.literal)
  | .revocationReason code => some ("Unknown revocation reason code: " ++ code.literal)
  | .notInteger text => some ("invalid literal for int() with base 10: " ++ quoted text)
  | .notANumber => some "cannot convert float NaN to integer"
  | .problemCode code =>
      some ("The supplied code: " ++ code ++ " is not a known ACME error code")
  | .macAlgorithm name known =>
      some ("Invalid value for hmac_alg: " ++ name ++ ". Expected one of: "
        ++ ", ".intercalate known ++ ".")
  | .curve name => some ("Unsupported elliptic curve: " ++ name)
  | .keyKind name => some ("Unsupported key type: " ++ name)
  | .notAscii => some "unicode argument should contain only ASCII characters"
  | .notAsciiText => some "string argument should contain only ASCII characters"
  | .longDigest =>
      some "Digest too large for key size. Use a larger key or different digest."
  | .unreachable host path reason => some ("Requesting " ++ host ++ path ++ ":" ++ reason)
  | .rebound kind old new =>
      some (kind ++ " is already bound to " ++ old ++ ", cannot rebind to " ++ new)
  | .notAccount member =>
      some ("Not an account: body has a " ++ quoted member ++ " field")
  | .notAddress text =>
      some (quoted text ++ " does not appear to be an IPv4 or IPv6 address")
  | .notOrder => some "Not an order: body has no identifiers"
  | .notAuthorization => some "Not an authorization: body has no identifier"
  | .notChallenge => some "Not a challenge: body has no type"
  | .request d => d.message?
  | .unreadable => none

end ArgumentDefect

inductive KindDefect where
  | absent (name : String) : KindDefect
  | unhashable (kind : String) : KindDefect
  | notIterable (kind : String) : KindDefect
  | unwritable (kind : String) : KindDefect
  | notNumber (kind : String) : KindDefect
  | request (kind : String) : KindDefect
  | concatenation (kind : String) : KindDefect
  | overlap : KindDefect
  | notOctets (kind : String) : KindDefect
  | notSecret (kind : String) : KindDefect
  | missingArgument (method name : String) : KindDefect
  | extraArguments (method : String) (most given : Nat) : KindDefect
  deriving DecidableEq, Repr

namespace KindDefect

def message : KindDefect → String
  | .absent name => name ++ " must not be None"
  | .unhashable kind => "unhashable type: " ++ quoted kind
  | .notIterable kind => quoted kind ++ " object is not iterable"
  | .unwritable kind => "Object of type " ++ kind ++ " is not JSON serializable"
  | .notNumber kind =>
      "int() argument must be a string, a bytes-like object or a real number, not " ++ quoted kind
  | .request kind => "Unsupported CSR type: " ++ kind
  | .concatenation kind => "can only concatenate str (not \"" ++ kind ++ "\") to str"
  | .overlap => "Addition of overlapping headers not defined"
  | .notOctets kind =>
      "argument should be a bytes-like object or ASCII string, not " ++ quoted kind
  | .notSecret kind => "argument 'key': a bytes-like object is required, not " ++ quoted kind
  | .missingArgument method name =>
      method ++ "() missing 1 required positional argument: " ++ quoted name
  | .extraArguments method most given =>
      method ++ "() takes " ++ toString most ++ " positional arguments but " ++ toString given
        ++ " were given"

end KindDefect

end AcmeClient
