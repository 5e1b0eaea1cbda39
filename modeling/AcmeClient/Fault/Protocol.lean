import AcmeClient.Calendar.HttpDate
import AcmeClient.Calendar.Timestamp
import AcmeClient.Fault.Decoding
import AcmeClient.Problem.Basic

/-!
# Answers that break the protocol, and refusals by the server

* **`Rejection`** is a refusal by the server, with the problem that it explains. Three codes of
  problems make kinds of their own.
* **`ProtocolDefect`** is why an answer has not the structure that the protocol requires.
-/

namespace AcmeClient

open Calendar Text

/-- The kinds of refusals; each keeps what the headers of the answer said for it. -/
inductive RejectionKind where
  | plain : RejectionKind
  | rateLimited (retryAfter : Option Instant) : RejectionKind
  | unauthorized : RejectionKind
  | userActionRequired (terms : Option String) : RejectionKind
  deriving DecidableEq, Repr

namespace RejectionKind

def name : RejectionKind → String
  | .plain => "ServerError"
  | .rateLimited _ => "RateLimited"
  | .unauthorized => "Unauthorized"
  | .userActionRequired _ => "UserActionRequired"

end RejectionKind

/-- A refusal: the problem document, if the body was one, the status of the answer, and words for
an answer without a problem. -/
structure Rejection where
  kind : RejectionKind
  problem : Option Problem
  status : Option Int
  words : Option String
  deriving Repr

namespace Rejection

/-- A number that may be absent. -/
def statusText (status : Option Int) : String :=
  match status with
  | some n => Number.integerText n
  | none => "None"

/-- The text of a refusal: its problem, its words, or its status. -/
def text (r : Rejection) : Except Url.Defect String :=
  match r.problem, r.words with
  | some p, _ => p.text
  | none, some w => .ok w
  | none, none => .ok ("HTTP " ++ statusText r.status)

/-- A refusal as it is shown among other values. -/
def literal (r : Rejection) : String :=
  r.kind.name ++ "(problem="
    ++ (match r.problem with
      | some p => p.literal
      | none => "None")
    ++ ", status_code=" ++ statusText r.status ++ ")"

end Rejection

/-- What a field is expected to hold. -/
inductive FieldKind where
  | string : FieldKind
  | uri : FieldKind
  | url : FieldKind
  | instant : FieldKind
  | int : FieldKind
  | bool : FieldKind
  | object : FieldKind
  | array : FieldKind
  | binary : FieldKind
  | identifier : FieldKind
  deriving DecidableEq, Repr

/-- The words for what a field is expected to hold. -/
def FieldKind.text : FieldKind → String
  | .string => "a string"
  | .uri => "a URI"
  | .url => "an absolute URL"
  | .instant => "a timestamp"
  | .int => "an integer"
  | .bool => "a boolean"
  | .object => "an object"
  | .array => "an array"
  | .binary => "base64url data"
  | .identifier => "an identifier"

/-- Why the text or object in a field is not what it should be. -/
inductive FieldReason where
  | timestamp (d : Timestamp.Defect) : FieldReason
  | base64 (d : Base64.Defect) : FieldReason
  | notAscii : FieldReason
  | decoding (d : DecodingDefect) : FieldReason
  deriving Repr

def FieldReason.message : FieldReason → String
  | .timestamp d => d.message
  | .base64 d => d.message
  | .notAscii => "unicode argument should contain only ASCII characters"
  | .decoding d => d.message

inductive ProtocolDefect where
  | unspecified : ProtocolDefect
  | document (d : DocumentDefect) : ProtocolDefect
  | field (path : String) (kind : FieldKind) (value : Json) (reason : Option FieldReason) :
      ProtocolDefect
  | missing (path : String) : ProtocolDefect
  | emptyBody (url : Option String) : ProtocolDefect
  | retryAfter (value : String) (reason : Option HttpDate.Defect) : ProtocolDefect
  | noCertificate : ProtocolDefect
  | malformedChain : ProtocolDefect
  | directoryUnavailable (url : String) (rejection : Rejection) (text : String) : ProtocolDefect
  | malformedDirectory (d : DecodingDefect) : ProtocolDefect
  | notOffered (name : String) : ProtocolDefect
  | entryNotUrl (name literal : String) : ProtocolDefect
  | noLocation (resource : String) : ProtocolDefect
  | challengeType (found expected : String) : ProtocolDefect
  deriving Repr

namespace ProtocolDefect

def message : ProtocolDefect → String
  | .unspecified => ""
  | .document d => d.message
  | .field path kind value reason =>
      "Field " ++ quoted path ++ " is not " ++ kind.text ++ ": " ++ value.literal
        ++ (match reason with
          | some r => " (" ++ r.message ++ ")"
          | none => "")
  | .missing path => "Required field " ++ quoted path ++ " is missing"
  | .emptyBody url => "Empty response body from " ++ url.getD "None"
  | .retryAfter value reason =>
      "Invalid Retry-After header: " ++ quoted value
        ++ (match reason with
          | some r => " (" ++ r.message ++ ")"
          | none => "")
  | .noCertificate => "No certificate found in PEM data"
  | .malformedChain => "Malformed certificate chain"
  | .directoryUnavailable url _ text => "Cannot fetch directory from " ++ url ++ ": " ++ text
  | .malformedDirectory d => "Malformed directory: " ++ d.message
  | .notOffered name => "Server does not offer the " ++ name ++ " resource"
  | .entryNotUrl name literal => "Directory entry " ++ name ++ " is not a URL: " ++ literal
  | .noLocation resource => "Server did not send the " ++ resource ++ " location"
  | .challengeType found expected =>
      "Illegal challenge type " ++ quoted found ++ ", expected " ++ quoted expected

end ProtocolDefect

end AcmeClient
