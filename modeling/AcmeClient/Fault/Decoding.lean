import AcmeClient.Asn1.Ber
import AcmeClient.Base64
import AcmeClient.Constant
import AcmeClient.Json.Document

/-!
# Objects that cannot be decoded

Identifiers, keys and signed documents are decoded member by member. Each level of decoding puts its
own words in front of those of the level below.

* **`DecodingDefect`** is why a value is no such object, **`DecodingDefect.message`** its wording.
-/

namespace AcmeClient

open Text

/-- Why a value cannot be decoded as an object of the protocol. -/
inductive DecodingDefect where
  | required (names : List String) : DecodingDefect
  | member (name : String) (value : Json) (reason : DecodingDefect) : DecodingDefect
  | constant (set : ConstantSet) : DecodingDefect
  | base64 (d : Base64.Defect) : DecodingDefect
  | nonce (reason : DecodingDefect) : DecodingDefect
  | grammar (d : JsonDefect) : DecodingDefect
  | critical : DecodingDefect
  | mixedForms : DecodingDefect
  | noAlgorithm : DecodingDefect
  | semicolon : DecodingDefect
  | noKeyKind : DecodingDefect
  | notObject (value : Json) : DecodingDefect
  | keyKind (kind value : Json) : DecodingDefect
  | coordinate (name : String) (wanted found : Nat) : DecodingDefect
  | certificate (reasons : List Asn1.BerDefect) : DecodingDefect
  | unspecified : DecodingDefect
  deriving Repr

namespace DecodingDefect

def message : DecodingDefect → String
  | .required names =>
      inner ("The following fields are required: " ++ ",".intercalate names)
  | .member name value reason =>
      inner ("Could not decode " ++ quoted name ++ " (" ++ value.literal ++ "): " ++ reason.message)
  | .constant set => inner (set.name ++ " not recognized")
  | .base64 d => inner d.message
  | .nonce reason => inner ("Invalid nonce: " ++ reason.message)
  | .grammar d => inner d.message
  | .critical => inner "\"crit\" is not supported, please subclass"
  | .mixedForms => inner "Flat mixed with non-flat"
  | .noAlgorithm => inner "alg not present"
  | .semicolon => inner "Unexpected semi-colon"
  | .noKeyKind => inner "missing type field"
  | .notObject value => inner (value.shown ++ " is not a dictionary object")
  | .keyKind kind value =>
      kind.shown ++ " was not recognized, full message: " ++ value.literal
  | .coordinate name wanted found =>
      inner ("Expected parameter \"" ++ name ++ "\" to be " ++ toString wanted
        ++ " bytes after base64-decoding; got " ++ toString found ++ " bytes instead")
  | .certificate reasons => inner (Asn1.BerDefect.listText reasons)
  | .unspecified => inner ""
where
  /-- The words of one level. -/
  inner (s : String) : String := "Deserialization error: " ++ s

end DecodingDefect

end AcmeClient
