import AcmeClient.Json.Parser
import AcmeClient.Json.Literal
import AcmeClient.Text.Wide

/-!
# Documents

A document is a JSON object that came as characters or as octets. The encoding of octets shows in
their first four: a mark names it, and zeros tell where the high halves of ASCII characters are.

* **`Body`** is what a document is read from.
* **`Encoding.detect`** finds the encoding of octets and the length of the mark in front.
* **`Body.toJson`** reads any value, **`Body.document`** an object.
-/

namespace AcmeClient

open Text

inductive Encoding where
  | utf8 : Encoding
  | utf16 (order : Order) : Encoding
  | utf32 (order : Order) : Encoding
  deriving DecidableEq, Repr

namespace Encoding

/-- The encoding of octets without a mark, by the zeros among the first four. -/
def byZeros : List UInt8 → Encoding
  | 0 :: 0 :: _ :: _ :: _ => .utf32 .big
  | 0 :: _ :: _ :: _ :: _ => .utf16 .big
  | _ :: 0 :: 0 :: 0 :: _ => .utf32 .little
  | _ :: 0 :: _ :: _ :: _ => .utf16 .little
  | [0, _] => .utf16 .big
  | [_, 0] => .utf16 .little
  | _ => .utf8

/-- The encoding of octets and the number of octets of its mark. -/
def detect (bs : List UInt8) : Encoding × Nat :=
  match bs with
  | 0 :: 0 :: 0xfe :: 0xff :: _ => (.utf32 .big, 4)
  | 0xff :: 0xfe :: 0 :: 0 :: _ => (.utf32 .little, 4)
  | 0xfe :: 0xff :: _ => (.utf16 .big, 2)
  | 0xff :: 0xfe :: _ => (.utf16 .little, 2)
  | 0xef :: 0xbb :: 0xbf :: _ => (.utf8, 3)
  | _ => (byZeros bs, 0)

/-- The text of octets in the encoding they show. -/
def decode (bs : List UInt8) : Except Defect String :=
  let (encoding, mark) := detect bs
  match encoding with
  | .utf8 => Utf8.decode (bs.drop mark)
  | .utf16 order => Utf16.decode order mark (bs.drop mark)
  | .utf32 order => Utf32.decode order mark (bs.drop mark)

end Encoding

/-- What a document is read from. -/
inductive Body where
  | text (s : String) : Body
  | octets (bs : List UInt8) : Body
  deriving DecidableEq, Repr

inductive JsonDefect where
  | encoding (d : Defect) : JsonDefect
  | grammar (e : Json.SyntaxError) : JsonDefect
  deriving DecidableEq, Repr

/-- The wording of a defect. -/
def JsonDefect.message : JsonDefect → String
  | .encoding d => d.message
  | .grammar e => e.message

inductive DocumentDefect where
  | malformed (d : JsonDefect) : DocumentDefect
  | kind (name : String) : DocumentDefect
  deriving DecidableEq, Repr

def DocumentDefect.message : DocumentDefect → String
  | .malformed d => "Malformed JSON: " ++ d.message
  | .kind name => "JSON object expected, got " ++ name

namespace Body

def toOctets : Body → List UInt8
  | .text s => Utf8.encode s
  | .octets bs => bs

/-- The JSON value of a body. A mark is welcome in octets and refused in front of characters. -/
def toJson : Body → Except JsonDefect Json
  | .text s =>
      if s.toList.head? = some '\uFEFF' then .error (.grammar ⟨.noByteOrderMark, 0, 1, 1⟩)
      else (Json.parse s).mapError .grammar
  | .octets bs =>
      match Encoding.decode bs with
      | .error d => .error (.encoding d)
      | .ok s => (Json.parse s).mapError .grammar

def document (b : Body) : Except DocumentDefect Members :=
  match b.toJson with
  | .error d => .error (.malformed d)
  | .ok (.object members) => .ok members
  | .ok j => .error (.kind j.kindName)

end Body

end AcmeClient
