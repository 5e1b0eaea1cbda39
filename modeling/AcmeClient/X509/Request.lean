import AcmeClient.IpAddress
import AcmeClient.X509.PrivateKey
import AcmeClient.X509.Structure

/-!
# Certificate signing requests

A request names what a certificate is wanted for and holds the public key that it is wanted for, in
a sequence that this key has signed. Requests made here have an empty subject; the names stand in an
extension, host names before addresses.

* **`Request`** holds octets that are a request; **`Request.ofOctets`** and **`Request.ofPem`** read
  one, and **`Request.FormDefect`** says why they cannot.
* **`Request.make`** makes a request; **`Request.MakeDefect`** says why it cannot.
* **`Request.Form`** is anything that may stand for a request, and **`Request.derOf`** its octets.
-/

namespace AcmeClient.X509

open Asn1 Signature

/-- One attribute of a request: an object identifier and a set of values. -/
def isAttribute (e : Element) : Bool :=
  match e.sequence? with
  | some [oid, values] => oid.objectId?.isSome && (values.setInside? 0x31).isSome
  | _ => false

def requestInfoVersion? (e : Element) : Option Nat := do
  match ← e.sequence? with
  | [version, subject, publicInfo, attributes] =>
      let number ← smallNumber? version
      let es ← attributes.setInside? 0xa0
      if isName subject && isPublicInfo publicInfo && es.all isAttribute then return number
      else none
  | _ => none

def requestVersion? (bs : List UInt8) : Option Nat :=
  match (Element.only? bs).bind Element.sequence? with
  | some [info, algorithm, signature] =>
      if isAlgorithm algorithm && signature.isBitString then requestInfoVersion? info else none
  | _ => none

/-- Whether octets are a request of the first version, which is the only one. -/
def isRequest (bs : List UInt8) : Bool :=
  requestVersion? bs == some 0

structure Request where
  der : List UInt8
  wellFormed : isRequest der = true
  deriving DecidableEq

namespace Request

def ofDer? (bs : List UInt8) : Option Request :=
  if h : isRequest bs = true then some ⟨bs, h⟩ else none

def labels : List String :=
  ["CERTIFICATE REQUEST", "NEW CERTIFICATE REQUEST"]

def blockOctets? (bs : List UInt8) : Option (List UInt8) := do
  let blocks ← Pem.blocks? bs
  return (← blocks.find? fun b => labels.contains b.label).octets

def pemOf (der : List UInt8) : String :=
  Pem.block "CERTIFICATE REQUEST" der

/-! ### Making a request -/

/-- The identifier of the extension that lists names. -/
def namesId : List Nat := [2, 5, 29, 17]

/-- The identifier of the extension that asks for features. -/
def featuresId : List Nat := [1, 3, 6, 1, 5, 5, 7, 1, 24]

/-- The identifier of the attribute that asks for extensions. -/
def wantedId : List Nat := [1, 2, 840, 113549, 1, 9, 14]

def namesExtension (domains : List String) (addresses : List IpAddress) : List UInt8 :=
  sequenceOf [objectId namesId,
    octetString (sequenceOf (domains.map (fun d => element 0x82 (Pem.ascii d))
      ++ addresses.map fun a => element 0x87 a.octets))]

/-- The extension that makes the holder staple a proof of validity: the list of one feature. -/
def stapleExtension : List UInt8 :=
  sequenceOf [objectId featuresId, octetString (sequenceOf [integer 5])]

/-- The signed part of a request. -/
def info (key : PrivateKey) (domains : List String) (addresses : List IpAddress) (staple : Bool) :
    List UInt8 :=
  let extensions := namesExtension domains addresses :: (if staple then [stapleExtension] else [])
  let wanted := sequenceOf [objectId wantedId, set (sequenceOf extensions)]
  sequenceOf [integer 0, sequenceOf [], key.publicInfo, element 0xa0 wanted]

inductive MakeDefect where
  | key (d : PrivateKey.TextDefect) : MakeDefect
  | keyKind : MakeDefect
  | nothingNamed : MakeDefect
  | hostName : MakeDefect
  | cannotSign : MakeDefect
  | tooLong : MakeDefect
  deriving DecidableEq, Repr

namespace MakeDefect

/-- The wording of a defect; there is none for a text that holds no key, for a key that cannot sign
and for a request that is too long. -/
def message? : MakeDefect → Option String
  | .key d => d.message?
  | .keyKind => some "Invalid private key type"
  | .nothingNamed =>
      some "At least one of domains or ipaddrs parameter need to be not empty"
  | .hostName =>
      some ("DNSName values should be passed as an A-label string. This means unicode characters "
        ++ "should be encoded via a library like idna.")
  | .cannotSign => none
  | .tooLong => none

end MakeDefect

/-- The octets of a request for a key, host names and addresses. A request that is made is read
again, which takes lengths of four octets at most. -/
def make (keyPem : List UInt8) (domains : List String) (addresses : List IpAddress)
    (staple : Bool) : Except MakeDefect (List UInt8) :=
  match PrivateKey.ofPem keyPem with
  | .error d => .error (.key d)
  | .ok key =>
      if !key.isForCertificates then .error .keyKind
      else if domains.isEmpty && addresses.isEmpty then .error .nothingNamed
      else if domains.any fun d => d.toList.any fun c => 128 ≤ c.toNat then .error .hostName
      else
        let signed := info key domains addresses staple
        match key.sign? signed with
        | none => .error .cannotSign
        | some (algorithm, signature) =>
            match ofDer? (sequenceOf [signed, algorithm, bitString signature]) with
            | some r => .ok r.der
            | none => .error .tooLong

/-- The signed part of a request and the signature. -/
def split? (der : List UInt8) : Option (List UInt8 × List UInt8) := do
  match ← (Element.only? der).bind Element.sequence? with
  | [info, _, signature] => return (info.octets, ← signature.wholeBits?)
  | _ => none

/-! ### The forms of a request -/

/-- Anything that may stand for a request: one that is read already, a text, octets, or a value of
a kind that cannot be one. -/
inductive Form where
  | loaded (r : Request) : Form
  | text (s : String) : Form
  | octets (bs : List UInt8) : Form
  | other (kind : String) : Form
  deriving DecidableEq

/-- Why a form stands for no request. -/
inductive FormDefect where
  | kind (name : String) : FormDefect
  | notAscii (characters : List Char) (place : Nat) : FormDefect
  | malformed : FormDefect
  | version (d : VersionDefect) : FormDefect
  deriving DecidableEq, Repr

/-- The first run of characters outside ASCII, and its place. -/
def firstForeign? (cs : List Char) : Option (List Char × Nat) :=
  let isAscii (c : Char) : Bool := c.toNat < 128
  match cs.dropWhile isAscii with
  | [] => none
  | c :: rest => some ((c :: rest).takeWhile (!isAscii ·), (cs.takeWhile isAscii).length)

def ofOctets (bs : List UInt8) : Except FormDefect Request :=
  match ofDer? bs, requestVersion? bs with
  | some r, _ => .ok r
  | none, some n => .error (.version ⟨"CSR", n⟩)
  | none, none => .error .malformed

def ofPem (bs : List UInt8) : Except FormDefect Request :=
  match blockOctets? bs with
  | some der => ofOctets der
  | none => .error .malformed

/-- The request in octets, which are armoured when they start, after blanks, with a marker. -/
def read (bs : List UInt8) : Except FormDefect Request :=
  let isBlank (b : UInt8) : Bool := b = 32 || (9 ≤ b && b ≤ 13)
  if (Pem.ascii "-----BEGIN").isPrefixOf (bs.dropWhile isBlank) then ofPem bs else ofOctets bs

def derOf : Form → Except FormDefect (List UInt8)
  | .loaded r => .ok r.der
  | .other kind => .error (.kind kind)
  | .octets bs => (read bs).map Request.der
  | .text s =>
      match firstForeign? s.toList with
      | some (run, place) => .error (.notAscii run place)
      | none => (read (Pem.ascii s)).map Request.der

end Request

end AcmeClient.X509
