import AcmeClient.Asn1.Der
import AcmeClient.Asn1.PemLines
import AcmeClient.Signature.Curve.Named
import AcmeClient.Signature.Ecdsa
import AcmeClient.Signature.Rsa
import AcmeClient.X509.Outline

/-!
# Private keys

* **`PrivateKey`** is a private key of one of the kinds that certificates are issued for, or of a
  kind that only agrees on secrets.
* **`PrivateKey.ofPem`** reads the first block that holds one, in the common form for all kinds or
  in the older form of one kind; **`PrivateKey.TextDefect`** is why it cannot.
* **`PrivateKey.publicInfo`** is the written public part.
* **`PrivateKey.sign?`** signs octets; keys on twisted curves cannot sign a digest, and others may
  be too small for it.
-/

namespace AcmeClient.X509

open Asn1 Digest Signature

/-- A private key. Keys on twisted curves and keys for agreement on secrets are known by their kind
only, and those on a curve that is known by name only by this name. -/
inductive PrivateKey where
  | rsa (publicPart : RsaPublic) (privatePart : RsaPrivate) : PrivateKey
  | curve (c : Curve) (number x y : Nat) : PrivateKey
  | otherCurve (name : String) : PrivateKey
  | field (f : PrimeField) (number y : Nat) : PrivateKey
  | twisted : PrivateKey
  | agreement : PrivateKey
  deriving DecidableEq, Repr

namespace PrivateKey

def rsaId : List Nat := [1, 2, 840, 113549, 1, 1, 1]

/-- The kind of RSA keys for salted signatures only. -/
def saltedId : List Nat := [1, 2, 840, 113549, 1, 1, 10]

def curveId : List Nat := [1, 2, 840, 10045, 2, 1]

def fieldId : List Nat := [1, 2, 840, 10040, 4, 1]

/-- The kinds of keys on twisted curves, and how many octets they have. -/
def twistedIds : List (List Nat × Nat) := [([1, 3, 101, 112], 32), ([1, 3, 101, 113], 57)]

/-- The kinds of keys that agree on secrets by twisted curves, and how many octets they have. -/
def agreementIds : List (List Nat × Nat) := [([1, 3, 101, 110], 32), ([1, 3, 101, 111], 56)]

/-- The kinds of keys that agree on secrets in prime fields. -/
def exchangeIds : List (List Nat) := [[1, 2, 840, 113549, 1, 3, 1], [1, 2, 840, 10046, 2, 1]]

/-! ### Parts of keys -/

/-- The elements of the sequence at the front of octets, which may be followed by anything. -/
def frontSequence? (bs : List UInt8) : Option (List Element) := do
  (← Element.read? bs).1.sequence?

/-- The number that the octets of an integer spell, which are taken without a sign. -/
def magnitude? (e : Element) : Option Nat :=
  if e.tag = 0x02 then some (numberOf e.content) else none

/-- A version, which has at most four octets; one without octets is zero. -/
def version? (e : Element) : Option Int :=
  if e = ⟨0x02, [], []⟩ then some 0
  else if e.content.length ≤ 4 then e.integer?
  else none

/-- The point of a curve that octets spell: a mark and both coordinates, or the first one and which
of the two points it is. -/
def pointOf? (c : Curve) (bs : List UInt8) : Option (Nat × Nat) :=
  let x := numberOf ((bs.drop 1).take c.size)
  let y := numberOf (bs.drop (1 + c.size))
  let onCurve (y : Nat) : Option (Nat × Nat) := if c.holds x y then some (x, y) else none
  match bs with
  | [] => none
  | form :: rest =>
      let mark := form.toNat % 2
      if rest.length = 2 * c.size then
        if form = 4 ∨ (form = 6 ∨ form = 7) ∧ c.mark x y = mark then onCurve y else none
      else if rest.length = c.size ∧ (form = 2 ∨ form = 3) then
        let y := c.ordinate x
        onCurve (if c.mark x y = mark then y else c.opposite x y)
      else none

def fieldOf? (e : Element) : Option PrimeField := do
  match ← (← e.sequence?).mapM magnitude? with
  | [p, q, g] => return ⟨p, q, g⟩
  | _ => none

/-! ### Keys of one kind -/

/-- An RSA key: version, modulus, public exponent, and the private numbers. -/
def ofRsa? (bs : List UInt8) : Option PrivateKey := do
  match ← frontSequence? bs with
  | version :: numbers =>
      if (← version? version) = 1 then none
      else
        match ← (numbers.take 8).mapM magnitude?, numbers.drop 8 with
        | [n, e, d, p, q, dp, dq, qi], [] => return .rsa ⟨n, e⟩ ⟨d, p, q, dp, dq, qi⟩
        | _, _ => none
  | [] => none

/-- The key with a private number on the curve with an object identifier. The public point follows
from the number when it is left out. -/
def onCurve? (oid : List Nat) (number : Nat) (point : Option Element) : Option PrivateKey :=
  match Curve.ofOid? oid with
  | some c => do
      let (x, y) ← match point with
        | some e => pointOf? c (← e.wholeBits?)
        | none => c.baseMultiple? (number % c.order)
      return .curve c number x y
  | none =>
      if point.all (·.wholeBits?.isSome) then (Curve.otherName? oid).map .otherCurve else none

/-- A key on a curve: version, private number, and optionally the name of the curve and the public
point. The curve that goes with the kind of the key counts when there is none inside. -/
def ofCurve? (named : Option Element) (bs : List UInt8) : Option PrivateKey := do
  match ← frontSequence? bs with
  | version :: number :: rest =>
      let _ ← version? version
      let n := numberOf (← number.octetString?)
      let (inner, rest) ← Element.takeExplicit? 0xa0 rest
      let (point, rest) ← Element.takeExplicit? 0xa1 rest
      let oid ← (← inner.or named).objectId?
      if rest = [] then onCurve? oid n point else none
  | _ => none

/-- A key in a prime field in the older form. -/
def ofField? (bs : List UInt8) : Option PrivateKey := do
  match ← frontSequence? bs with
  | version :: numbers =>
      let _ ← version? version
      match ← numbers.mapM magnitude? with
      | [p, q, g, y, x] => return .field ⟨p, q, g⟩ x y
      | _ => none
  | [] => none

/-- Whether octets are an octet string of a length, perhaps followed by something. -/
def isRaw (size : Nat) (bs : List UInt8) : Bool :=
  match Element.read? bs with
  | some (e, _) => e.tag == 0x04 && e.content.length == size
  | none => false

/-- A key of a kind with parameters. The public number of a key in a prime field follows from its
parameters, so their modulus has to be odd. -/
def ofKind? (oid : List Nat) (parameters : Option Element) (key : List UInt8) :
    Option PrivateKey :=
  if oid = rsaId then ofRsa? key
  else if oid = saltedId then if parameters.all (·.tag = 0x30) then ofRsa? key else none
  else if oid = curveId then do
    let e ← parameters
    if e.tag = 0x06 then ofCurve? (some e) key else none
  else if oid = fieldId then do
    let f ← fieldOf? (← parameters)
    let x ← (← Element.read? key).1.natural?
    if f.prime % 2 = 1 then some (.field f x (Dsa.publicNumber f x)) else none
  else if exchangeIds.contains oid then do
    let _ ← (← parameters).sequence?
    let _ ← (← Element.read? key).1.natural?
    return .agreement
  else if parameters.isSome then none
  else
    match twistedIds.lookup oid, agreementIds.lookup oid with
    | some size, _ => if isRaw size key then some .twisted else none
    | _, some size => if isRaw size key then some .agreement else none
    | none, none => none

/-! ### Keys of all kinds -/

/-- The outline of an attribute: its name and its values. -/
def attributeOutline : Item :=
  Asn1.sequence [.plain (ofType 6), .plain (listOf 17 anything)]

/-- The outline of the common form: version, kind, the key itself, and perhaps attributes. -/
def commonOutline : Item :=
  Asn1.sequence [.plain (ofType 2), .plain algorithmOutline, .plain (ofType 4),
    (Slot.tagged 0 (listOf 17 attributeOutline)).optional]

def encryptedOutline : Item :=
  Asn1.sequence [.plain algorithmOutline, .plain (ofType 4)]

/-- Whether octets begin with something that has an outline. -/
def hasOutline (outline : Item) (bs : List UInt8) : Bool :=
  (outline none false bs).toOption.isSome

def ofCommon? (bs : List UInt8) : Option PrivateKey := do
  match ← frontSequence? bs with
  | _ :: kind :: key :: _ =>
      match ← kind.sequence? with
      | oid :: parameters =>
          if hasOutline commonOutline bs then
            ofKind? (← oid.objectId?) parameters.head? (← key.octetString?)
          else none
      | [] => none
  | _ => none

def isNamedBy (label : String) : PrivateKey → Bool
  | .rsa .. => label = "RSA PRIVATE KEY"
  | .curve .. => label = "EC PRIVATE KEY"
  | .otherCurve _ => label = "EC PRIVATE KEY"
  | .field .. => label = "DSA PRIVATE KEY"
  | _ => false

/-- Why a text holds no private key that can be used: it holds none, an encrypted one, or one on a
curve that is known by name only. -/
inductive TextDefect where
  | malformed : TextDefect
  | encrypted : TextDefect
  | otherCurve (name : String) : TextDefect
  deriving DecidableEq, Repr

/-- The wording of a defect. Keys on one of the curves are a kind of their own. -/
def TextDefect.message? : TextDefect → Option String
  | .otherCurve "SM2" => some "Unsupported key type."
  | .otherCurve name => some (name ++ " is not a supported elliptic curve")
  | _ => none

/-- The key in octets under a label, in the form of its kind or in the common one. -/
def ofLabelled? (label : String) (bs : List UInt8) : Option PrivateKey :=
  let ofOwn? : Option (List UInt8 → Option PrivateKey) :=
    [("RSA PRIVATE KEY", ofRsa?), ("EC PRIVATE KEY", ofCurve? none),
      ("DSA PRIVATE KEY", ofField?)].lookup label
  match ofOwn? with
  | some f => (f bs).or ((ofCommon? bs).filter (isNamedBy label))
  | none => if label = "PRIVATE KEY" ∨ label = "ENCRYPTED PRIVATE KEY" then ofCommon? bs else none

def labels : List String :=
  ["PRIVATE KEY", "ENCRYPTED PRIVATE KEY", "RSA PRIVATE KEY", "EC PRIVATE KEY", "DSA PRIVATE KEY"]

/-- What a block holds; nothing when it is passed over. -/
def ofBlock? (b : Pem.LineBlock) : Option (Except TextDefect PrivateKey) :=
  let label := String.ofList (b.label.map fun u => Char.ofNat u.toNat)
  if !labels.contains label then none
  else
    match b.isEncrypted? with
    | none => some (.error .malformed)
    | some true => some (.error .encrypted)
    | some false =>
        if label = "ENCRYPTED PRIVATE KEY" ∧ hasOutline encryptedOutline b.octets then
          some (.error .encrypted)
        else (ofLabelled? label b.octets).map .ok

/-- Why a key that can be read is of no use. -/
def refusal? : PrivateKey → Option TextDefect
  | .rsa k s => if s.fits k then none else some .malformed
  | .otherCurve name => some (.otherCurve name)
  | _ => none

def ofPem (bs : List UInt8) : Except TextDefect PrivateKey :=
  let blocks := Pem.lineBlocks bs
  match blocks.findSome? ofBlock? with
  | some (.ok k) => k.refusal?.elim (.ok k) .error
  | some (.error d) => .error d
  | none =>
      .error (if blocks.any (·.isEncrypted? == some true) then .encrypted else .malformed)

/-- A point as octets: a mark and two coordinates of full length. -/
def pointOctets (c : Curve) (x y : Nat) : List UInt8 :=
  4 :: (octetsOf c.size x ++ octetsOf c.size y)

/-- The written public part: its kind with parameters, and the public numbers. -/
def publicInfo : PrivateKey → List UInt8
  | .rsa k _ =>
      sequenceOf [sequenceOf [objectId rsaId, null],
        bitString (sequenceOf [integer k.modulus, integer k.exponent])]
  | .curve c _ x y =>
      sequenceOf [sequenceOf [objectId curveId, objectId c.oid], bitString (pointOctets c x y)]
  | .field f _ y =>
      sequenceOf [sequenceOf [objectId fieldId, sequenceOf [integer f.prime, integer f.order,
        integer f.base]], bitString (integer y)]
  | _ => []

/-- Whether certificates are issued for keys of this kind. -/
def isForCertificates : PrivateKey → Bool
  | .agreement => false
  | _ => true

/-- The written name of the way in which a key signs a digest of 256 bits, and the signature of
octets. -/
def sign? (k : PrivateKey) (bs : List UInt8) : Option (List UInt8 × List UInt8) :=
  let both (rs : Nat × Nat) := sequenceOf [integer rs.1, integer rs.2]
  match k with
  | .rsa pub priv =>
      if Rsa.hasRoom pub .sha256 then
        some (sequenceOf [objectId [1, 2, 840, 113549, 1, 1, 11], null],
          Rsa.sign pub priv .sha256 bs)
      else none
  | .curve c number _ _ =>
      some (sequenceOf [objectId [1, 2, 840, 10045, 4, 3, 2]],
        both (Ecdsa.sign c number .sha256 bs))
  | .field f number _ =>
      if f.isUsable then
        some (sequenceOf [objectId [2, 16, 840, 1, 101, 3, 4, 3, 2]],
          both (Dsa.sign f number .sha256 bs))
      else none
  | _ => none

/-- The two numbers of a written signature. -/
def readPair? (bs : List UInt8) : Option (Nat × Nat) := do
  match ← (← (← Element.only? bs).sequence?).mapM Element.natural? with
  | [r, s] => return (r, s)
  | _ => none

def verifies (k : PrivateKey) (bs signature : List UInt8) : Bool :=
  match k with
  | .rsa pub _ => Rsa.verify pub .sha256 bs signature
  | .curve c _ x y =>
      match readPair? signature with
      | some (r, s) => Ecdsa.verify c x y .sha256 bs r s
      | none => false
  | .field f _ y =>
      match readPair? signature with
      | some (r, s) => Dsa.verify f y .sha256 bs r s
      | none => false
  | _ => false

end PrivateKey

end AcmeClient.X509
