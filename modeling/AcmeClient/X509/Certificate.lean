import AcmeClient.Asn1.Pem
import AcmeClient.X509.Structure

/-!
# Certificates and chains

A certificate is the octets that its issuer signed and the signature, in one sequence of which
nothing but the structure is looked at.

* **`Certificate`** holds octets that are a certificate.
* **`Certificate.chainOfPem`** reads all certificates of a text in order, and
  **`Certificate.pemOfChain`** writes them.
* **`Certificate.ChainDefect`** is why a text holds no chain.
-/

namespace AcmeClient.X509

open Asn1

/-- Whether an element bounds a span of time. -/
def isValidity (e : Element) : Bool :=
  match e.sequence? with
  | some [first, last] => isTime first && isTime last
  | _ => false

/-- Takes the element with a tag off the front if its content is a string of bits; `none` when the
element is there and its content is not. -/
def takeBits? (tag : UInt8) : List Element → Option (List Element)
  | [] => some []
  | e :: rest => if e.tag = tag then (if e.holdsBits then some rest else none) else some (e :: rest)

/-- The optional parts at the end: two identifiers and the extensions, in this order. -/
def areTrailers (es : List Element) : Bool :=
  match (takeBits? 0x81 es).bind (takeBits? 0x82) |>.bind (Element.takeExplicit? 0xa3) with
  | some (extensions, []) => extensions.all isExtensions
  | _ => false

/-- The fields from the serial number on. -/
def areFields (es : List Element) : Bool :=
  match es with
  | serial :: algorithm :: issuer :: validity :: subject :: publicInfo :: trailers =>
      serial.integer?.isSome && isAlgorithm algorithm && isName issuer && isValidity validity
        && isName subject && isPublicInfo publicInfo && areTrailers trailers
  | _ => false

/-- The version of the signed part of a certificate. The first version, which is 0, is not
written. -/
def signedPartVersion? (e : Element) : Option Nat := do
  let (version, fields) ← Element.takeExplicit? 0xa0 (← e.sequence?)
  let number ← match version with
    | none => some 0
    | some v => (smallNumber? v).filter (· ≠ 0)
  if areFields fields then return number else none

/-- The version of the certificate that octets are, by its structure. -/
def certificateVersion? (bs : List UInt8) : Option Nat :=
  match (Element.only? bs).bind Element.sequence? with
  | some [signed, algorithm, signature] =>
      if isAlgorithm algorithm && signature.isBitString then signedPartVersion? signed else none
  | _ => none

/-- Whether octets are a certificate of a known version: the first or the third. -/
def isCertificate (bs : List UInt8) : Bool :=
  certificateVersion? bs == some 0 || certificateVersion? bs == some 2

structure Certificate where
  der : List UInt8
  wellFormed : isCertificate der = true
  deriving DecidableEq

namespace Certificate

def ofDer? (bs : List UInt8) : Option Certificate :=
  if h : isCertificate bs = true then some ⟨bs, h⟩ else none

/-- The marker without which a text holds no certificate. -/
def marker : List UInt8 :=
  Pem.ascii "-----BEGIN CERTIFICATE-----"

/-- Whether octets hold a mark. -/
def mentions (mark : List UInt8) : List UInt8 → Bool
  | [] => mark.isEmpty
  | b :: bs => mark.isPrefixOf (b :: bs) || mentions mark bs

inductive ChainDefect where
  | missing : ChainDefect
  | malformed : ChainDefect
  | version (d : VersionDefect) : ChainDefect
  deriving DecidableEq, Repr

def ofBlock (b : Pem.Block) : Except ChainDefect Certificate :=
  match ofDer? b.octets, certificateVersion? b.octets with
  | some c, _ => .ok c
  | none, some n => .error (.version ⟨"X509", n⟩)
  | none, none => .error .malformed

/-- All certificates of a text, in order. Other blocks are passed over, but must be undamaged. -/
def chainOfPem (bs : List UInt8) : Except ChainDefect (List Certificate) :=
  if !mentions marker bs then .error .missing
  else
    let isOurs (b : Pem.Block) := b.label = "CERTIFICATE" ∨ b.label = "X509 CERTIFICATE"
    match Pem.blocks? bs with
    | none => .error .malformed
    | some blocks =>
        match blocks.filter isOurs with
        | [] => .error .malformed
        | ours => ours.mapM ofBlock

def pem (c : Certificate) : String :=
  Pem.block "CERTIFICATE" c.der

def pemOfChain (cs : List Certificate) : String :=
  String.join (cs.map pem)

end Certificate

end AcmeClient.X509
