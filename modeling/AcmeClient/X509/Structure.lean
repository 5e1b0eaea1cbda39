import AcmeClient.Calendar.Date
import AcmeClient.X509.Parameters

/-!
# The parts that certificates and requests share

* **`isName`**, **`isPublicInfo`**, **`isTime`** and **`isExtensions`** recognise the elements that,
  besides algorithms, make up certificates and requests.
* **`VersionDefect`** is a version of a certificate or a request that is not known.
-/

namespace AcmeClient.X509

open Asn1 Calendar

/-- A certificate or a request of a version that is not known. -/
structure VersionDefect where
  kind : String
  number : Nat
  deriving DecidableEq, Repr

def VersionDefect.message (d : VersionDefect) : String :=
  toString d.number ++ " is not a valid " ++ d.kind ++ " version"

/-- The number in an integer element of one octet without sign. -/
def smallNumber? (e : Element) : Option Nat :=
  e.natural?.filter (· < 256)

/-- One attribute of a name: an object identifier and a value. -/
def isNamePart (e : Element) : Bool :=
  match e.sequence? with
  | some [oid, _] => oid.objectId?.isSome
  | _ => false

/-- A name: a sequence of sets of attributes. -/
def isName (e : Element) : Bool :=
  match e.sequence? with
  | some sets => sets.all fun s =>
      match s.setInside? 0x31 with
      | some parts => parts.all isNamePart
      | none => false
  | none => false

/-- A public key: its algorithm and a string of bits. -/
def isPublicInfo (e : Element) : Bool :=
  match e.sequence? with
  | some [algorithm, bits] => isAlgorithm algorithm && bits.isBitString
  | _ => false

/-- The two-digit numbers of a text of digits. -/
def pairsOf? : List UInt8 → Option (List Nat)
  | [] => some []
  | a :: b :: rest => do
      let more ← pairsOf? rest
      let digit (u : UInt8) : Option Nat :=
        if 48 ≤ u.toNat ∧ u.toNat ≤ 57 then some (u.toNat - 48) else none
      let hi ← digit a
      let lo ← digit b
      return (10 * hi + lo) :: more
  | _ => none

/-- Whether month, day, hour, minute and second are in range for a year. -/
def isMoment (year : Nat) : List Nat → Bool
  | [month, day, hour, minute, second] =>
      1 ≤ month && month ≤ 12 && 1 ≤ day && day ≤ daysInMonth year month
        && hour ≤ 23 && minute ≤ 59 && second ≤ 59
  | _ => false

/-- A time in universal time to the second, with a year of four digits or of two. Two digits stand
for a year from 1950 to 2049. -/
def isTime (e : Element) : Bool :=
  if e.content.getLast? ≠ some 90 then false
  else
    match e.tag, pairsOf? e.content.dropLast with
    | 0x17, some (y :: rest) => isMoment (if 50 ≤ y then 1900 + y else 2000 + y) rest
    | 0x18, some (c :: y :: rest) => isMoment (100 * c + y) rest
    | _, _ => false

/-- One extension: an object identifier, a mark when it is critical, and a value. -/
def isExtension (e : Element) : Bool :=
  match e.sequence? with
  | some [oid, value] => oid.objectId?.isSome && value.tag == 0x04
  | some [oid, critical, value] =>
      oid.objectId?.isSome && critical.tag == 0x01 && critical.content == [0xff]
        && value.tag == 0x04
  | _ => false

def isExtensions (e : Element) : Bool :=
  match e.sequence? with
  | some es => es.all isExtension
  | none => false

end AcmeClient.X509
