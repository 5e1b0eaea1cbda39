import AcmeClient.Asn1.Template
import AcmeClient.Text.Utf8

/-!
# The outline of a certificate

A certificate that only goes along with something else is read by its outline: its elements have to
be there, but what they mean is not looked at.

* **`certificateOutline`** is the template of a certificate.
* **`outlineDefects?`** is what keeps octets from being the outline of a certificate.
-/

namespace AcmeClient.X509

open Asn1

def algorithmOutline : Item :=
  Asn1.sequence [.plain (ofType 6), (Slot.plain anything).optional]

def nameTypes : List Nat := [3, 7, 8, 9, 11, 12, 13, 14, 15, 16, 18, 19, 20, 22, 28, 29, 30]

def isCharacter (n : Nat) : Bool :=
  n < 0xd800 || 0xdfff < n && n < 0x110000

/-- The numbers of units of `size` octets. -/
def unitsOf (size : Nat) (bs : List UInt8) : List Nat :=
  (List.range (bs.length / size)).map fun i => Digest.numberOf ((bs.drop (i * size)).take size)

/-- What is wrong with the characters of a text in a name. -/
def textDefect? (number : Nat) (bs : List UInt8) : Option BerDefect :=
  let units? (size : Nat) : Option BerDefect :=
    if (unitsOf size bs).all isCharacter then none else some .foreignText
  match number with
  | 12 => if (Text.Utf8.decode bs).toOption.isSome then none else some .malformedText
  | 28 => units? 4
  | 30 => units? 2
  | _ => none

/-- A name whose values pass a test. -/
def nameWith (defect? : Nat → List UInt8 → Option BerDefect) : Item :=
  listOf 16 (listOf 17 (Asn1.sequence [.plain (ofType 6), .plain (ofTypes nameTypes defect?)]))

/-- A name; its texts are looked at when all of it is read. -/
def nameOutline : Item := fun tag optional bs => do
  let rest? ← nameWith (fun _ _ => none) tag optional bs
  match nameWith textDefect? tag optional bs with
  | .error (d :: _) => throw [d, .nested]
  | _ => return rest?

def timeOutline : Item :=
  ofTypes [23, 24] fun _ _ => none

def publicInfoOutline : Item :=
  Asn1.sequence [.plain algorithmOutline, .plain (ofType 3)]

def extensionOutline : Item :=
  Asn1.sequence [.plain (ofType 6), (Slot.plain (ofType 1)).optional, .plain (ofType 4)]

def signedPartOutline : Item :=
  Asn1.sequence
    [(Slot.wrapped 0 false (ofType 2)).optional, .plain (ofType 2), .plain algorithmOutline,
      .plain nameOutline, .plain (Asn1.sequence [.plain timeOutline, .plain timeOutline]),
      .plain nameOutline, .plain publicInfoOutline, (Slot.tagged 1 (ofType 3)).optional,
      (Slot.tagged 2 (ofType 3)).optional,
      (Slot.wrapped 3 true (listOf 16 extensionOutline)).optional]

def certificateOutline : Item :=
  Asn1.sequence [.plain signedPartOutline, .plain algorithmOutline, .plain (ofType 3)]

/-- What keeps octets from being a certificate, which may be followed by anything. -/
def outlineDefects? (bs : List UInt8) : Option (List BerDefect) :=
  match extent bs with
  | .error ds => some ds
  | .ok front =>
      match certificateOutline none false front with
      | .error ds => some ds
      | .ok _ => none

end AcmeClient.X509
