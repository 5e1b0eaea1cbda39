import AcmeClient.Digest.Sha2

/-!
# Distinguished encoding of structured data

An element is a tag, a length and that many octets of content, which for many tags are elements
again. A tag is one octet, or up to five when its number is large. Tag and length take as few octets
as possible.

* **`element`** writes an element; **`Element.read?`** reads one off the front, **`Element.all?`**
  reads elements up to the end, and **`Element.only?`** reads exactly one.
* **`integer`**, **`objectId`**, **`bitString`** and the others write elements of common tags;
  **`Element.integer?`** and **`Element.objectId?`** read two of them.
* **`Element.inside?`** reads the elements inside another one, **`Element.setInside?`** those of a
  set, which have to stand in the order of their octets.
-/

namespace AcmeClient.Asn1

open Digest

/-- The fewest octets that spell a positive number; none for zero. -/
def minimalOctets (n : Nat) : List UInt8 :=
  if n = 0 then [] else minimalOctets (n / 256) ++ [UInt8.ofNat (n % 256)]
termination_by n
decreasing_by omega

/-- The length of a content: one octet below 128, or a count of octets and these. -/
def lengthOctets (n : Nat) : List UInt8 :=
  if n < 128 then [UInt8.ofNat n]
  else
    let bs := minimalOctets n
    UInt8.ofNat (128 + bs.length) :: bs

def element (tag : UInt8) (content : List UInt8) : List UInt8 :=
  tag :: (lengthOctets content.length ++ content)

def sequenceOf (parts : List (List UInt8)) : List UInt8 :=
  element 0x30 parts.flatten

def set (part : List UInt8) : List UInt8 :=
  element 0x31 part

/-- A natural number; a zero octet keeps the leading bit free. -/
def integer (n : Nat) : List UInt8 :=
  let bs := minimalOctets n
  element 0x02 <|
    match bs with
    | [] => [0]
    | b :: _ => if 128 ≤ b.toNat then 0 :: bs else bs

def bitString (bs : List UInt8) : List UInt8 :=
  element 0x03 (0 :: bs)

def octetString (bs : List UInt8) : List UInt8 :=
  element 0x04 bs

def null : List UInt8 :=
  element 0x05 []

/-- The groups of seven bits of a number, all but the last marked. -/
def sevenBits (n : Nat) : List UInt8 :=
  let rec leading (n : Nat) : List UInt8 :=
    if n = 0 then [] else leading (n / 128) ++ [UInt8.ofNat (128 + n % 128)]
  termination_by n
  decreasing_by omega
  leading (n / 128) ++ [UInt8.ofNat (n % 128)]

/-- An object identifier; its first two numbers share one group. -/
def objectId (arcs : List Nat) : List UInt8 :=
  element 0x06 <|
    match arcs with
    | a :: b :: rest => sevenBits (40 * a + b) ++ rest.flatMap sevenBits
    | _ => []

/-- An element as read: the first octet of its tag, its content, and the further octets of the tag
when its number is large. -/
structure Element where
  tag : UInt8
  content : List UInt8
  further : List UInt8 := []
  deriving DecidableEq, Repr

namespace Element

/-- A length and the rest. A long form must not start with a zero, stand for less than 128 or take
more than four octets. -/
def readLength? : List UInt8 → Option (Nat × List UInt8)
  | [] => none
  | b :: rest =>
      if b.toNat < 128 then some (b.toNat, rest)
      else
        let count := b.toNat - 128
        let bs := rest.take count
        let n := numberOf bs
        if count = 0 ∨ 4 < count ∨ bs.length < count ∨ bs.head? = some 0 ∨ n < 128 then none
        else some (n, rest.drop count)

/-- The further octets of a tag and the rest: one to four groups of seven bits, all but the last
marked, without leading zeros. The number has to be too large for the first octet. -/
def readTagNumber? (bs : List UInt8) : Option (List UInt8 × List UInt8) :=
  let marked := bs.takeWhile fun b => 128 ≤ b.toNat
  match bs.drop marked.length with
  | [] => none
  | last :: rest =>
      if 3 < marked.length ∨ marked.head? = some 0x80 ∨ marked = [] ∧ last.toNat < 31 then none
      else some (marked ++ [last], rest)

/-- The element at the front and the rest. -/
def read? : List UInt8 → Option (Element × List UInt8)
  | [] => none
  | tag :: rest => do
      let (further, rest) ← if tag.toNat % 32 = 31 then readTagNumber? rest else some ([], rest)
      let (n, rest) ← readLength? rest
      if rest.length < n then none
      else return (⟨tag, rest.take n, further⟩, rest.drop n)

def readAll? : Nat → List UInt8 → Option (List Element)
  | _, [] => some []
  | 0, _ => none
  | fuel + 1, bs => do
      let (e, rest) ← read? bs
      let more ← readAll? fuel rest
      return e :: more

def all? (bs : List UInt8) : Option (List Element) :=
  readAll? bs.length bs

/-- The one element that octets spell. -/
def only? (bs : List UInt8) : Option Element := do
  let (e, rest) ← read? bs
  if rest = [] then return e else none

def octets (e : Element) : List UInt8 :=
  e.tag :: (e.further ++ lengthOctets e.content.length ++ e.content)

def inside? (tag : UInt8) (e : Element) : Option (List Element) :=
  if e.tag = tag then all? e.content else none

/-- Whether no element comes before the one in front of it, in the order of their octets. -/
def areAscending : List Element → Bool
  | a :: b :: rest => !decide (b.octets < a.octets) && areAscending (b :: rest)
  | _ => true

def setInside? (tag : UInt8) (e : Element) : Option (List Element) := do
  let es ← e.inside? tag
  if areAscending es then return es else none

def sequence? (e : Element) : Option (List Element) :=
  e.inside? 0x30

/-- The number in an integer element, which must be written with as few octets as possible. -/
def integer? (e : Element) : Option Int :=
  if e.tag ≠ 0x02 then none
  else
    match e.content with
    | [] => none
    | [b] => some (if b.toNat < 128 then b.toNat else (b.toNat : Int) - 256)
    | b :: c :: rest =>
        let n := numberOf (b :: c :: rest)
        if b = 0 ∧ c.toNat < 128 ∨ b = 255 ∧ 128 ≤ c.toNat then none
        else if b.toNat < 128 then some n
        else some ((n : Int) - Nat.pow 256 (rest.length + 2))

def natural? (e : Element) : Option Nat :=
  match e.integer? with
  | some (.ofNat n) => some n
  | _ => none

def octetString? (e : Element) : Option (List UInt8) :=
  if e.tag = 0x04 then some e.content else none

/-- The octets of a bit string without unused bits. -/
def wholeBits? (e : Element) : Option (List UInt8) :=
  match e.content with
  | 0 :: bs => if e.tag = 0x03 then some bs else none
  | _ => none

/-- Whether the content of an element is a string of bits: at most seven bits of its last octet are
unused, and these are zero. -/
def holdsBits (e : Element) : Bool :=
  match e.content with
  | [] => false
  | [u] => u == 0
  | u :: bs => u.toNat < 8 && (bs.getLast?.getD 0).toNat % Nat.pow 2 u.toNat == 0

def isBitString (e : Element) : Bool :=
  e.tag == 0x03 && e.holdsBits

/-- Takes the element with a tag off the front, if it stands there, and the one element inside it;
`none` when there is not exactly one inside. -/
def takeExplicit? (tag : UInt8) (es : List Element) : Option (Option Element × List Element) :=
  match es with
  | [] => some (none, [])
  | e :: rest =>
      if e.tag = tag then (only? e.content).map fun x => (some x, rest) else some (none, es)

/-- The numbers in groups of seven bits; `n` is the part of the number at the front. A number must
not start with zeros, and takes four groups at most. -/
def arcs? (n : Option Nat) : List UInt8 → Option (List Nat)
  | [] => if n.isNone then some [] else none
  | b :: rest =>
      if n.isNone ∧ b = 0x80 then none
      else
        let m := n.getD 0 * 128 + b.toNat % 128
        if Nat.pow 2 28 ≤ m then none
        else if b.toNat < 128 then (arcs? none rest).map (m :: ·)
        else arcs? (some m) rest

/-- The numbers of an object identifier, which takes 63 octets at most. -/
def objectId? (e : Element) : Option (List Nat) :=
  if e.tag ≠ 0x06 ∨ 63 < e.content.length then none
  else
    match arcs? none e.content with
    | some (n :: rest) =>
        if n < 40 then some (0 :: n :: rest)
        else if n < 80 then some (1 :: (n - 40) :: rest)
        else some (2 :: (n - 80) :: rest)
    | _ => none

end Element

end AcmeClient.Asn1
