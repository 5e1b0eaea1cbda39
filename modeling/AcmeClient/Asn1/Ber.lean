import AcmeClient.Digest.Sha2

/-!
# Basic encoding of structured data

The basic rules leave more freedom than the distinguished ones. Lengths may have leading zeros, a
string may be cut into pieces, and a length may be left open, in which case two zero octets end the
content.

* **`BerDefect`** is why octets are no such element; **`BerDefect.listText`** words a list of
  reasons, which begins with the innermost one.
* **`Head.read`** reads a tag and a length.
* **`afterEnds`** passes over an open content, **`gatherPieces`** puts the pieces of a string
  together.
* **`extent`** is the beginning of a text that makes up its first element.
-/

namespace AcmeClient.Asn1

open Digest

/-- Why octets are no element, or not the one that is expected. -/
inductive BerDefect where
  | tooSmall : BerDefect
  | notEnough : BerDefect
  | longHead : BerDefect
  | tooLong : BerDefect
  | badHead : BerDefect
  | wrongTag : BerDefect
  | notUniversal : BerDefect
  | wrongString : BerDefect
  | nested : BerDefect
  | nestedString : BerDefect
  | unexpectedEnd : BerDefect
  | missingEnd : BerDefect
  | plainSequence : BerDefect
  | plainType : BerDefect
  | plainWrapper : BerDefect
  | structuredType : BerDefect
  | sequenceLength : BerDefect
  | wrapperLength : BerDefect
  | fieldMissing : BerDefect
  | objectId : BerDefect
  | nullLength : BerDefect
  | flagLength : BerDefect
  | emptyInteger : BerDefect
  | paddedInteger : BerDefect
  | emptyBits : BerDefect
  | unusedBits : BerDefect
  | shortTime : BerDefect
  | shortFullTime : BerDefect
  | pairs : BerDefect
  | quadruples : BerDefect
  | malformedText : BerDefect
  | foreignText : BerDefect
  deriving DecidableEq, Repr

namespace BerDefect

def message : BerDefect → String
  | .tooSmall => "too small"
  | .notEnough => "not enough data"
  | .longHead => "header too long"
  | .tooLong => "too long"
  | .badHead => "bad object header"
  | .wrongTag => "wrong tag"
  | .notUniversal => "mstring not universal"
  | .wrongString => "mstring wrong tag"
  | .nested => "nested asn1 error"
  | .nestedString => "nested asn1 string"
  | .unexpectedEnd => "unexpected eoc"
  | .missingEnd => "missing eoc"
  | .plainSequence => "sequence not constructed"
  | .plainType => "type not constructed"
  | .plainWrapper => "explicit tag not constructed"
  | .structuredType => "type not primitive"
  | .sequenceLength => "sequence length mismatch"
  | .wrapperLength => "explicit length mismatch"
  | .fieldMissing => "field missing"
  | .objectId => "invalid object encoding"
  | .nullLength => "null is wrong length"
  | .flagLength => "boolean is wrong length"
  | .emptyInteger => "illegal zero content"
  | .paddedInteger => "illegal padding"
  | .emptyBits => "string too short"
  | .unusedBits => "invalid bit string bits left"
  | .shortTime => "utctime is too short"
  | .shortFullTime => "generalizedtime is too short"
  | .pairs => "bmpstring is wrong length"
  | .quadruples => "universalstring is wrong length"
  | .malformedText => "invalid utf8string"
  | .foreignText => "illegal characters"

/-- The wording of a list of reasons, each with the part that found it. -/
def listText (ds : List BerDefect) : String :=
  "[" ++ ", ".intercalate (ds.map fun d => "('asn1 encoding routines', '', '" ++ d.message ++ "')")
    ++ "]"

/-- A result that is part of an outer one. -/
def within {α : Type} (r : Except (List BerDefect) α) : Except (List BerDefect) α :=
  r.mapError (· ++ [.nested])

end BerDefect

open BerDefect

/-- A tag: one of four groups and a number. -/
structure Tag where
  group : Nat
  number : Nat
  deriving DecidableEq, Repr

namespace Tag

/-- The tag of a type that is known everywhere. -/
def universal (number : Nat) : Tag := ⟨0, number⟩

/-- A tag that has a meaning in one place only. -/
def context (number : Nat) : Tag := ⟨2, number⟩

end Tag

/-- The front of an element: its tag, whether it is made of elements, its length unless that is left
open, and what follows. -/
structure Head where
  tag : Tag
  isConstructed : Bool
  length : Option Nat
  after : List UInt8
  deriving Repr

namespace Head

/-- A number in groups of seven bits, of which `n` was read before, and the rest. -/
def tagNumber? (n : Nat) : List UInt8 → Option (Nat × List UInt8)
  | [] => none
  | b :: rest =>
      let m := n * 128 + b.toNat % 128
      if b.toNat < 128 then some (m, rest)
      else if Nat.pow 2 24 ≤ m then none
      else tagNumber? m rest

/-- A length, unless it is left open, and the rest. Something has to follow the octets of a long
one. -/
def length? : List UInt8 → Option (Option Nat × List UInt8)
  | [] => none
  | b :: rest =>
      let count := b.toNat - 128
      let n := numberOf (rest.take count)
      if b.toNat < 128 then some (some b.toNat, rest)
      else if count = 0 then some (none, rest)
      else if rest.length ≤ count ∨ Nat.pow 2 63 ≤ n then none
      else some (some n, rest.drop count)

/-- The front of an element. Only what is made of elements may leave its length open. -/
def read? : List UInt8 → Option Head
  | [] => none
  | b :: rest => do
      let short := b.toNat % 32
      let (number, rest) ← if short = 31 then tagNumber? 0 rest else some (short, rest)
      let (length, after) ← length? rest
      let isConstructed := b.toNat / 32 % 2 == 1
      if length.isNone && !isConstructed then none
      else return ⟨⟨b.toNat / 64, number⟩, isConstructed, length, after⟩

/-- The front of an element whose content is there. -/
def read (bs : List UInt8) : Except (List BerDefect) Head :=
  if bs = [] then .error [.tooSmall]
  else
    match read? bs with
    | none => .error [.longHead, .badHead]
    | some h =>
        if h.after.length < h.length.getD 0 then .error [.tooLong, .badHead] else .ok h

/-- The content of an element; an open one goes on to the end. -/
def content (h : Head) : List UInt8 :=
  (h.length.map fun n => h.after.take n).getD h.after

/-- What follows an element whose length is not open. -/
def rest (h : Head) : List UInt8 :=
  h.after.drop (h.length.getD 0)

end Head

/-- What follows the end of an open content, if it stands here. -/
def end? : List UInt8 → Option (List UInt8)
  | 0 :: 0 :: rest => some rest
  | _ => none

/-- What follows `count` ends, in which open contents bring ends of their own. -/
def afterEnds : Nat → Nat → List UInt8 → Except (List BerDefect) (List UInt8)
  | 0, _, _ => .error [.missingEnd]
  | _, _, [] => .error [.missingEnd]
  | fuel + 1, count, bs =>
      match end? bs with
      | some rest => if count ≤ 1 then .ok rest else afterEnds fuel (count - 1) rest
      | none => do
          let h ← within (Head.read bs)
          if h.length.isNone then afterEnds fuel (count + 1) h.after
          else afterEnds fuel count h.rest

/-- The octets of the pieces of a string, which may be cut into pieces again `depth` times, and what
follows. -/
def gatherPieces : Nat → Nat → Bool → List UInt8 → Except (List BerDefect) (List UInt8 × List UInt8)
  | 0, _, _, _ => .error [.missingEnd]
  | _, _, isOpen, [] => if isOpen then .error [.missingEnd] else .ok ([], [])
  | fuel + 1, depth, isOpen, bs =>
      match end? bs with
      | some rest => if isOpen then .ok ([], rest) else .error [.unexpectedEnd]
      | none => do
          let h ← within (Head.read bs)
          if h.isConstructed then
            if depth = 0 then throw [.nestedString]
            let (inner, after) ← gatherPieces fuel (depth - 1) h.length.isNone h.content
            let (more, rest) ←
              gatherPieces fuel depth isOpen (if h.length.isNone then after else h.rest)
            return (inner ++ more, rest)
          else
            let (more, rest) ← gatherPieces fuel depth isOpen h.rest
            return (h.content ++ more, rest)

/-- The most octets that the front of an element takes. -/
def headRoom : Nat := 8

/-- The number of octets up to the end of the first element, with `count` ends awaited before it. -/
def extentWithin : Nat → Nat → List UInt8 → Except (List BerDefect) Nat
  | 0, _, _ => .error []
  | _, _, [] => .error []
  | fuel + 1, count, bs => do
      let h ← match Head.read? (bs.take headRoom) with
        | some h => pure h
        | none => throw [.longHead]
      let size := (bs.take headRoom).length - h.after.length
      match h.length with
      | none => return size + (← extentWithin fuel (count + 1) (bs.drop size))
      | some n =>
          if 0 < count ∧ n = 0 ∧ h.tag.number = 0 then
            if count = 1 then return size
            else return size + (← extentWithin fuel (count - 1) (bs.drop size))
          else if Nat.pow 2 31 ≤ n - h.after.length then throw [.tooLong]
          else if bs.length < size + n then throw [.notEnough]
          else if count = 0 then return size + n
          else return size + n + (← extentWithin fuel count (bs.drop (size + n)))

/-- The octets of the first element. -/
def extent (bs : List UInt8) : Except (List BerDefect) (List UInt8) := do
  return bs.take (← extentWithin (bs.length + 1) 0 bs)

end AcmeClient.Asn1
