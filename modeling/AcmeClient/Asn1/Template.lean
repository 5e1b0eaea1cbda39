import AcmeClient.Asn1.Ber

/-!
# Templates of structured data

A template says which elements are expected, and reads as many of them as it finds. What is wrong is
reported from the inside out: the innermost reason, and then one word for each template around it.

* **`Item`** reads one element: **`ofType`** one of a universal type, **`anything`** any,
  **`ofTypes`** one of several strings, **`sequence`** fields in a row, **`listOf`** equal items.
* **`Slot`** is a place in a sequence: **`Slot.plain`**, **`Slot.tagged`** with a tag in place of
  its own, **`Slot.wrapped`** with a tag around its own.
-/

namespace AcmeClient.Asn1

open BerDefect

/-- What follows a part, or nothing when it is left out; or what is wrong with it. -/
abbrev Reading := Except (List BerDefect) (Option (List UInt8))

/-- A way to read an element, given the tag in place of its own and whether it may be left out. -/
abbrev Item := Option Tag → Bool → List UInt8 → Reading

/-- The front of an element with a tag, if it is not left out. -/
def expect (tag : Tag) (optional : Bool) (bs : List UInt8) :
    Except (List BerDefect) (Option Head) := do
  let h ← within (Head.read bs)
  if h.tag = tag then return some h
  if optional then return none
  throw [.wrongTag, .nested]

/-! ### Values -/

/-- What is wrong with the content of an object identifier. Its numbers have no leading zeros, and
its last octet ends a number. -/
def objectIdDefect? (bs : List UInt8) : Option BerDefect :=
  let starts := List.zip (0 :: bs) bs
  if bs.getLast?.all (128 ≤ ·.toNat) || starts.any fun p => p.1.toNat < 128 && p.2 == 0x80 then
    some .objectId
  else none

/-- What is wrong with the content of an integer. -/
def integerDefect? : List UInt8 → Option BerDefect
  | [] => some .emptyInteger
  | a :: b :: rest =>
      let padded := a == 0 || a == 0xff && (b :: rest).any (· != 0)
      if padded && (128 ≤ a.toNat) == (128 ≤ b.toNat) then some .paddedInteger else none
  | _ => none

/-- What is wrong with the content of a value of a universal type. -/
def contentDefect? (number : Nat) (bs : List UInt8) : Option BerDefect :=
  let check (good : Bool) (d : BerDefect) : Option BerDefect := if good then none else some d
  match number with
  | 1 => check (bs.length == 1) .flagLength
  | 2 | 10 => integerDefect? bs
  | 3 => if bs = [] then some .emptyBits else check (bs.head?.all (·.toNat ≤ 7)) .unusedBits
  | 5 => check bs.isEmpty .nullLength
  | 6 => objectIdDefect? bs
  | 23 => check (13 ≤ bs.length) .shortTime
  | 24 => check (15 ≤ bs.length) .shortFullTime
  | 28 => check (bs.length % 4 == 0) .quadruples
  | 30 => check (bs.length % 2 == 0) .pairs
  | _ => none

/-- The content of a value and what follows. Sequences, sets and values of a type that is not
universal have to be elements in a row, for which no content is given; a string may be cut into
pieces. -/
def readValue (number : Option Nat) (h : Head) :
    Except (List BerDefect) (List UInt8 × List UInt8) := do
  if number.all fun n => n = 16 ∨ n = 17 then
    if number.isSome && !h.isConstructed then throw [.plainType]
    if h.length.isNone then return ([], ← afterEnds (h.after.length + 1) 1 h.after)
    return ([], h.rest)
  let (bs, rest) ←
    if h.isConstructed then
      if number.any fun n => [1, 2, 5, 6, 10].contains n then throw [.structuredType]
      let (bs, rest) ← gatherPieces (h.content.length + 1) 5 h.length.isNone h.content
      pure (bs, if h.length.isNone then rest else h.rest)
    else pure (h.content, h.rest)
  match number.bind fun n => contentDefect? n bs with
  | some d => throw [d]
  | none => return (bs, rest)

def ofType (number : Nat) : Item := fun tag optional bs => do
  if bs = [] then throw [.tooSmall]
  match ← expect (tag.getD (.universal number)) optional bs with
  | none => return none
  | some h => return some (← readValue (some number) h).2

def anything : Item := fun _ _ bs => do
  if bs = [] then throw [.tooSmall]
  let h ← within (Head.read bs)
  return some (← readValue (if h.tag.group = 0 then some h.tag.number else none) h).2

/-- An element of one of some universal types, whose content passes a further test. -/
def ofTypes (numbers : List Nat) (defect? : Nat → List UInt8 → Option BerDefect) : Item :=
  fun _ optional bs => do
    if bs = [] then throw [.tooSmall]
    let h ← within (Head.read bs)
    if h.tag.group = 0 ∧ numbers.contains h.tag.number then
      let (content, rest) ← readValue (some h.tag.number) h
      match defect? h.tag.number content with
      | some d => throw [d]
      | none => return some rest
    else if optional then return none
    else throw [if h.tag.group = 0 then .wrongString else .notUniversal]

/-! ### Elements made of elements -/

/-- A place for a field in a sequence: whether it may be left out, and a way to read it, given
whether that is so in this place. -/
structure Slot where
  isOptional : Bool
  read : Bool → List UInt8 → Reading

namespace Slot

def plain (item : Item) : Slot :=
  ⟨false, fun optional bs => within (item none optional bs)⟩

/-- A field with an item and a tag in place of its own. -/
def tagged (number : Nat) (item : Item) : Slot :=
  ⟨false, fun optional bs => within (item (some (.context number)) optional bs)⟩

/-- A field with an item and a tag around it; a list is directly under that tag, and `isDirect`
says that the item is one. -/
def wrapped (number : Nat) (isDirect : Bool) (item : Item) : Slot :=
  ⟨false, fun optional bs => do
    match ← expect (.context number) optional bs with
    | none => return none
    | some h =>
        if !h.isConstructed then throw [.plainWrapper]
        let inner := item none false h.content
        match ← within (if isDirect then inner else within inner) with
        | none => return none
        | some rest =>
            if h.length.isSome then
              if rest = [] then return some h.rest else throw [.wrapperLength]
            else
              match end? rest with
              | some rest => return some rest
              | none => throw [.missingEnd]⟩

/-- A field that may be left out. -/
def optional (f : Slot) : Slot := { f with isOptional := true }

end Slot

/-- Reads fields as long as there is something to read: the fields that are left, what follows, and
whether the end of an open content is still awaited. The last field cannot be left out as long as
there is something to read. -/
def readFields (isOpen : Bool) : List Slot → List UInt8 →
    Except (List BerDefect) (List Slot × List UInt8 × Bool)
  | [], bs => .ok ([], bs, isOpen)
  | fs, [] => .ok (fs, [], isOpen)
  | f :: fs, bs =>
      match end? bs with
      | some rest => if isOpen then .ok (f :: fs, rest, false) else .error [.unexpectedEnd]
      | none => do
          let rest? ← f.read (f.isOptional && !fs.isEmpty) bs
          readFields isOpen fs (rest?.getD bs)

/-- Fields in a row. -/
def sequence (fields : List Slot) : Item := fun tag optional bs => do
  if bs = [] then throw [.tooSmall]
  match ← expect (tag.getD (.universal 16)) optional bs with
  | none => return none
  | some h =>
      if !h.isConstructed then throw [.plainSequence]
      let (left, rest, awaited) ← readFields h.length.isNone fields h.content
      let rest ← if awaited then
          match end? rest with
          | some rest => pure rest
          | none => throw [.missingEnd]
        else pure rest
      if h.length.isSome && rest != [] then throw [.sequenceLength]
      if !left.all (·.isOptional) then throw [.fieldMissing]
      return some (if h.length.isNone then rest else h.rest)

def readItems (item : Item) : Nat → Bool → List UInt8 → Except (List BerDefect) (List UInt8)
  | _, isOpen, [] => if isOpen then .error [.missingEnd] else .ok []
  | 0, _, _ => .error [.missingEnd]
  | fuel + 1, isOpen, bs =>
      match end? bs with
      | some rest => if isOpen then .ok rest else .error [.unexpectedEnd]
      | none => do
          let rest? ← within (item none false bs)
          readItems item fuel isOpen (rest?.getD bs)

/-- A sequence or a set, as `number` says, of equal items. -/
def listOf (number : Nat) (item : Item) : Item := fun tag optional bs => do
  match ← expect (tag.getD (.universal number)) optional bs with
  | none => return none
  | some h =>
      let rest ← readItems item h.content.length h.length.isNone h.content
      return some (if h.length.isNone then rest else h.rest)

end AcmeClient.Asn1
