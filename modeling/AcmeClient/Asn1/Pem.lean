import AcmeClient.Base64
import AcmeClient.Text.Blank
import AcmeClient.Text.Pieces
import AcmeClient.Text.Utf8

/-!
# Armoured blocks

A block holds octets as base64 text between two marker lines with the same label. Whatever stands
between blocks is passed over, and so is a block that breaks off. A block may start with headers,
which end at an empty line.

* **`Pem.block`** writes a block with lines of 64 characters.
* **`Pem.blocks?`** reads all blocks; none when one of them is damaged.
-/

namespace AcmeClient.Asn1.Pem

open Text

/-- A label and the octets under it. -/
structure Block where
  label : String
  octets : List UInt8
  deriving DecidableEq, Repr

def ascii (s : String) : List UInt8 :=
  s.toList.map fun c => UInt8.ofNat c.toNat

/-- Pieces of at most `size` characters, each followed by a line end. -/
def lines (size : Nat) (cs : List Char) : List Char :=
  if _h : cs.length = 0 ∨ size = 0 then []
  else cs.take size ++ '\n' :: lines size (cs.drop size)
termination_by cs.length
decreasing_by
  simp only [List.length_drop]
  omega

def block (label : String) (bs : List UInt8) : String :=
  "-----BEGIN " ++ label ++ "-----\n"
    ++ String.ofList (lines 64 (Base64.encodePadded bs).toList)
    ++ "-----END " ++ label ++ "-----\n"

/-- Looks for the part `awaited` of a mark and then, from the octet after the first that differs,
for the whole mark; `passed` are the octets passed so far, the last one first. -/
def search? (mark awaited passed : List UInt8) : List UInt8 → Option (List UInt8 × List UInt8)
  | [] => if awaited = [] then some ((passed.drop mark.length).reverse, []) else none
  | b :: bs =>
      match awaited with
      | [] => some ((passed.drop mark.length).reverse, b :: bs)
      | m :: more => search? mark (if b = m then more else mark) (b :: passed) bs

/-- What stands before a mark, and what follows it. A mark is overlooked when it begins within
octets that looked like its beginning, such as a sixth hyphen before a marker. -/
def until? (mark bs : List UInt8) : Option (List UInt8 × List UInt8) :=
  search? mark mark [] bs

/-- Octets without the blanks in front. -/
def skip (bs : List UInt8) : List UInt8 :=
  bs.dropWhile fun b => b = 32 || b = 9 || b = 10 || b = 13

/-- A block as found: two labels and what stands between the markers. -/
structure Frame where
  opening : List UInt8
  body : List UInt8
  closing : List UInt8

/-- The first block and what follows it. -/
def frame? (bs : List UInt8) : Option (Frame × List UInt8) := do
  let (_, r) ← until? (ascii "-----BEGIN ") bs
  let (opening, r) ← until? (ascii "-----") r
  let (body, r) ← until? (ascii "-----END ") (skip r)
  let (closing, r) ← until? (ascii "-----") r
  return (⟨opening, body, closing⟩, skip r)

/-- At most `fuel` blocks. -/
def frames : Nat → List UInt8 → List Frame
  | 0, _ => []
  | fuel + 1, bs =>
      match frame? bs with
      | some (f, rest) => f :: frames fuel rest
      | none => []

/-- The lines of a text; there is none after a last line end. -/
def linesOf (cs : List Char) : List (List Char) :=
  let ps := pieces '\n' cs
  if ps.getLast? = some [] then ps.dropLast else ps

/-- The body after headers, each of which has a colon; none when one has not. -/
def withoutHeaders? (body : List UInt8) : Option (List UInt8) :=
  match (until? [10, 10] body).or (until? [13, 10, 13, 10] body) with
  | none => some body
  | some (headers, data) =>
      match Utf8.decode headers with
      | .error _ => none
      | .ok text => if (linesOf text.toList).all (·.contains ':') then some data else none

/-- The block in a frame; none when the labels differ or are empty or the body is not base64. White
space in the body is passed over. -/
def Frame.block? (f : Frame) : Option Block := do
  let label ← (Utf8.decode f.opening).toOption
  let body ← withoutHeaders? f.body
  let text ← (Utf8.decode body).toOption
  if f.opening = f.closing ∧ f.opening ≠ [] then
    let bs ← Base64.decodePadded (text.toList.filter (!isSpace ·))
    return ⟨label, bs⟩
  else none

def blocks? (bs : List UInt8) : Option (List Block) :=
  (frames bs.length bs).mapM Frame.block?

end AcmeClient.Asn1.Pem
