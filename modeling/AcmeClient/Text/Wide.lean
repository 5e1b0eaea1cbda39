import AcmeClient.Text.Utf8

/-!
# Encodings with units of two and four octets

* **`Order`** is the order of the octets in a unit.
* **`Utf16.decode`** joins surrogate pairs; a surrogate alone becomes the replacement character.
* **`Utf32.decode`** reads one unit as one code point.
-/

namespace AcmeClient.Text

/-- Whether the lowest octet of a unit comes first or last. -/
inductive Order where
  | little : Order
  | big : Order
  deriving DecidableEq, Repr

namespace Order

/-- The end of an encoding's name that tells its order. -/
def suffix : Order → String
  | .little => "-le"
  | .big => "-be"

/-- The number that the octets of one unit spell. -/
def value (o : Order) (bs : List UInt8) : Nat :=
  let high := match o with
    | .little => bs.reverse
    | .big => bs
  high.foldl (fun n b => 256 * n + b.toNat) 0

end Order

namespace Utf16

/-- The units of two octets each; a lone octet at the end is refused. -/
def units (o : Order) (pos : Nat) : List UInt8 → Except Defect (List Nat)
  | [] => .ok []
  | [b] => .error ⟨"utf-16" ++ o.suffix, [b], pos, "truncated data"⟩
  | a :: b :: rest => (units o (pos + 2) rest).map (o.value [a, b] :: ·)

def join : List Nat → List Char
  | [] => []
  | [u] => [if 0xd800 ≤ u ∧ u < 0xe000 then '\uFFFD' else Char.ofNat u]
  | u :: v :: rest =>
      if 0xd800 ≤ u ∧ u < 0xdc00 ∧ 0xdc00 ≤ v ∧ v < 0xe000 then
        Char.ofNat (0x10000 + (u - 0xd800) * 1024 + (v - 0xdc00)) :: join rest
      else
        (if 0xd800 ≤ u ∧ u < 0xe000 then '\uFFFD' else Char.ofNat u) :: join (v :: rest)

/-- The text of octets that stand at the place `pos`. -/
def decode (o : Order) (pos : Nat) (bs : List UInt8) : Except Defect String :=
  (units o pos bs).map fun us => String.ofList (join us)

end Utf16

namespace Utf32

/-- The code points of octets that stand at the place `pos`. -/
def decodeFrom (o : Order) (pos : Nat) : List UInt8 → Except Defect (List Char)
  | [] => .ok []
  | a :: b :: c :: d :: rest =>
      let n := o.value [a, b, c, d]
      if 0x110000 ≤ n then
        .error ⟨"utf-32" ++ o.suffix, [a, b, c, d], pos, "code point not in range(0x110000)"⟩
      else
        (decodeFrom o (pos + 4) rest).map
          ((if 0xd800 ≤ n ∧ n < 0xe000 then '\uFFFD' else Char.ofNat n) :: ·)
  | bs => .error ⟨"utf-32" ++ o.suffix, bs, pos, "truncated data"⟩

/-- The text of octets that stand at the place `pos`. -/
def decode (o : Order) (pos : Nat) (bs : List UInt8) : Except Defect String :=
  (decodeFrom o pos bs).map String.ofList

end Utf32

end AcmeClient.Text
