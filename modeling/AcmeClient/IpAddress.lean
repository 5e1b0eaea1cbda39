import AcmeClient.Number.Numeral
import AcmeClient.Text.Pieces

/-!
# Internet addresses

An address is a number of 32 or 128 bits; one of 128 bits may carry a zone. Many texts spell the
same long address, and one of them is canonical: groups in lower case without leading zeros, with
`::` for the first of the longest runs of two or more zero groups.

* **`IpAddress`** is an address.
* **`IpAddress.parse?`** reads a text, **`IpAddress.text`** writes the canonical one.
* **`IpAddress.ofInt?`**, **`IpAddress.ofOctets?`** take a number and packed octets.
-/

namespace AcmeClient

open Number Text

/-- An address of 32 bits, or one of 128 bits with an optional zone. -/
inductive IpAddress where
  | v4 (value : Nat) : IpAddress
  | v6 (value : Nat) (zone : Option String) : IpAddress
  deriving DecidableEq, Repr

namespace IpAddress

/-- The number with the given digits, the most significant first. -/
def ofDigitsBase (base : Nat) (ds : List Nat) : Nat :=
  ds.foldl (fun n d => base * n + d) 0

/-- The `count` lowest digits of a number, the most significant first. -/
def digitsBase (base : Nat) : Nat → Nat → List Nat
  | 0, _ => []
  | count + 1, n => digitsBase base count (n / base) ++ [n % base]

theorem length_digitsBase (base count n : Nat) : (digitsBase base count n).length = count := by
  induction count generalizing n with
  | zero => rfl
  | succ c ih => simp [digitsBase, ih]

def octet? (cs : List Char) : Option Nat :=
  if cs ≠ [] ∧ cs.all isDigit ∧ cs.length ≤ 3 ∧ (cs = ['0'] ∨ cs.head? ≠ some '0') then
    let n := ofDigits cs
    if n ≤ 255 then some n else none
  else none

/-- Four octets between points. -/
def parseV4? (cs : List Char) : Option Nat :=
  let parts := pieces '.' cs
  if parts.length = 4 then (parts.mapM octet?).map (ofDigitsBase 256) else none

/-- One to four hexadecimal digits. -/
def group? (cs : List Char) : Option Nat :=
  if cs ≠ [] ∧ cs.length ≤ 4 then (cs.mapM hexValue).map (ofDigitsBase 16) else none

/-- The parts between colons, with a dotted address at the end replaced by its two groups. -/
def parts? (cs : List Char) : Option (List (List Char)) :=
  let parts := pieces ':' cs
  if parts.length < 3 then none
  else
    match parts.getLast? with
    | none => none
    | some last =>
        if '.' ∈ last then do
          let n ← parseV4? last
          return parts.dropLast ++ [hexOfWidth 4 (n / 65536), hexOfWidth 4 (n % 65536)]
        else some parts

/-- The parts of one side of a `::`. An empty part on its outer end is allowed only when it is the
only one. -/
def side? (outer : Option (List Char)) (parts : List (List Char)) : Option (List (List Char)) :=
  if outer = some [] then (if parts.length = 1 then some [] else none) else some parts

/-- The number of eight groups, or of fewer with one `::` for at least one zero group. -/
def parseGroups? (cs : List Char) : Option Nat := do
  let parts ← parts? cs
  if 9 < parts.length then none
  else
    let inner := (parts.drop 1).dropLast
    match inner.idxOf? [] with
    | some i =>
        if 1 < inner.count [] then none
        else do
          let high ← side? parts.head? (parts.take (i + 1))
          let low ← side? parts.getLast? (parts.drop (i + 2))
          if 8 ≤ high.length + low.length then none
          else do
            let h ← high.mapM group?
            let l ← low.mapM group?
            return ofDigitsBase 65536 (h ++ List.replicate (8 - (h.length + l.length)) 0 ++ l)
    | none =>
        if parts.length = 8 then (parts.mapM group?).map (ofDigitsBase 65536) else none

/-- A long address, with a zone after a percent sign. -/
def parseV6? (cs : List Char) : Option IpAddress :=
  match cut '%' cs with
  | (address, none) => (parseGroups? address).map fun n => .v6 n none
  | (address, some zone) =>
      if zone = [] ∨ '%' ∈ zone then none
      else (parseGroups? address).map fun n => .v6 n (some (String.ofList zone))

def parseChars? (cs : List Char) : Option IpAddress :=
  if '/' ∈ cs then none
  else
    match parseV4? cs with
    | some n => some (.v4 n)
    | none => parseV6? cs

def parse? (s : String) : Option IpAddress :=
  parseChars? s.toList

/-- The address with a number: a short one when it fits. -/
def ofInt? (n : Int) : Option IpAddress :=
  if n < 0 then none
  else if n < Nat.pow 2 32 then some (.v4 n.toNat)
  else if n < Nat.pow 2 128 then some (.v6 n.toNat none)
  else none

/-- The address with four or sixteen packed octets. -/
def ofOctets? (bs : List UInt8) : Option IpAddress :=
  let n := ofDigitsBase 256 (bs.map UInt8.toNat)
  if bs.length = 4 then some (.v4 n)
  else if bs.length = 16 then some (.v6 n none)
  else none

def octets : IpAddress → List UInt8
  | .v4 n => (digitsBase 256 4 n).map UInt8.ofNat
  | .v6 n _ => (digitsBase 256 16 n).map UInt8.ofNat

def zeroRun (groups : List Nat) : Nat :=
  (groups.takeWhile (· = 0)).length

/-- The place and the length of the first of the longest runs of zeros; groups are counted from
`place` on. -/
def longestRun (place : Nat) : List Nat → Nat × Nat
  | [] => (place, 0)
  | g :: gs =>
      let here := zeroRun (g :: gs)
      let later := longestRun (place + 1) gs
      if later.2 ≤ here then (place, here) else later

/-- A group in lower case without leading zeros. -/
def groupText (n : Nat) : List Char :=
  Nat.toDigits 16 n

/-- Eight groups with `::` for the first of the longest runs of two or more zeros. -/
def groupsText (groups : List Nat) : List Char :=
  let (place, length) := longestRun 0 groups
  let write (gs : List Nat) := joined ':' (gs.map groupText)
  if 1 < length then write (groups.take place) ++ ':' :: ':' :: write (groups.drop (place + length))
  else write groups

/-- The characters of the canonical text. -/
def chars : IpAddress → List Char
  | .v4 n => joined '.' ((digitsBase 256 4 n).map numeral)
  | .v6 n zone =>
      groupsText (digitsBase 65536 8 n)
        ++ (match zone with
          | some z => '%' :: z.toList
          | none => [])

def text (a : IpAddress) : String :=
  String.ofList a.chars

end IpAddress

end AcmeClient
