/-!
# Base64

Three octets are four groups of six bits, and a group is written as one character of an alphabet of
64. The `url` alphabet ends in `-` and `_` and is written without padding; the `standard` one ends
in `+` and `/` and is padded with `=` to a multiple of four.

* **`encode`** writes octets in the `url` alphabet, **`encodePadded`** in the `standard` one.
* **`decode`** reads leniently: both alphabets are known, other characters are passed over, and
  reading ends where padding completes a group of four. Padding that is missing altogether is
  supplied first.
* **`decodeStandard`** reads leniently too, but knows the `standard` alphabet only and supplies no
  padding.
* **`decodePadded`** reads the `standard` form and nothing else, **`decodeBlanked`** the same with
  blanks in it, of which only the groups before a hyphen count.
-/

namespace AcmeClient.Base64

/-- The groups of six bits of octets; bits that are missing in the last group are zero. -/
def sextets : List UInt8 → List Nat
  | [] => []
  | [a] =>
      let n := a.toNat
      [n / 4, n % 4 * 16]
  | [a, b] =>
      let n := a.toNat * 256 + b.toNat
      [n / 1024, n / 16 % 64, n % 16 * 4]
  | a :: b :: c :: rest =>
      let n := (a.toNat * 256 + b.toNat) * 256 + c.toNat
      n / 262144 :: n / 4096 % 64 :: n / 64 % 64 :: n % 64 :: sextets rest

/-- The octets of groups of six bits; bits that do not fill an octet are dropped. -/
def octets : List Nat → List UInt8
  | a :: b :: c :: d :: rest =>
      let n := ((a * 64 + b) * 64 + c) * 64 + d
      UInt8.ofNat (n / 65536) :: UInt8.ofNat (n / 256) :: UInt8.ofNat n :: octets rest
  | [a, b, c] =>
      let n := (a * 64 + b) * 64 + c
      [UInt8.ofNat (n / 1024), UInt8.ofNat (n / 4)]
  | [a, b] => [UInt8.ofNat ((a * 64 + b) / 16)]
  | _ => []

/-- The character of a group of six bits, given the last two of the alphabet. -/
def digit (c62 c63 : Char) (n : Nat) : Char :=
  if n < 26 then Char.ofNat (65 + n)
  else if n < 52 then Char.ofNat (71 + n)
  else if n < 62 then Char.ofNat (n - 4)
  else if n = 62 then c62
  else c63

/-- The character of a group in the `url` alphabet. -/
def urlDigit : Nat → Char :=
  digit '-' '_'

/-- The group that a character of either alphabet stands for. -/
def value (c : Char) : Option Nat :=
  let n := c.toNat
  if 65 ≤ n ∧ n ≤ 90 then some (n - 65)
  else if 97 ≤ n ∧ n ≤ 122 then some (n - 71)
  else if 48 ≤ n ∧ n ≤ 57 then some (n + 4)
  else if c = '-' ∨ c = '+' then some 62
  else if c = '_' ∨ c = '/' then some 63
  else none

/-- Reading a written character of the `url` alphabet gives its group. -/
theorem value_urlDigit (n : Nat) (h : n < 64) : value (urlDigit n) = some n := by
  have all : ∀ k ∈ List.range 64, value (urlDigit k) = some k := by decide
  exact all n (List.mem_range.2 h)

/-- Octets in the `url` alphabet, without padding. -/
def encode (bs : List UInt8) : String :=
  String.ofList ((sextets bs).map urlDigit)

/-- Octets in the `standard` alphabet, padded to a multiple of four. -/
def encodePadded (bs : List UInt8) : String :=
  let cs := (sextets bs).map (digit '+' '/')
  String.ofList (cs ++ List.replicate ((4 - cs.length % 4) % 4) '=')

inductive Defect where
  | loneCharacter (count : Nat) : Defect
  | padding : Defect
  deriving DecidableEq, Repr

namespace Defect

def message : Defect → String
  | .loneCharacter count =>
      "Invalid base64-encoded string: number of data characters (" ++ toString count
        ++ ") cannot be 1 more than a multiple of 4"
  | .padding => "Incorrect padding"

end Defect

/-- The groups of the characters up to complete padding, and whether it was met. `count` groups and
then `pads` padding characters came before. -/
def gather (count pads : Nat) : List Char → List Nat × Bool
  | [] => ([], false)
  | c :: rest =>
      if c = '=' then
        if count % 4 < 2 then gather count pads rest
        else if 4 ≤ count % 4 + pads + 1 then ([], true)
        else gather count (pads + 1) rest
      else
        match value c with
        | none => gather count pads rest
        | some n =>
            let r := gather (count + 1) 0 rest
            (n :: r.1, r.2)

def decodeChars (cs : List Char) : Except Defect (List UInt8) :=
  let (groups, complete) := gather 0 0 cs
  if complete ∨ groups.length % 4 = 0 then .ok (octets groups)
  else if groups.length % 4 = 1 then .error (.loneCharacter groups.length)
  else .error .padding

/-- The octets of a text of `size` octets, after padding that would complete that size. -/
def decodeSized (size : Nat) (cs : List Char) : Except Defect (List UInt8) :=
  decodeChars (cs ++ List.replicate (4 - size % 4) '=')

def decode (cs : List Char) : Except Defect (List UInt8) :=
  decodeSized cs.length cs

/-- The octets of ASCII characters, of which those of the `standard` alphabet count. -/
def decodeStandard (cs : List Char) : Except Defect (List UInt8) :=
  decodeChars (cs.filter fun c => c ≠ '-' ∧ c ≠ '_')

/-- The groups of characters of the `standard` alphabet; `none` for any other character. -/
def standardValues (cs : List Char) : Option (List Nat) :=
  cs.mapM fun c => if c = '-' ∨ c = '_' then none else value c

/-- The octets of the `standard` padded form. The count of characters is a multiple of four, at
most two of them are padding and stand at the end, and unused bits are zero. -/
def decodePadded (cs : List Char) : Option (List UInt8) := do
  let body := cs.takeWhile (· ≠ '=')
  let pad := cs.dropWhile (· ≠ '=')
  if cs.length % 4 = 0 ∧ pad.length ≤ 2 ∧ pad.all (· = '=') then
    let groups ← standardValues body
    let bs := octets groups
    if sextets bs = groups then some bs else none
  else none

/-- The octets of characters in the `standard` form, among which blanks may stand. A hyphen ends
them. Unused bits may have any value. -/
def decodeBlanked (bs : List UInt8) : Option (List UInt8) := do
  let cs := (bs.takeWhile (· ≠ 45)).map fun b => Char.ofNat b.toNat
  let cs := cs.filter fun c => c ≠ ' ' ∧ c ≠ '\t' ∧ c ≠ '\r' ∧ c ≠ '\n'
  let body := cs.takeWhile (· ≠ '=')
  let pad := cs.dropWhile (· ≠ '=')
  if cs.length % 4 = 0 ∧ pad.length ≤ 2 ∧ pad.all (· = '=') then
    return octets (← standardValues body)
  else none

end AcmeClient.Base64
