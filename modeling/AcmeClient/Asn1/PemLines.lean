import AcmeClient.Asn1.Pem

/-!
# Armoured blocks, line by line

Private keys come in armour that is read one line at a time. A marker fills its line, blanks at the
end of a line do not count, and headers stand before an empty line. A block that is damaged is
passed over, up to the line that shows the damage.

* **`Pem.Line`** is a line or a part of a long one.
* **`Pem.lineBlocks`** are the blocks of a text, each with its headers.
* **`Pem.LineBlock.isEncrypted?`** says whether the headers of a block declare it encrypted.
-/

namespace AcmeClient.Asn1.Pem

/-- A line, or as much of a long one as is read at once, without what is left out at its end; and
whether the line goes on. -/
structure Line where
  octets : List UInt8
  goesOn : Bool
  deriving Repr

/-- The most octets of a line that are read at once. -/
def lineRoom : Nat := 254

/-- Octets without those at the end that are blanks, controls or not ASCII. -/
def trimmed (bs : List UInt8) : List UInt8 :=
  (bs.reverse.dropWhile fun b => b.toNat ≤ 32 || 128 ≤ b.toNat).reverse

/-- The octets up to a line end, at most `room` of them, whether the line goes on, and the rest. -/
def takeLine : Nat → List UInt8 → List UInt8 × Bool × List UInt8
  | _, [] => ([], false, [])
  | 0, bs => ([], true, bs)
  | room + 1, b :: bs =>
      if b = 10 then ([], false, bs)
      else
        let r := takeLine room bs
        (b :: r.1, r.2)

/-- At most `fuel` lines. -/
def textLines : Nat → List UInt8 → List Line
  | _, [] => []
  | 0, _ => []
  | fuel + 1, bs =>
      let (octets, goesOn, rest) := takeLine lineRoom bs
      ⟨trimmed octets, goesOn⟩ :: textLines fuel rest

/-- The octets of a text without the mark of its encoding in front. -/
def withoutMark : List UInt8 → List UInt8
  | 0xef :: 0xbb :: 0xbf :: b :: rest => b :: rest
  | bs => bs

/-- The parts of a block: lines that may be headers or data, headers, data after an empty line. -/
inductive Place where
  | front : Place
  | headers : Place
  | data : Place
  deriving DecidableEq, Repr

/-- The lines of a block before an empty line, and those after it. -/
structure Body where
  before : List (List UInt8)
  after : List (List UInt8)

/-- Whether a line can stand where it does. In data after an empty line, all lines but the last one
have 64 characters. -/
def isMisplaced (place : Place) (wasShort : Bool) (l : Line) : Bool :=
  wasShort || place == .data && 64 < l.octets.length

/-- The lines up to the closing marker of a label, if nothing is wrong before, and what follows.
`wasCut` says that the line before goes on, `wasShort` that it has to be the last one. -/
def takeBody (label : List UInt8) : Place → Bool → Bool → Body → List Line → Option Body × List Line
  | _, _, _, _, [] => (none, [])
  | place, wasCut, wasShort, b, l :: ls =>
      let place := if place = .front ∧ l.octets.contains 58 then .headers else place
      if l.octets = [] then
        if wasCut then takeBody label place l.goesOn wasShort b ls
        else if place = .data then (none, ls)
        else takeBody label .data l.goesOn wasShort b ls
      else if (ascii "-----END ").isPrefixOf l.octets then
        if l.octets ≠ ascii "-----END " ++ label ++ ascii "-----" then (none, ls)
        else if place = .front then (some ⟨[], b.before⟩, ls)
        else (some b, ls)
      else if isMisplaced place wasShort l then (none, ls)
      else if place = .data then
        takeBody label place l.goesOn (l.octets.length < 64) ⟨b.before, b.after ++ [l.octets]⟩ ls
      else takeBody label place l.goesOn false ⟨b.before ++ [l.octets], b.after⟩ ls

/-- A block with its headers, one on a line. -/
structure LineBlock where
  label : List UInt8
  headers : List (List UInt8)
  octets : List UInt8

/-- The label of an opening marker. -/
def opening? (l : Line) : Option (List UInt8) :=
  let rest := l.octets.drop 11
  if (ascii "-----BEGIN ").isPrefixOf l.octets && (ascii "-----").isSuffixOf rest then
    some (rest.take (rest.length - 5))
  else none

/-- At most `fuel` blocks. -/
def lineBlocksWithin : Nat → List Line → List LineBlock
  | 0, _ => []
  | _, [] => []
  | fuel + 1, l :: ls =>
      match opening? l with
      | none => lineBlocksWithin fuel ls
      | some label =>
          let (body, rest) := takeBody label .front false false ⟨[], []⟩ ls
          let block? := do
            let b ← body
            let bs ← Base64.decodeBlanked b.after.flatten
            if bs = [] then none else return (⟨label, b.before, bs⟩ : LineBlock)
          block?.toList ++ lineBlocksWithin fuel rest

/-- The blocks of a text that are undamaged and not empty. -/
def lineBlocks (bs : List UInt8) : List LineBlock :=
  let ls := textLines bs.length (withoutMark bs)
  lineBlocksWithin ls.length ls

/-! ### Headers -/

/-- The ciphers of blocks, and the octets of their initial values. -/
def ciphers : List (String × Nat) :=
  [("aes-128-cbc", 16), ("aes-192-cbc", 16), ("aes-256-cbc", 16), ("des-ede3-cbc", 8),
    ("des-cbc", 8), ("camellia-128-cbc", 16), ("camellia-192-cbc", 16), ("camellia-256-cbc", 16)]

/-- Text without blanks in front. -/
def unindented (bs : List UInt8) : List UInt8 :=
  bs.dropWhile fun b => b = 32 || b = 9

/-- Octets after a word that they begin with. -/
def after? (word : String) (bs : List UInt8) : Option (List UInt8) :=
  if (ascii word).isPrefixOf bs then some (bs.drop (ascii word).length) else none

def isHexDigit (b : UInt8) : Bool :=
  48 ≤ b && b ≤ 57 || 65 ≤ b && b ≤ 70 || 97 ≤ b && b ≤ 102

/-- Whether a header names a cipher and spells its initial value. -/
def namesCipher (header : List UInt8) : Bool :=
  match after? "DEK-Info:" header with
  | none => false
  | some rest =>
      let rest := unindented rest
      let name := rest.takeWhile fun b => b ≠ 32 && b ≠ 9 && b ≠ 44
      let lower := String.ofList (name.map fun b => (Char.ofNat b.toNat).toLower)
      match ciphers.lookup lower, unindented (rest.drop name.length) with
      | some size, 44 :: digits => 2 * size ≤ (digits.takeWhile isHexDigit).length
      | _, _ => false

/-- Whether headers declare that a block is encrypted; none when they declare anything else. Very
short headers are passed over. -/
def LineBlock.isEncrypted? (b : LineBlock) : Option Bool :=
  if b.headers.flatten.length + b.headers.length ≤ 10 then some false
  else
    match b.headers with
    | first :: second :: _ => do
        let kind ← after? "4," (unindented (← after? "Proc-Type:" first))
        if unindented kind = ascii "ENCRYPTED" ∧ namesCipher second then some true else none
    | _ => none

end AcmeClient.Asn1.Pem
