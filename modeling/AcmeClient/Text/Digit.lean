import AcmeClient.Text.Blank

/-!
# Decimal digits of all scripts

Every script with decimal digits has them in one run of ten consecutive code points, from zero to
nine, so a digit is known by the first code point of its run.

* **`digitValue`** reads one digit of any script.
* **`isDigitLike`** also knows digits that are raised, lowered, circled or otherwise set apart.
* **`readInt?`** reads an integer with an optional sign, in digits of any script.
-/

namespace AcmeClient.Text

/-- The zero digit of each script that has decimal digits, ascending. -/
def zeroDigits : List Nat :=
  [48, 1632, 1776, 1984, 2406, 2534, 2662, 2790, 2918, 3046, 3174, 3302, 3430, 3558, 3664, 3792,
    3872, 4160, 4240, 6112, 6160, 6470, 6608, 6784, 6800, 6992, 7088, 7232, 7248, 42528, 43216,
    43264, 43472, 43504, 43600, 44016, 65296, 66720, 68912, 69734, 69872, 69942, 70096, 70384,
    70736, 70864, 71248, 71360, 71472, 71904, 72016, 72784, 73040, 73120, 92768, 92864, 93008,
    120782, 120792, 120802, 120812, 120822, 123200, 123632, 125264, 130032]

/-- The value of a decimal digit of any script; `none` for any other character. -/
def digitValue (c : Char) : Option Nat :=
  (zeroDigits.find? fun z => z ≤ c.toNat && c.toNat < z + 10).map (c.toNat - ·)

/-- Where the class of digits outside the decimal runs begins or ends, ascending. -/
def setApartBounds : List Nat :=
  [0xb2, 0xb4, 0xb9, 0xba, 0x1369, 0x1372, 0x19da, 0x19db, 0x2070, 0x2071, 0x2074, 0x207a, 0x2080,
    0x208a, 0x2460, 0x2469, 0x2474, 0x247d, 0x2488, 0x2491, 0x24ea, 0x24eb, 0x24f5, 0x24fe, 0x24ff,
    0x2500, 0x2776, 0x277f, 0x2780, 0x2789, 0x278a, 0x2793, 0x10a40, 0x10a44, 0x10e60, 0x10e69,
    0x11052, 0x1105b, 0x1f100, 0x1f10b]

/-- Whether a character is a digit, decimal or set apart. -/
def isDigitLike (c : Char) : Bool :=
  (digitValue c).isSome || Span.contains setApartBounds c.toNat

/-- The values of digits between which single underscores may stand. -/
def groupedDigits : List Char → Option (List Nat)
  | [] => none
  | [c] => (digitValue c).map fun d => [d]
  | c :: '_' :: rest => do
      let d ← digitValue c
      let ds ← groupedDigits rest
      return d :: ds
  | c :: rest => do
      let d ← digitValue c
      let ds ← groupedDigits rest
      return d :: ds

/-- An integer read from a text may have at most this many digits. -/
def integerDigitLimit : Nat := 4300

def readNat? (cs : List Char) : Option Nat := do
  let ds ← groupedDigits cs
  if integerDigitLimit < ds.length then none
  else return ds.foldl (fun n d => 10 * n + d) 0

/-- The integer that a text spells: blanks around it, an optional sign, and digits. -/
def readInt? (s : String) : Option Int :=
  match trimWhere isBlank s.toList with
  | '-' :: cs => (readNat? cs).map fun n => -(n : Int)
  | '+' :: cs => (readNat? cs).map fun n => (n : Int)
  | cs => (readNat? cs).map fun n => (n : Int)

end AcmeClient.Text
