import AcmeClient.Json.Basic
import AcmeClient.Number.Numeral
import AcmeClient.Number.Shortest

/-!
# The written form of JSON values

Written JSON is pure ASCII: every other character and the delete character are written as the
escapes of their UTF-16 units. Floating point numbers have the fewest digits that read back, and
the three values that are no finite number have names.

* **`Layout`** says what stands between items, what between a name and its value, and whether
  members are sorted by name.
* **`Json.render`** writes a value in a layout.
* **`Json.canonical`** is the sorted layout in which documents are compared.
-/

namespace AcmeClient

open Number Text

namespace Json

def unitEscape (u : Nat) : List Char :=
  '\\' :: 'u' :: hexOfWidth 4 u

/-- One character between double quotes. -/
def escapeChar (c : Char) : List Char :=
  let n := c.toNat
  if c = '"' ∨ c = '\\' then ['\\', c]
  else if 32 ≤ n ∧ n < 127 then [c]
  else if n = 10 then ['\\', 'n']
  else if n = 13 then ['\\', 'r']
  else if n = 9 then ['\\', 't']
  else if n = 12 then ['\\', 'f']
  else if n = 8 then ['\\', 'b']
  else if n < 0x10000 then unitEscape n
  else unitEscape (0xd800 + (n - 0x10000) / 1024) ++ unitEscape (0xdc00 + (n - 0x10000) % 1024)

/-- A text between double quotes. -/
def renderString (s : String) : List Char :=
  '"' :: (s.toList.flatMap escapeChar ++ ['"'])

/-- The free choices of a writer. -/
structure Layout where
  itemSeparator : List Char
  nameSeparator : List Char
  sorted : Bool

/-- Members sorted by name, with a blank after commas and colons. -/
def Layout.canonical : Layout := ⟨[',', ' '], [':', ' '], true⟩

/-- Members in document order, with a blank after commas and colons. -/
def Layout.plain : Layout := ⟨[',', ' '], [':', ' '], false⟩

/-- Members sorted by name, without blanks. -/
def Layout.dense : Layout := ⟨[','], [':'], true⟩

/-- The order of names by code points. -/
def nameLE (a b : String × List Char) : Bool :=
  decide (a.1 ≤ b.1)

/-- Written parts with a separator between any two. -/
def separated (separator : List Char) (parts : List (List Char)) : List Char :=
  separator.intercalate parts

mutual

def write (l : Layout) : Json → List Char
  | .null => ['n', 'u', 'l', 'l']
  | .bool true => ['t', 'r', 'u', 'e']
  | .bool false => ['f', 'a', 'l', 's', 'e']
  | .int n => (integerText n).toList
  | .float x => (x.textWith "Infinity" "NaN").toList
  | .string s => renderString s
  | .array items => '[' :: (separated l.itemSeparator (writeItems l items) ++ [']'])
  | .object members =>
      let parts := writeMembers l members
      let ordered := if l.sorted then parts.mergeSort nameLE else parts
      '\x7b' :: (separated l.itemSeparator (ordered.map Prod.snd) ++ ['\x7d'])

def writeItems (l : Layout) : List Json → List (List Char)
  | [] => []
  | x :: xs => write l x :: writeItems l xs

/-- The members of an object as their names and their written forms. -/
def writeMembers (l : Layout) : List (String × Json) → List (String × List Char)
  | [] => []
  | (n, x) :: xs =>
      (n, renderString n ++ l.nameSeparator ++ write l x) :: writeMembers l xs

end

def render (l : Layout) (j : Json) : String :=
  String.ofList (write l j)

/-- The text in which values are compared and shown: members sorted by name. -/
def canonical (j : Json) : String :=
  j.render .canonical

end Json

end AcmeClient
