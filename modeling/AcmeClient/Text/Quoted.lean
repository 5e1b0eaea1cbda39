import AcmeClient.Number.Numeral
import AcmeClient.Text.Printable

/-!
# Quoted text in messages

Messages show a text in single quotes, or in double quotes when it holds a single quote and no
double quote. The backslash and the quote in use get a backslash, the three common controls a
letter, and every other unprintable character a hexadecimal escape.

* **`quoted`** is the quoted form of a text.
* **`quotedBytes`** is the same for octets, after the letter `b`.
* **`asciiEscaped`** leaves ASCII as it is and escapes all else, without quotes.
-/

namespace AcmeClient.Text

/-- The shortest of the three hexadecimal escapes that holds a code point. -/
def hexEscape (n : Nat) : List Char :=
  if n < 0x100 then '\\' :: 'x' :: hexOfWidth 2 n
  else if n < 0x10000 then '\\' :: 'u' :: hexOfWidth 4 n
  else '\\' :: 'U' :: hexOfWidth 8 n

/-- Double quotes delimit a text that holds a single quote and no double quote. -/
def quoteFor (cs : List Char) : Char :=
  if '\'' ∈ cs ∧ '"' ∉ cs then '"' else '\''

def quotedChar (q : Char) (shown : Char → Bool) (c : Char) : List Char :=
  if c = q ∨ c = '\\' then ['\\', c]
  else if c = '\n' then ['\\', 'n']
  else if c = '\r' then ['\\', 'r']
  else if c = '\t' then ['\\', 't']
  else if shown c then [c]
  else hexEscape c.toNat

def quoted (s : String) : String :=
  let cs := s.toList
  let q := quoteFor cs
  String.ofList (q :: (cs.flatMap (quotedChar q isPrintable) ++ [q]))

/-- The quoted form of octets: those of printable ASCII as they are, after the letter `b`. -/
def quotedBytes (bs : List UInt8) : String :=
  let cs := bs.map fun b => Char.ofNat b.toNat
  let q := quoteFor cs
  let body := cs.flatMap (quotedChar q fun c => 32 ≤ c.toNat && c.toNat < 127)
  String.ofList ('b' :: q :: (body ++ [q]))

/-- A text in ASCII: every other character as a hexadecimal escape. -/
def asciiEscaped (s : String) : String :=
  String.ofList (s.toList.flatMap fun c => if c.toNat < 128 then [c] else hexEscape c.toNat)

end AcmeClient.Text
