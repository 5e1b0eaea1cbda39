/-!
# Decimal and hexadecimal numerals

* **`numeral`** writes a natural number in decimal, **`ofDigits`** reads digits as a number.
* **`padded`** writes a number with zeros in front up to a width.
* **`hexDigit`** writes one hexadecimal digit in lower case and **`hexValue`** reads one of either
  case; `hexValue_hexDigit` says that reading undoes writing.
* **`hexOfWidth`** writes a number with a fixed count of digits.
* **`hexOfBytes`**, **`bytesOfHex`** write and read octets, two digits each.
-/

namespace AcmeClient.Number

def isDigit (c : Char) : Bool :=
  48 ≤ c.toNat && c.toNat ≤ 57

def ofDigits (cs : List Char) : Nat :=
  cs.foldl (fun n c => 10 * n + (c.toNat - 48)) 0

def numeral (n : Nat) : List Char :=
  Nat.toDigits 10 n

/-- The decimal digits of a number, with zeros in front up to `width` characters. -/
def padded (width n : Nat) : String :=
  let ds := numeral n
  String.ofList (List.replicate (width - ds.length) '0' ++ ds)

def integerText (i : Int) : String :=
  match i with
  | .ofNat n => String.ofList (numeral n)
  | .negSucc n => String.ofList ('-' :: numeral (n + 1))

end AcmeClient.Number

namespace AcmeClient.Text

/-- The lower case hexadecimal digit of a number below sixteen. -/
def hexDigit (n : Nat) : Char :=
  if n < 10 then Char.ofNat (48 + n) else Char.ofNat (87 + n)

def hexValue (c : Char) : Option Nat :=
  let n := c.toNat
  if 48 ≤ n && n ≤ 57 then some (n - 48)
  else if 97 ≤ n && n ≤ 102 then some (n - 87)
  else if 65 ≤ n && n ≤ 70 then some (n - 55)
  else none

/-- Reading a written digit gives its value. -/
theorem hexValue_hexDigit (n : Nat) (h : n < 16) : hexValue (hexDigit n) = some n := by
  have all : ∀ k ∈ List.range 16, hexValue (hexDigit k) = some k := by decide
  exact all n (List.mem_range.2 h)

/-- The last `width` hexadecimal digits of a number, leading zeros included. -/
def hexOfWidth : Nat → Nat → List Char
  | 0, _ => []
  | width + 1, n => hexOfWidth width (n / 16) ++ [hexDigit (n % 16)]

theorem length_hexOfWidth (width n : Nat) : (hexOfWidth width n).length = width := by
  induction width generalizing n with
  | zero => rfl
  | succ w ih => simp [hexOfWidth, ih]

def hexOfBytes (bs : List UInt8) : String :=
  String.ofList (bs.flatMap fun b => hexOfWidth 2 b.toNat)

/-- The octets of a hexadecimal text; `none` for an odd count or any other character. -/
def bytesOfHex : List Char → Option (List UInt8)
  | [] => some []
  | [_] => none
  | a :: b :: rest => do
      let hi ← hexValue a
      let lo ← hexValue b
      let more ← bytesOfHex rest
      return UInt8.ofNat (16 * hi + lo) :: more

end AcmeClient.Text
