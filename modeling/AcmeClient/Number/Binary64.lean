import AcmeClient.Number.Numeral

/-!
# Binary floating point numbers of 64 bits

A finite number is its sign and its size in units of `2 ^ -1074`, the least positive one; so zero
has two signs, and every size has at most 53 significant bits and lies below `2 ^ 2098`.

* **`Binary64`** is a finite number, an infinity or no number at all.
* **`Binary64.ofRatio`** rounds a quotient to the nearest size, a half to the even neighbour.
* **`Binary64.ofDecimal`** rounds a decimal number with an exponent.
-/

namespace AcmeClient.Number

/-- A finite number in units of the least positive one, an infinity, or no number. -/
inductive Binary64 where
  | finite (negative : Bool) (units : Nat) : Binary64
  | infinite (negative : Bool) : Binary64
  | nan : Binary64
  deriving DecidableEq, Repr, Inhabited

/-- The count of binary digits of a number, none for zero. -/
def bitLength (n : Nat) : Nat :=
  if n = 0 then 0 else Nat.log2 n + 1

/-- The integer nearest to a quotient; of two equally near ones the even one. -/
def nearestEven (num den : Nat) : Nat :=
  let q := num / den
  let r := num % den
  if 2 * r < den then q
  else if 2 * r > den then q + 1
  else if q % 2 = 0 then q else q + 1

namespace Binary64

/-- The least size that is too large for a finite number. -/
def limit : Nat := Nat.pow 2 2098

/-- The number with the size nearest to `num / den` units. -/
def ofRatio (negative : Bool) (num den : Nat) : Binary64 :=
  let excess := bitLength (num / den) - 53
  let units := nearestEven num (den * Nat.pow 2 excess) * Nat.pow 2 excess
  if units < limit then .finite negative units else .infinite negative

/-- The number nearest to `digits * 10 ^ exponent`. Exponents far outside the range are settled
without computing the power. -/
def ofDecimal (negative : Bool) (digits : Nat) (exponent : Int) : Binary64 :=
  let reach := exponent + (numeral digits).length
  if digits = 0 ∨ reach < -330 then .finite negative 0
  else if 310 < reach then .infinite negative
  else
    match exponent with
    | .ofNat e => ofRatio negative (digits * Nat.pow 10 e * Nat.pow 2 1074) 1
    | .negSucc e => ofRatio negative (digits * Nat.pow 2 1074) (Nat.pow 10 (e + 1))

/-- Whether a finite number is an integer, and which. -/
def toInt? : Binary64 → Option Int
  | .finite negative units =>
      if units % Nat.pow 2 1074 = 0 then
        let n : Int := (units / Nat.pow 2 1074 : Nat)
        some (if negative then -n else n)
      else none
  | _ => none

/-- Equality of values: both zeros are equal, and no number equals nothing. -/
def sameValue : Binary64 → Binary64 → Bool
  | .finite s m, .finite t n => m == n && (s == t || m == 0)
  | .infinite s, .infinite t => s == t
  | _, _ => false

end Binary64

end AcmeClient.Number
