/-!
# Arithmetic modulo a number

An odd prime leaves no square root of one besides one and minus one. A power with an even exponent
is reached through squares, so any other root on the way shows that a number is no prime, and gives
a factor of it.

* **`powMod`** is a power modulo a number, **`inverseMod`** an inverse modulo a prime, and
  **`rootMod`** a square root.
* **`isProbablePrime`** tests whether a number shows itself as composite to one of a few bases.
* **`properFactor?`** finds a factor of a number, given an exponent that takes every base to one.
-/

namespace AcmeClient.Number

/-- A power modulo a positive number, by repeated squaring. Modulo zero, where nothing would keep
the squares small, nothing is multiplied. -/
def powMod (base exponent modulus : Nat) : Nat :=
  if exponent = 0 ∨ modulus = 0 then 1 % modulus
  else
    let root := powMod (base * base % modulus) (exponent / 2) modulus
    if exponent % 2 = 1 then base * root % modulus else root
termination_by exponent
decreasing_by omega

def inverseMod (n prime : Nat) : Nat :=
  powMod (n % prime) (prime - 2) prime

/-- How often a positive number can be halved, and the odd number that is left. -/
def halvings (n : Nat) : Nat × Nat :=
  if n = 0 ∨ n % 2 = 1 then (0, n)
  else
    let r := halvings (n / 2)
    (r.1 + 1, r.2)
termination_by n
decreasing_by omega

/-- The least number that is no square modulo an odd prime, if it is small. -/
def nonSquare (prime : Nat) : Nat :=
  ((List.range 256).find? fun n => powMod n (prime / 2) prime == prime - 1).getD 0

/-- Makes a root out of `r`, whose square is `t` times too large, where `2 ^ i` is an exponent that
takes `t` to one, and `c` is a root of one with the exponent `2 ^ (i + 1)` and none below. -/
def refineRoot (prime : Nat) : Nat → Nat → Nat → Nat → Nat
  | 0, _, _, r => r
  | i + 1, c, t, r =>
      let cc := c * c % prime
      if powMod t (Nat.pow 2 i) prime = 1 then refineRoot prime i cc t r
      else refineRoot prime i cc (t * cc % prime) (r * c % prime)

/-- A square root modulo an odd prime, if there is one. -/
def rootMod (n prime : Nat) : Nat :=
  let (count, odd) := halvings (prime - 1)
  refineRoot prime (count - 1) (powMod (nonSquare prime) odd prime) (powMod (n % prime) odd prime)
    (powMod (n % prime) ((odd + 1) / 2) prime)

/-- `count` squarings in a row, beginning with the number itself. -/
def squares (modulus : Nat) : Nat → Nat → List Nat
  | 0, _ => []
  | count + 1, x => x :: squares modulus count (x * x % modulus)

/-- The powers of a base on the way to an exponent, each the square of the one before; the first has
an odd exponent, and the exponent itself is not reached. -/
def powersTo (base exponent modulus : Nat) : List Nat :=
  let (count, odd) := halvings exponent
  squares modulus count (powMod base odd modulus)

/-- Whether a base does not show that an odd number is composite. -/
def passesFor (n base : Nat) : Bool :=
  let powers := powersTo base (n - 1) n
  powers.head? == some 1 || powers.contains (n - 1)

/-- The bases of the test. -/
def smallPrimes : List Nat := [2, 3, 5, 7, 11, 13, 17, 19, 23, 29, 31, 37, 41, 43, 47, 53]

/-- Whether a number is one of the small primes, or a multiple of none of them that all of them take
for a prime. -/
def isProbablePrime (n : Nat) : Bool :=
  smallPrimes.contains n
    || 1 < n && smallPrimes.all (fun p => n % p != 0) && smallPrimes.all (passesFor n)

/-- A factor of a number besides one and itself, from a root of one among the powers of a base. -/
def factorFor? (n exponent base : Nat) : Option Nat :=
  let isRoot (x : Nat) : Bool := x != 1 && x != n - 1 && x * x % n == 1
  ((powersTo base exponent n).find? isRoot).map fun x => Nat.gcd (x + 1) n

/-- A factor of a number besides one and itself, if one of the first even bases gives one. -/
def properFactor? (n exponent : Nat) : Option Nat :=
  (List.range 499).findSome? fun i => factorFor? n exponent (2 * i + 2)

end AcmeClient.Number
