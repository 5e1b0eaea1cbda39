import AcmeClient.Signature.Curve
import AcmeClient.Signature.Secret

/-!
# Signatures on elliptic curves and in prime fields

Both kinds are a pair of numbers below a prime order: the first comes from a multiple of the base,
or from a power of it, by a secret number, and the second ties it to the message and the key.

* **`Ecdsa.sign`** and **`Ecdsa.verify`** work on a curve.
* **`Dsa.sign`** works in a prime field.
-/

namespace AcmeClient.Signature

open Digest Number

/-- The pair for a secret number, given what the number does to the base; none when one of the two
is zero. -/
def pair? (order number z : Nat) (image : Nat → Option Nat) (k : Nat) : Option (Nat × Nat) := do
  let x ← image k
  let r := x % order
  let s := inverseMod k order * (z + r * number) % order
  if r = 0 ∨ s = 0 then none else return (r, s)

/-- The pair for the first secret number that gives one. -/
def sealed (h : Hash) (order number : Nat) (digest : List UInt8) (image : Nat → Option Nat) :
    Nat × Nat :=
  let z := leadingBits (Number.bitLength order) digest
  (withSecret h order number digest (pair? order number z image)).getD (0, 0)

namespace Ecdsa

def sign (c : Curve) (number : Nat) (h : Hash) (message : List UInt8) : Nat × Nat :=
  sealed h c.order number (h.digest message) fun k => (c.baseMultiple? k).map Prod.fst

/-- Whether a pair is the signature of a message for a public point. -/
def verify (c : Curve) (x y : Nat) (h : Hash) (message : List UInt8) (r s : Nat) : Bool :=
  if 0 < r ∧ r < c.order ∧ 0 < s ∧ s < c.order then
    let z := leadingBits (Number.bitLength c.order) (h.digest message)
    let w := inverseMod s c.order
    match c.combine? (z * w % c.order) (r * w % c.order) x y with
    | some (u, _) => u % c.order == r
    | none => false
  else false

end Ecdsa

/-- A group of prime order in the integers modulo a prime. -/
structure PrimeField where
  prime : Nat
  order : Nat
  base : Nat
  deriving DecidableEq, Repr

/-- Whether a group can be used for signatures: its order has 128 bits at least. -/
def PrimeField.isUsable (f : PrimeField) : Bool :=
  f.prime != 0 && f.base != 0 && 128 ≤ Number.bitLength f.order

namespace Dsa

def publicNumber (f : PrimeField) (number : Nat) : Nat :=
  powMod f.base number f.prime

def sign (f : PrimeField) (number : Nat) (h : Hash) (message : List UInt8) : Nat × Nat :=
  sealed h f.order number (h.digest message) fun k => some (powMod f.base k f.prime)

/-- Whether a pair is the signature of a message for a public number. -/
def verify (f : PrimeField) (y : Nat) (h : Hash) (message : List UInt8) (r s : Nat) : Bool :=
  if 0 < r ∧ r < f.order ∧ 0 < s ∧ s < f.order then
    let z := leadingBits (Number.bitLength f.order) (h.digest message)
    let w := inverseMod s f.order
    let v := powMod f.base (z * w % f.order) f.prime * powMod y (r * w % f.order) f.prime % f.prime
    v % f.order == r
  else false

end Dsa

end AcmeClient.Signature
