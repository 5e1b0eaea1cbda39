import AcmeClient.Number.Binary64

/-!
# Polynomials with two coefficients

The binary digits of a number are the coefficients of a polynomial over zero and one, where one and
one make zero. Two polynomials are added digit by digit, so a sum is also a difference. Modulo a
polynomial that is no product they form a field.

* **`product`** multiplies, **`rest`** divides and keeps what is left.
* **`times`** and **`inverse`** work modulo a polynomial.
* **`squareRoot`** and **`halfTrace`** solve the equations `z² = n` and `z² + z = n`.
-/

namespace AcmeClient.Number.BitPolynomial

/-- The polynomial in which these powers have the coefficient one. -/
def ofExponents (exponents : List Nat) : Nat :=
  exponents.foldl (fun sum e => sum ^^^ (1 <<< e)) 0

/-- The degree of a polynomial; zero for a constant one. -/
def degree (p : Nat) : Nat := Nat.log2 p

/-- The product of a polynomial and the first `width` terms of another one. -/
def product (p q : Nat) : Nat → Nat
  | 0 => 0
  | width + 1 =>
      let lower := product p q width
      if q.testBit width then lower ^^^ (p <<< width) else lower

/-- What is left of a polynomial of a degree below `degree m + width` modulo another one: the
leading terms are taken away one by one. -/
def rest (m : Nat) : Nat → Nat → Nat
  | 0, p => p
  | width + 1, p =>
      rest m width (if p.testBit (degree m + width) then p ^^^ (m <<< width) else p)

/-- The product of two polynomials modulo a third one, which has the largest degree. -/
def times (m p q : Nat) : Nat :=
  rest m (degree m) (product p q (degree m))

def square (m p : Nat) : Nat := times m p p

/-- Takes shifted copies of the polynomial with the smaller degree from the other one, until one of
the two is constant. What is done to `u` and `v` is done to `g` and `h`, so that `u` stays the
product of `g` and a fixed polynomial, and `v` that of `h`. -/
def eliminate : Nat → Nat → Nat → Nat → Nat → Nat
  | 0, _, _, g, _ => g
  | fuel + 1, u, v, g, h =>
      if u ≤ 1 then g
      else if v ≤ 1 then h
      else
        let du := degree u
        let dv := degree v
        if du < dv then eliminate fuel u (v ^^^ (u <<< (dv - du))) g (h ^^^ (g <<< (dv - du)))
        else eliminate fuel (u ^^^ (v <<< (du - dv))) v (g ^^^ (h <<< (du - dv))) h

/-- The inverse modulo a polynomial that is no product. Every step takes a leading term away. -/
def inverse (m p : Nat) : Nat :=
  eliminate (2 * degree m + 2) p m 1 0

def squared (m : Nat) : Nat → Nat → Nat
  | 0, p => p
  | count + 1, p => squared m count (square m p)

/-- The square root modulo a polynomial of a degree `d`, in which raising to the power `2 ^ d`
changes nothing. -/
def squareRoot (m p : Nat) : Nat :=
  squared m (degree m - 1) p

/-- The sum of the powers of `n` with the exponents `4 ^ 0` to `4 ^ count`. -/
def quarticSum (m n : Nat) : Nat → Nat
  | 0 => n
  | count + 1 => square m (square m (quarticSum m n count)) ^^^ n

/-- A solution of `z² + z = n` modulo a polynomial of odd degree, if there is one. -/
def halfTrace (m n : Nat) : Nat :=
  quarticSum m n ((degree m - 1) / 2)

end AcmeClient.Number.BitPolynomial
