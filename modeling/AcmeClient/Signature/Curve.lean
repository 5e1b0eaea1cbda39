import AcmeClient.Number.BitPolynomial
import AcmeClient.Number.Modular

/-!
# Elliptic curves

Points of the curves `y² = x³ + a·x + b` over the integers modulo a prime, or of the curves
`y² + x·y = x³ + a·x² + b` over the polynomials with two coefficients modulo one of them, with a
base point of prime order. Over integers, points are added in coordinates with a common
denominator, so that one division at the end is enough.

* **`Curve`** is a curve with its base point.
* **`Curve.combine?`** is a sum of two multiples, one of the base point.
* **`Curve.holds`** tests whether a point lies on the curve.
* **`Curve.ordinate`** finds one of the two points with an abscissa, **`Curve.opposite`** the other
  one, and **`Curve.mark`** tells them apart.
-/

namespace AcmeClient.Signature

open Number

/-- A curve over the integers or the polynomials modulo one of them, its base point and the order of
that point. -/
structure Curve where
  name : String
  bits : Nat
  oid : List Nat
  isBinary : Bool := false
  modulus : Nat
  a : Nat
  b : Nat
  baseX : Nat
  baseY : Nat
  order : Nat
  deriving DecidableEq, Repr

namespace Curve

def size (c : Curve) : Nat :=
  (c.bits + 7) / 8

/-- Whether a number can be a coordinate: it is below the prime, or a polynomial of a smaller
degree. -/
def isCoordinate (c : Curve) (n : Nat) : Bool :=
  if c.isBinary then n < Nat.pow 2 (BitPolynomial.degree c.modulus) else n < c.modulus

/-- The product of two coordinates. -/
def times (c : Curve) (m n : Nat) : Nat :=
  if c.isBinary then BitPolynomial.times c.modulus m n else m * n % c.modulus

def holds (c : Curve) (x y : Nat) : Bool :=
  c.isCoordinate x && c.isCoordinate y
    && (if c.isBinary then
        c.times y (y ^^^ x) == c.times (c.times x x) (x ^^^ c.a) ^^^ c.b
      else y * y % c.modulus == (x * x * x + c.a * x + c.b) % c.modulus)

/-! ### The two points with an abscissa -/

/-- An ordinate of a point with an abscissa, if there is one. Over polynomials `y = x·z` turns the
equation of the curve into `z² + z = x + a + b / x²`. -/
def ordinate (c : Curve) (x : Nat) : Nat :=
  if !c.isBinary then rootMod (x * x * x + c.a * x + c.b) c.modulus
  else if x = 0 then BitPolynomial.squareRoot c.modulus c.b
  else
    let i := BitPolynomial.inverse c.modulus x
    c.times x (BitPolynomial.halfTrace c.modulus (x ^^^ c.a ^^^ c.times c.b (c.times i i)))

/-- The ordinate of the other point with the same abscissa. -/
def opposite (c : Curve) (x y : Nat) : Nat :=
  if c.isBinary then x ^^^ y else c.modulus - y

/-- Which of the two points with the same abscissa a point is. -/
def mark (c : Curve) (x y : Nat) : Nat :=
  if !c.isBinary then y % 2
  else if x = 0 then 0
  else c.times y (BitPolynomial.inverse c.modulus x) % 2

/-! ### Sums of points -/

/-- A point with the coordinates `x / z²` and `y / z³`; the neutral point has `z = 0`. Over
polynomials no other point has a denominator. -/
structure Point where
  x : Nat
  y : Nat
  z : Nat

def neutral : Point := ⟨1, 1, 0⟩

/-- A difference modulo a prime. -/
def difference (p m n : Nat) : Nat :=
  (m % p + (p - n % p)) % p

/-- The third point on the line with a slope through two points over polynomials, the first of which
is given, mirrored. -/
def mirrored (c : Curve) (slope x y x' : Nat) : Point :=
  let u := c.times slope slope ^^^ slope ^^^ x ^^^ x' ^^^ c.a
  ⟨u, c.times slope (x ^^^ u) ^^^ u ^^^ y, 1⟩

def doubleBinary (c : Curve) (q : Point) : Point :=
  if q.x = 0 then neutral
  else
    let slope := q.x ^^^ c.times q.y (BitPolynomial.inverse c.modulus q.x)
    mirrored c slope q.x q.y q.x

def double (c : Curve) (q : Point) : Point :=
  if q.z = 0 then neutral
  else if c.isBinary then doubleBinary c q
  else if q.y = 0 then neutral
  else
    let p := c.modulus
    let yy := q.y * q.y % p
    let s := 4 * q.x * yy % p
    let zz := q.z * q.z % p
    let m := (3 * q.x * q.x + c.a * (zz * zz % p)) % p
    let x := difference p (m * m) (2 * s)
    let y := difference p (m * difference p s x) (8 * yy * yy)
    ⟨x, y, 2 * q.y * q.z % p⟩

/-- The sum of two points over polynomials, neither of which is neutral. -/
def addBinary (c : Curve) (q r : Point) : Point :=
  if q.x = r.x then (if q.y = r.y then doubleBinary c q else neutral)
  else
    let slope := c.times (q.y ^^^ r.y) (BitPolynomial.inverse c.modulus (q.x ^^^ r.x))
    mirrored c slope q.x q.y r.x

def add (c : Curve) (q r : Point) : Point :=
  if q.z = 0 then r
  else if r.z = 0 then q
  else if c.isBinary then addBinary c q r
  else
    let p := c.modulus
    let qz := q.z * q.z % p
    let rz := r.z * r.z % p
    let u := q.x * rz % p
    let s := q.y * (rz * r.z % p) % p
    let h := difference p (r.x * qz) u
    let d := difference p (r.y * (qz * q.z % p)) s
    if h = 0 then (if d = 0 then double c q else neutral)
    else
      let hh := h * h % p
      let hhh := h * hh % p
      let v := u * hh % p
      let x := difference p (d * d) (hhh + 2 * v)
      let y := difference p (d * difference p v x) (s * hhh)
      ⟨x, y, h * (q.z * r.z % p) % p⟩

/-- A multiple of a point, by repeated doubling. -/
def multiple (c : Curve) (n : Nat) (q : Point) : Point :=
  if n = 0 then neutral
  else
    let rest := multiple c (n / 2) (double c q)
    if n % 2 = 1 then add c q rest else rest
termination_by n
decreasing_by omega

/-- The coordinates of a point; none for the neutral one. -/
def affine? (c : Curve) (q : Point) : Option (Nat × Nat) :=
  if q.z = 0 then none
  else if c.isBinary then some (q.x, q.y)
  else
    let i := inverseMod q.z c.modulus
    let ii := i * i % c.modulus
    some (q.x * ii % c.modulus, q.y * (ii * i % c.modulus) % c.modulus)

def base (c : Curve) : Point := ⟨c.baseX, c.baseY, 1⟩

def baseMultiple? (c : Curve) (n : Nat) : Option (Nat × Nat) :=
  affine? c (multiple c n (base c))

/-- The sum of a multiple of the base point and one of another point. -/
def combine? (c : Curve) (m n x y : Nat) : Option (Nat × Nat) :=
  affine? c (add c (multiple c m (base c)) (multiple c n ⟨x, y, 1⟩))

end Curve

end AcmeClient.Signature
