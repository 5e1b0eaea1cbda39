import AcmeClient.Number.Binary64

/-!
# The shortest decimal that reads back

The text of a finite number has the fewest digits that still round to it, and of those the ones
nearest to it. The reals that round to a number form an interval that reaches half way to its two
neighbours; the ends belong to it when the number is even. On a decimal grid it is enough to try
the two neighbours of the number.

* **`shortest`** gives the digits and the place of the point.
* **`Binary64.text`** writes positionally from `0.0001` up to sixteen digits before the point, and
  with an exponent otherwise.
-/

namespace AcmeClient.Number

/-- The interval of reals that round to a size, in quarters of a unit. -/
structure Window where
  low : Nat
  high : Nat
  closed : Bool

namespace Window

/-- The reals that round to the positive size `units`. Below a power of two the spacing is half as
wide as above it. -/
def around (units : Nat) : Window :=
  let excess := bitLength units - 53
  let gap := Nat.pow 2 excess
  let significand := units / gap
  let narrow := significand = Nat.pow 2 52 ∧ 0 < excess
  ⟨4 * units - (if narrow then gap else 2 * gap), 4 * units + 2 * gap, significand % 2 == 0⟩

def holds (w : Window) (num den : Nat) : Bool :=
  if w.closed then w.low * den ≤ num && num ≤ w.high * den
  else w.low * den < num && num < w.high * den

end Window

/-- The least `k` with `value < 10 ^ k`, for the value `units / 2 ^ 1074`. -/
def pointPlace (units : Nat) : Int :=
  let whole := units / Nat.pow 2 1074
  if 0 < whole then (numeral whole).length
  else
    -- the first power of ten that lifts the value to one or more
    match (List.range 400).find? fun j => Nat.pow 2 1074 ≤ units * Nat.pow 10 j with
    | some j => 1 - (j : Int)
    | none => -400

/-- A point of a decimal grid near a value: `digits * 10 ^ exponent`. -/
structure GridPoint where
  digits : Nat
  exponent : Int
  deriving DecidableEq, Repr

namespace GridPoint

/-- The value of a grid point in quarters of a unit, as a quotient. -/
def quarters (p : GridPoint) : Nat × Nat :=
  match p.exponent with
  | .ofNat e => (p.digits * Nat.pow 10 e * Nat.pow 2 1076, 1)
  | .negSucc e => (p.digits * Nat.pow 2 1076, Nat.pow 10 (e + 1))

/-- The distance to a size, as the numerator over the quotient's denominator. -/
def distance (p : GridPoint) (units : Nat) : Nat :=
  let q := p.quarters
  let v := 4 * units * q.2
  if q.1 < v then v - q.1 else q.1 - v

end GridPoint

/-- The better of the two neighbours of a size on the grid `10 ^ exponent`, if one rounds to it. -/
def onGrid (w : Window) (units : Nat) (exponent : Int) : Option GridPoint :=
  let below : Nat :=
    match exponent with
    | .ofNat e => units / (Nat.pow 10 e * Nat.pow 2 1074)
    | .negSucc e => units * Nat.pow 10 (e + 1) / Nat.pow 2 1074
  let lower : GridPoint := ⟨below, exponent⟩
  let upper : GridPoint := ⟨below + 1, exponent⟩
  let fits (p : GridPoint) : Bool := let q := p.quarters; 0 < p.digits && w.holds q.1 q.2
  match fits lower, fits upper with
  | false, false => none
  | true, false => some lower
  | false, true => some upper
  | true, true =>
      let dl := lower.distance units
      let du := upper.distance units
      if dl < du ∨ (dl = du ∧ below % 2 = 0) then some lower else some upper

/-- The fewest digits that round to the positive size `units`; seventeen always do. -/
def shortest (units : Nat) : GridPoint :=
  let w := Window.around units
  let k := pointPlace units
  let found := (List.range 17).findSome? fun (n : Nat) => onGrid w units (k - ((n + 1 : Nat) : Int))
  found.getD ⟨units, 0⟩

/-- Digits with the point after `place` of them, or in front when `place` is not positive. -/
def positional (ds : List Char) (place : Int) : List Char :=
  match place with
  | .ofNat (p + 1) =>
      let whole := ds.take (p + 1)
      let rest := ds.drop (p + 1)
      whole ++ List.replicate (p + 1 - whole.length) '0'
        ++ '.' :: (if rest = [] then ['0'] else rest)
  | .ofNat 0 => '0' :: '.' :: ds
  | .negSucc p => '0' :: '.' :: (List.replicate (p + 1) '0' ++ ds)

/-- Digits with the point after the first one and an exponent of two digits or more. -/
def scientific (ds : List Char) (exponent : Int) : List Char :=
  let mantissa := match ds with
    | [] => []
    | [d] => [d]
    | d :: rest => d :: '.' :: rest
  let sign := if exponent < 0 then '-' else '+'
  mantissa ++ 'e' :: sign :: (padded 2 exponent.natAbs).toList

namespace Binary64

def unitsText (units : Nat) : List Char :=
  if units = 0 then ['0', '.', '0']
  else
    let p := shortest units
    let ds := numeral p.digits
    let place := p.exponent + ds.length
    -- a neighbour may end in zeros when it is a power of ten
    let significant := (ds.reverse.dropWhile (· == '0')).reverse
    if -4 < place ∧ place ≤ 16 then positional significant place
    else scientific significant (place - 1)

/-- The shortest text of a finite number; infinities and no number as the given words. -/
def textWith (infinity nothing : String) : Binary64 → String
  | .finite negative units =>
      String.ofList ((if negative then ['-'] else []) ++ unitsText units)
  | .infinite negative => (if negative then "-" else "") ++ infinity
  | .nan => nothing

def text : Binary64 → String :=
  textWith "inf" "nan"

end Binary64

end AcmeClient.Number
