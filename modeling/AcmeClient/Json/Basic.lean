import AcmeClient.Number.Binary64

/-!
# JSON values

An object keeps the order of its members. A name that is put again keeps its first place and takes
the last value, so a document never shows a name twice.

* **`Json`** is a JSON value, with integers of any size apart from floating point numbers.
* **`Members`** are the members of an object: **`get?`**, **`put`**, **`ofPairs`**.
* **`Json.same`** is equality of values: numbers of every kind by their value, `true` and `false`
  as one and zero, objects without regard to the order of members.
-/

namespace AcmeClient

open Number

/-- A JSON value; the members of an object are in document order. -/
inductive Json where
  | null : Json
  | bool (b : Bool) : Json
  | int (n : Int) : Json
  | float (x : Binary64) : Json
  | string (s : String) : Json
  | array (items : List Json) : Json
  | object (members : List (String × Json)) : Json
  deriving Inhabited, Repr

/-- The members of a JSON object, in document order. -/
abbrev Members := List (String × Json)

namespace Members

def get? (ms : Members) (name : String) : Option Json :=
  ms.lookup name

/-- The value of a name, or `null` when the object lacks it. -/
def get (ms : Members) (name : String) : Json :=
  (ms.get? name).getD .null

def has (ms : Members) (name : String) : Bool :=
  (ms.get? name).isSome

/-- Puts a value under a name: in place when the name is there, at the end otherwise. -/
def put (name : String) (value : Json) : Members → Members
  | [] => [(name, value)]
  | (n, v) :: rest => if n = name then (n, value) :: rest else (n, v) :: put name value rest

/-- The object that results from putting pairs one after the other. -/
def ofPairs (ps : List (String × Json)) : Members :=
  ps.foldl (fun ms p => put p.1 p.2 ms) []

def remove (name : String) (ms : Members) : Members :=
  ms.filter fun p => p.1 ≠ name

def names (ms : Members) : List String :=
  ms.map Prod.fst

end Members

namespace Json

/-- The value of a text; `none` for anything else. -/
def string? : Json → Option String
  | .string s => some s
  | _ => none

def isNull : Json → Bool
  | .null => true
  | _ => false

/-- Whether a value counts as true: not null, zero, empty or false. -/
def isTruthy : Json → Bool
  | .null => false
  | .bool b => b
  | .int n => n ≠ 0
  | .float (.finite _ units) => units ≠ 0
  | .float _ => true
  | .string s => s ≠ ""
  | .array items => !items.isEmpty
  | .object members => !members.isEmpty

/-- The number that a scalar stands for: `true` and `false` count as one and zero. -/
def asNumber : Json → Option (Int ⊕ Binary64)
  | .bool b => some (.inl (if b then 1 else 0))
  | .int n => some (.inl n)
  | .float x => some (.inr x)
  | _ => none

/-- Equality of numbers of both kinds; no number counts as equal to itself. -/
def sameNumber : Int ⊕ Binary64 → Int ⊕ Binary64 → Bool
  | .inl m, .inl n => m == n
  | .inl m, .inr x => x.toInt? == some m
  | .inr x, .inl n => x.toInt? == some n
  | .inr x, .inr y => x.sameValue y || (x == .nan && y == .nan)

mutual

def same : Json → Json → Bool
  | .null, .null => true
  | .string s, .string t => s == t
  | .array xs, .array ys => sameItems xs ys
  | .object xs, .object ys => xs.length == ys.length && sameMembers xs ys
  | x, y =>
      match x.asNumber, y.asNumber with
      | some m, some n => sameNumber m n
      | _, _ => false

def sameItems : List Json → List Json → Bool
  | [], [] => true
  | x :: xs, y :: ys => same x y && sameItems xs ys
  | _, _ => false

/-- Whether each member of the first object has an equal one in the second. -/
def sameMembers : List (String × Json) → List (String × Json) → Bool
  | [], _ => true
  | (n, x) :: xs, ys =>
      (match ys.lookup n with
        | some y => same x y
        | none => false) && sameMembers xs ys

end

end Json

end AcmeClient
