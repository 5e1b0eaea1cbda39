import AcmeClient.Json.Literal

/-!
# JSON values as containers

A received value that should be an object may be of any kind. Asked for a name it then answers as
its kind does: an array looks for an item that equals the name, a text for a part of itself, and a
scalar cannot be asked at all.

* **`Json.holds`** asks for a name, **`Json.under`** takes the value under a name.
* **`Json.members`** reads an object, or the pairs of an array as one.
* **`ContainerDefect`** is why a value cannot be asked.
-/

namespace AcmeClient

open Text

inductive ContainerDefect where
  | notIterable (kind : String) : ContainerDefect
  | notSearchable (kind : String) : ContainerDefect
  | notSubscriptable (kind : String) : ContainerDefect
  | arrayIndex : ContainerDefect
  | textIndex : ContainerDefect
  | unhashable (kind : String) : ContainerDefect
  | notPair (place : Nat) : ContainerDefect
  | missing (name : String) : ContainerDefect
  | pairLength (place length : Nat) : ContainerDefect
  | nameKind (kind : String) : ContainerDefect
  deriving DecidableEq, Repr

namespace ContainerDefect

/-- The wording of a defect; a missing name is its own wording, quoted. -/
def message : ContainerDefect → String
  | .notIterable kind => quoted kind ++ " object is not iterable"
  | .notSearchable kind => "argument of type " ++ quoted kind ++ " is not iterable"
  | .notSubscriptable kind => quoted kind ++ " object is not subscriptable"
  | .arrayIndex => "list indices must be integers or slices, not str"
  | .textIndex => "string indices must be integers, not 'str'"
  | .unhashable kind => "unhashable type: " ++ quoted kind
  | .notPair place =>
      "cannot convert dictionary update sequence element #" ++ toString place ++ " to a sequence"
  | .missing name => quoted name
  | .pairLength place length =>
      "dictionary update sequence element #" ++ toString place ++ " has length "
        ++ toString length ++ "; 2 is required"
  | .nameKind kind => quoted kind ++ " object has no attribute 'name'"

end ContainerDefect

namespace Json

/-- Whether a value can be looked up in a table: arrays and objects cannot. -/
def hashDefect? : Json → Option ContainerDefect
  | .array _ => some (.unhashable "list")
  | .object _ => some (.unhashable "dict")
  | _ => none

/-- Whether some part of a text is another text. -/
def hasPart (part : List Char) : List Char → Bool
  | [] => part.isEmpty
  | c :: cs => part.isPrefixOf (c :: cs) || hasPart part cs

def holds (j : Json) (name : String) : Except ContainerDefect Bool :=
  match j with
  | .object members => .ok (Members.has members name)
  | .array items => .ok (items.any fun
      | .string s => s == name
      | _ => false)
  | .string s => .ok (hasPart name.toList s.toList)
  | other => .error (.notSearchable other.kindName)

def under (j : Json) (name : String) : Except ContainerDefect Json :=
  match j with
  | .object members =>
      match Members.get? members name with
      | some v => .ok v
      | none => .error (.missing name)
  | .array _ => .error .arrayIndex
  | .string _ => .error .textIndex
  | other => .error (.notSubscriptable other.kindName)

/-- The items that a value yields one by one. -/
def elements : Json → Except ContainerDefect (List Json)
  | .array items => .ok items
  | .object members => .ok (members.map fun p => .string p.1)
  | .string s => .ok (s.toList.map fun c => .string (String.ofList [c]))
  | other => .error (.notIterable other.kindName)

def pairAt (place : Nat) (j : Json) : Except ContainerDefect (Json × Json) :=
  match j.elements with
  | .error _ => .error (.notPair place)
  | .ok [n, v] =>
      match n.hashDefect? with
      | some d => .error d
      | none => .ok (n, v)
  | .ok items => .error (.pairLength place items.length)

def pairsFrom (place : Nat) : List Json → Except ContainerDefect (List (Json × Json))
  | [] => .ok []
  | j :: rest => do
      let p ← pairAt place j
      let ps ← pairsFrom (place + 1) rest
      return p :: ps

/-- The pairs of a value that stands for an object: its members, or the pairs it lists. -/
def pairs (j : Json) : Except ContainerDefect (List (Json × Json)) :=
  match j with
  | .object members => .ok (members.map fun p => (.string p.1, p.2))
  | other => do pairsFrom 0 (← other.elements)

/-- The members that pairs stand for; every name has to be a text. -/
def named : List (Json × Json) → Except ContainerDefect (List (String × Json))
  | [] => .ok []
  | (.string n, v) :: rest => do return (n, v) :: (← named rest)
  | (other, _) :: _ => .error (.nameKind other.kindName)

end Json

end AcmeClient
