import AcmeClient.Asn1.Der

/-!
# Algorithms and their parameters

An algorithm is written as an object identifier and the parameters that go with it. For the
algorithms that are known here the kind of the parameters is fixed; any other algorithm may have one
parameter of any kind.

* **`ParameterKind`** is what parameters an algorithm has, **`parameterKinds`** are the known
  algorithms.
* **`isAlgorithm`** recognises an algorithm with its parameters.
-/

namespace AcmeClient.X509

open Asn1

/-- What parameters an algorithm has: none, at most an empty one, the name of a curve, the numbers
of a prime field, those of an exchange with or without its order, or the parts of a salted
signature. -/
inductive ParameterKind where
  | absent : ParameterKind
  | optionalNull : ParameterKind
  | curve : ParameterKind
  | field : ParameterKind
  | orderedExchange : ParameterKind
  | exchange : ParameterKind
  | salted : ParameterKind
  deriving DecidableEq, Repr

/-- Identifiers with a common beginning. -/
def idsUnder (front : List Nat) (lasts : List Nat) : List (List Nat) :=
  lasts.map fun n => front ++ [n]

def hashIds : List (List Nat) :=
  [1, 3, 14, 3, 2, 26] :: idsUnder [2, 16, 840, 1, 101, 3, 4, 2] [1, 2, 3, 4, 7, 8, 9, 10]

/-- The identifiers of RSA keys and of signatures with RSA keys. -/
def rsaIds : List (List Nat) :=
  [1, 3, 14, 3, 2, 29] :: idsUnder [1, 2, 840, 113549, 1, 1] [1, 5, 11, 12, 13, 14]
    ++ idsUnder [2, 16, 840, 1, 101, 3, 4, 3] [13, 14, 15, 16]

/-- The identifiers of signatures with keys on curves and in prime fields, with the older hash
functions. -/
def pairIds : List (List Nat) :=
  idsUnder [1, 2, 840, 10045, 4, 3] [1, 2, 3, 4]
    ++ [1, 2, 840, 10040, 4, 3] :: idsUnder [2, 16, 840, 1, 101, 3, 4, 3] [1, 2, 3, 4]

/-- The identifiers of signatures with keys on curves and the newer hash functions, and of keys on
twisted curves. -/
def bareIds : List (List Nat) :=
  idsUnder [2, 16, 840, 1, 101, 3, 4, 3] [9, 10, 11, 12]
    ++ idsUnder [1, 3, 101] [110, 111, 112, 113]

def parameterKinds : List (List Nat × ParameterKind) :=
  (hashIds ++ rsaIds ++ pairIds).map (·, .optionalNull) ++ bareIds.map (·, .absent)
    ++ [([1, 2, 840, 10045, 2, 1], .curve), ([1, 2, 840, 10040, 4, 1], .field),
      ([1, 2, 840, 10046, 2, 1], .orderedExchange), ([1, 2, 840, 113549, 1, 3, 1], .exchange),
      ([1, 2, 840, 113549, 1, 1, 10], .salted)]

def isNull (e : Element) : Bool :=
  e.tag == 0x05 && e.content.isEmpty

/-- Whether an element is a natural number below a bound. -/
def isBelow (bound : Nat) (e : Element) : Bool :=
  e.natural?.any (· < bound)

/-- Whether an element names a curve, inherits one, or describes one. -/
def isCurveName (e : Element) : Bool :=
  e.objectId?.isSome || isNull e || e.tag == 0x30

/-- Whether an element holds a prime, an order and a base. -/
def isField (e : Element) : Bool :=
  match e.sequence? with
  | some es => es.length == 3 && es.all (·.natural?.isSome)
  | none => false

/-- Whether an element holds a prime, a base and an order, and perhaps a factor and how they were
found. -/
def isOrderedExchange (e : Element) : Bool :=
  match e.sequence? with
  | some (p :: g :: q :: rest) =>
      let rest := match rest with
        | j :: more => if j.tag = 0x02 then (if j.natural?.isSome then more else rest) else rest
        | [] => []
      [p, g, q].all (·.natural?.isSome)
        && (match rest with
          | [] => true
          | [found] => found.tag == 0x30
          | _ => false)
  | _ => false

/-- Whether an element holds a prime, a base and perhaps a length of 32 bits. -/
def isExchange (e : Element) : Bool :=
  match e.sequence? with
  | some [p, g] => p.natural?.isSome && g.natural?.isSome
  | some [p, g, length] =>
      p.natural?.isSome && g.natural?.isSome && isBelow (Nat.pow 2 32) length
  | _ => false

/-- The hash function of a salted signature that names none. -/
def defaultHash : List UInt8 :=
  sequenceOf [objectId [1, 3, 14, 3, 2, 26], null]

/-- The mask of a salted signature that names none. -/
def defaultMask : List UInt8 :=
  sequenceOf [objectId [1, 2, 840, 113549, 1, 1, 8], defaultHash]

/-- Whether an element is a mask: an object identifier and an algorithm. -/
def isMask (isAlgorithm : Element → Bool) (e : Element) : Bool :=
  match e.sequence? with
  | some [oid, hash] => oid.objectId?.isSome && isAlgorithm hash
  | _ => false

/-- Whether an element holds the parts of a salted signature: hash function, mask, length of the
salt and trailer. None of them is written when it is the usual one. -/
def isSalted (isAlgorithm : Element → Bool) (e : Element) : Bool :=
  let parts? := do
    let (hash, es) ← Element.takeExplicit? 0xa0 (← e.sequence?)
    let (mask, es) ← Element.takeExplicit? 0xa1 es
    let (salt, es) ← Element.takeExplicit? 0xa2 es
    let (trailer, es) ← Element.takeExplicit? 0xa3 es
    return (hash, mask, salt, trailer, es)
  match parts? with
  | some (hash, mask, salt, trailer, []) =>
      hash.all (fun h => isAlgorithm h && h.octets != defaultHash)
        && mask.all (fun m => isMask isAlgorithm m && m.octets != defaultMask)
        && salt.all (fun s => isBelow 65536 s && s.natural? != some 20)
        && trailer.all (fun t => isBelow 256 t && t.natural? != some 1)
  | _ => false

def areParameters (isAlgorithm : Element → Bool) : ParameterKind → List Element → Bool
  | .absent, es => es.isEmpty
  | .optionalNull, [] => true
  | .optionalNull, [e] => isNull e
  | .curve, [e] => isCurveName e
  | .field, [e] => isField e
  | .orderedExchange, [e] => isOrderedExchange e
  | .exchange, [e] => isExchange e
  | .salted, [] => true
  | .salted, [e] => isSalted isAlgorithm e
  | _, _ => false

/-- Whether an element is an algorithm with its parameters, in which algorithms are nested at most
`depth` times. -/
def isAlgorithmWithin : Nat → Element → Bool
  | 0, _ => false
  | depth + 1, e =>
      match e.sequence? with
      | some (oid :: parameters) =>
          match oid.objectId? with
          | none => false
          | some id =>
              match parameterKinds.lookup id with
              | some kind => areParameters (isAlgorithmWithin depth) kind parameters
              | none => parameters.length ≤ 1
      | _ => false

def isAlgorithm (e : Element) : Bool :=
  isAlgorithmWithin (e.content.length + 1) e

end AcmeClient.X509
