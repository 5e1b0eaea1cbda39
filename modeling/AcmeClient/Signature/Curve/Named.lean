import AcmeClient.Signature.Curve.Binary
import AcmeClient.Signature.Curve.Prime

/-!
# The names of curves

* **`Curve.named`** lists the curves that keys can be used on.
* **`Curve.otherName?`** is the name of any other curve that has one.
-/

namespace AcmeClient.Signature.Curve

/-- The curves that keys can be used on. -/
def named : List Curve :=
  [p192, p224, p256, p384, p521, koblitz256, brainpool256, brainpool384, brainpool512,
    k163, b163, k233, b233, k283, b283, k409, b409, k571, b571]

/-- Object identifiers with a common beginning, each with a name. -/
def namesUnder (front : List Nat) (names : List (Nat × String)) : List (List Nat × String) :=
  names.map fun p => (front ++ [p.1], p.2)

def otherNames : List (List Nat × String) :=
  namesUnder [1, 3, 132, 0] [(2, "sect163r1"), (3, "sect239k1"), (4, "sect113r1"),
      (5, "sect113r2"), (6, "secp112r1"), (7, "secp112r2"), (8, "secp160r1"), (9, "secp160k1"),
      (22, "sect131r1"), (23, "sect131r2"), (24, "sect193r1"), (25, "sect193r2"),
      (28, "secp128r1"), (29, "secp128r2"), (30, "secp160r2"), (31, "secp192k1"),
      (32, "secp224k1")]
    ++ namesUnder [1, 2, 840, 10045, 3, 1] [(2, "prime192v2"), (3, "prime192v3"),
      (4, "prime239v1"), (5, "prime239v2"), (6, "prime239v3")]
    ++ namesUnder [1, 2, 840, 10045, 3, 0] [(1, "c2pnb163v1"), (2, "c2pnb163v2"),
      (3, "c2pnb163v3"), (4, "c2pnb176v1"), (5, "c2tnb191v1"), (6, "c2tnb191v2"),
      (7, "c2tnb191v3"), (10, "c2pnb208w1"), (11, "c2tnb239v1"), (12, "c2tnb239v2"),
      (13, "c2tnb239v3"), (16, "c2pnb272w1"), (17, "c2pnb304w1"), (18, "c2tnb359v1"),
      (19, "c2pnb368w1"), (20, "c2tnb431r1")]
    ++ namesUnder [2, 23, 43, 1, 4] ([1, 3, 4, 5, 6, 7, 8, 9, 10, 11, 12].map fun n =>
      (n, "wap-wsg-idm-ecid-wtls" ++ toString n))
    ++ namesUnder [1, 3, 36, 3, 3, 2, 8, 1, 1] [(1, "brainpoolP160r1"), (2, "brainpoolP160t1"),
      (3, "brainpoolP192r1"), (4, "brainpoolP192t1"), (5, "brainpoolP224r1"),
      (6, "brainpoolP224t1"), (8, "brainpoolP256t1"), (9, "brainpoolP320r1"),
      (10, "brainpoolP320t1"), (12, "brainpoolP384t1"), (14, "brainpoolP512t1")]
    ++ [([1, 2, 156, 10197, 1, 301], "SM2")]

def ofOid? (oid : List Nat) : Option Curve :=
  named.find? fun c => c.oid == oid

def otherName? (oid : List Nat) : Option String :=
  otherNames.lookup oid

end AcmeClient.Signature.Curve
