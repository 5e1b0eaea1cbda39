import AcmeClient.Jose.Key

/-!
# Signature algorithms

* **`Algorithm`** is a family of signatures with a hash function.
* **`Algorithm.ofKey`** picks the algorithm for an account key.
* **`Algorithm.sign`** signs a message, **`Algorithm.verify`** tests a signature.
* **`Algorithm.misuse`** is the fault of a key that does not go with a family of signatures.
-/

namespace AcmeClient

open Digest Signature

inductive Family where
  | mac : Family
  | rsa : Family
  | salted : Family
  | curve : Family
  deriving DecidableEq, Repr

/-- A family with a hash function. -/
structure Algorithm where
  family : Family
  hash : Hash
  deriving DecidableEq, Repr

namespace Algorithm

def name (a : Algorithm) : String :=
  (match a.family with
    | .mac => "HS"
    | .rsa => "RS"
    | .salted => "PS"
    | .curve => "ES")
  ++ (match a.hash with
    | .sha256 => "256"
    | .sha384 => "384"
    | .sha512 => "512")

def all : List Algorithm :=
  [Family.mac, .rsa, .salted, .curve].flatMap fun f =>
    [Hash.sha256, .sha384, .sha512].map fun h => ⟨f, h⟩

def ofName? (s : String) : Option Algorithm :=
  all.find? fun a => a.name == s

def macs : List Algorithm :=
  all.filter fun a => a.family = .mac

def curveHashes : List (Nat × Hash) :=
  [(256, .sha256), (384, .sha384), (521, .sha512)]

def ofKey (k : Key) : Except Fault Algorithm :=
  match k with
  | .rsa .. => .ok ⟨.rsa, .sha256⟩
  | .curve c .. =>
      match curveHashes.lookup c.bits with
      | some h => .ok ⟨.curve, h⟩
      | none => .error (.argument (.curve c.name))
  | .secret _ => .error (.argument (.keyKind k.kindName))

/-- The signature of a message; a key without its private part does not sign, and one that is too
short for the digest neither. Curve signatures are the same each time: their secret number comes
from key and message. -/
def sign (a : Algorithm) (k : Key) (message : List UInt8) : Except Fault (List UInt8) :=
  match a.family, k with
  | .mac, .secret octets => .ok (hmac a.hash octets message)
  | .rsa, .rsa p (some s) =>
      if Rsa.hasRoom p a.hash then .ok (Rsa.sign p s a.hash message) else .error (.key .short)
  | .curve, .curve c _ _ (some number) =>
      let (r, s) := Ecdsa.sign c number a.hash message
      .ok (octetsOf c.size r ++ octetsOf c.size s)
  | _, _ => .error (.key .publicOnly)

/-- The fault of a key of a kind that a family of signatures cannot use: what it asks of the key is
not there, or is asked in another way. -/
def misuse : Family → Key → Fault
  | .mac, .rsa .. => .kind (.notSecret "ComparableRSAKey")
  | .mac, _ => .kind (.notSecret "ComparableECKey")
  | .curve, .rsa .. => .kind (.missingArgument "RSAPublicKey.verify" "algorithm")
  | .curve, _ => .lacking (.object "bytes" "key_size")
  | _, .curve .. => .kind (.extraArguments "ECPublicKey.verify" 3 4)
  | _, _ => .lacking (.object "bytes" "verify")

/-- Whether a signature is that of a message. For curves its length is looked at first. -/
def verify (a : Algorithm) (k : Key) (message signature : List UInt8) : Except Fault Bool :=
  match a.family, k with
  | .mac, .secret octets => .ok (hmac a.hash octets message == signature)
  | .rsa, .rsa p _ => .ok (Rsa.verify p a.hash message signature)
  | .salted, .rsa p _ =>
      if Rsa.hasSaltedRoom p a.hash then .ok (Rsa.verifySalted p a.hash message signature)
      else .error (.argument .longDigest)
  | .curve, .curve c x y _ =>
      .ok (signature.length == 2 * c.size
        && Ecdsa.verify c x y a.hash message (numberOf (signature.take c.size))
          (numberOf (signature.drop c.size)))
  | .curve, .rsa p _ =>
      if signature.length = 2 * Rsa.size p then .error (misuse .curve k) else .ok false
  | family, k => .error (misuse family k)

end Algorithm

end AcmeClient
