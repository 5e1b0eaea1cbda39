import AcmeClient.Digest.Hmac
import AcmeClient.Number.Binary64
import AcmeClient.Signature.Curve

/-!
# RSA signatures

A signature is a power of a padded digest modulo the product of two primes. The padding is either a
fixed frame around the digest and the name of the hash function, or one with a salt and a mask made
from the digest itself.

* **`RsaPrivate.fits`** tests whether the numbers of a private part belong to a public one;
  **`RsaPrivate.ofExponent?`** finds all of them from the private exponent.
* **`Rsa.sign`** and **`Rsa.verify`** use the fixed frame.
* **`Rsa.verifySalted`** checks a signature with the longest salt that fits.
-/

namespace AcmeClient.Signature

open Digest Number

structure RsaPublic where
  modulus : Nat
  exponent : Nat
  deriving DecidableEq, Repr

/-- The private part of an RSA key: the private exponent, the two primes, the exponent modulo each
prime less one, and the inverse of the second prime modulo the first. -/
structure RsaPrivate where
  exponent : Nat
  prime1 : Nat
  prime2 : Nat
  exponent1 : Nat
  exponent2 : Nat
  coefficient : Nat
  deriving DecidableEq, Repr

namespace RsaPrivate

/-- Whether the numbers of a private part belong together and to a public part: two odd primes whose
product is the modulus, exponents that undo each other, and what follows from these. -/
def fits (s : RsaPrivate) (k : RsaPublic) : Bool :=
  let p := s.prime1
  let q := s.prime2
  p % 2 == 1 && q % 2 == 1 && p * q == k.modulus
    && k.exponent % 2 == 1 && k.exponent != 1
    && s.exponent1 == s.exponent % (p - 1) && s.exponent2 == s.exponent % (q - 1)
    && s.coefficient < p && s.coefficient * q % p == 1
    && s.exponent * k.exponent % Nat.lcm (p - 1) (q - 1) == 1
    && isProbablePrime p && isProbablePrime q

/-- The private part of a public part and a private exponent, with the larger prime first. -/
def ofExponent? (k : RsaPublic) (d : Nat) : Option RsaPrivate := do
  let product := k.exponent * d
  if k.modulus ≤ 1 ∨ product ≤ 1 ∨ powMod 2 product k.modulus ≠ 2 % k.modulus then none
  else
    let factor ← properFactor? k.modulus (product - 1)
    let p := max factor (k.modulus / factor)
    let q := min factor (k.modulus / factor)
    return ⟨d, p, q, d % (p - 1), d % (q - 1), inverseMod q p⟩

end RsaPrivate

namespace Rsa

/-- The octets in front of a digest that name its hash function. -/
def hashName : Hash → List UInt8
  | .sha256 => [0x30, 0x31, 0x30, 0x0d, 0x06, 0x09, 0x60, 0x86, 0x48, 0x01, 0x65, 0x03, 0x04, 0x02,
      0x01, 0x05, 0x00, 0x04, 0x20]
  | .sha384 => [0x30, 0x41, 0x30, 0x0d, 0x06, 0x09, 0x60, 0x86, 0x48, 0x01, 0x65, 0x03, 0x04, 0x02,
      0x02, 0x05, 0x00, 0x04, 0x30]
  | .sha512 => [0x30, 0x51, 0x30, 0x0d, 0x06, 0x09, 0x60, 0x86, 0x48, 0x01, 0x65, 0x03, 0x04, 0x02,
      0x03, 0x05, 0x00, 0x04, 0x40]

def size (k : RsaPublic) : Nat :=
  (Number.bitLength k.modulus + 7) / 8

/-- The fixed frame around a digest, as long as the modulus. -/
def framed (k : RsaPublic) (h : Hash) (message : List UInt8) : List UInt8 :=
  let body := hashName h ++ h.digest message
  0 :: 1 :: List.replicate (size k - (body.length + 3)) 0xff ++ 0 :: body

/-- Whether the modulus is long enough for the fixed frame. -/
def hasRoom (k : RsaPublic) (h : Hash) : Bool :=
  (hashName h).length + h.size + 11 ≤ size k

/-- Whether the modulus is long enough for a salted frame. -/
def hasSaltedRoom (k : RsaPublic) (h : Hash) : Bool :=
  h.size + 2 ≤ size k

def sign (k : RsaPublic) (s : RsaPrivate) (h : Hash) (message : List UInt8) : List UInt8 :=
  octetsOf (size k) (powMod (numberOf (framed k h message)) s.exponent k.modulus)

/-- The octets that a signature stands for. -/
def opened (k : RsaPublic) (signature : List UInt8) : List UInt8 :=
  octetsOf (size k) (powMod (numberOf signature) k.exponent k.modulus)

/-- Whether signatures are tested under a key: its modulus is odd and has at most 16384 bits, and
when it has more than 3072 bits, the exponent has at most 64. -/
def isTestable (k : RsaPublic) : Bool :=
  let bits := Number.bitLength k.modulus
  k.modulus % 2 == 1 && bits ≤ 16384 && (bits ≤ 3072 || Number.bitLength k.exponent ≤ 64)

/-- Whether a signature has the length and the size of the modulus, under a key for tests. -/
def fits (k : RsaPublic) (signature : List UInt8) : Bool :=
  isTestable k && signature.length == size k && numberOf signature < k.modulus

def verify (k : RsaPublic) (h : Hash) (message signature : List UInt8) : Bool :=
  hasRoom k h && fits k signature && opened k signature == framed k h message

/-- A mask of `length` octets made from a seed. -/
def mask (h : Hash) (seed : List UInt8) (length : Nat) : List UInt8 :=
  ((List.range (length / h.size + 1)).flatMap fun i => h.digest (seed ++ octetsOf 4 i)).take length

/-- Whether a salted signature with the longest salt that fits is that of a message. -/
def verifySalted (k : RsaPublic) (h : Hash) (message signature : List UInt8) : Bool :=
  let bits := Number.bitLength k.modulus - 1
  let length := (bits + 7) / 8
  let em := (opened k signature).drop (size k - length)
  let masked := em.take (length - h.size - 1)
  let hash := (em.drop (length - h.size - 1)).take h.size
  let free := 8 * length - bits
  let plain := List.zipWith (· ^^^ ·) masked (mask h hash masked.length)
  let db := match plain with
    | [] => []
    | b :: rest => UInt8.ofNat (b.toNat % Nat.pow 2 (8 - free)) :: rest
  match db with
  | 1 :: salt =>
      fits k signature && em.getLast? == some 0xbc
        && (masked.head?.map fun b => b.toNat / Nat.pow 2 (8 - free)) == some 0
        && h.digest (List.replicate 8 0 ++ h.digest message ++ salt) == hash
  | _ => false

end Rsa

end AcmeClient.Signature
