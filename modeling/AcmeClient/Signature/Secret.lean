import AcmeClient.Digest.Hmac
import AcmeClient.Number.Binary64

/-!
# Secret numbers for one signature

Signatures on curves and in prime fields need a number that nobody can guess and that is never used
for two messages. It is drawn from a generator of keyed digests, seeded with the key and the digest
of the message, so signing needs no source of chance.

* **`withSecret`** tries the numbers of the generator in turn.
-/

namespace AcmeClient.Signature

open Digest

def leadingBits (bits : Nat) (bs : List UInt8) : Nat :=
  numberOf bs / Nat.pow 2 (8 * bs.length - bits)

/-- The state of the generator: a key and the last digest. -/
structure Generator where
  key : List UInt8
  value : List UInt8

namespace Generator

/-- Mixes octets into the state, after a mark. -/
def mix (h : Hash) (g : Generator) (mark : List UInt8) : Generator :=
  let key := hmac h g.key (g.value ++ mark)
  ⟨key, hmac h key g.value⟩

/-- The next `count` digests. -/
def draw (h : Hash) : Nat → Generator → List UInt8 × Generator
  | 0, g => ([], g)
  | count + 1, g =>
      let value := hmac h g.key g.value
      let r := draw h count ⟨g.key, value⟩
      (value ++ r.1, r.2)

/-- The generator for a private number and the digest of a message. -/
def seeded (h : Hash) (order number : Nat) (digest : List UInt8) : Generator :=
  let size := (Number.bitLength order + 7) / 8
  let z := leadingBits (Number.bitLength order) digest % order
  let seed := octetsOf size number ++ octetsOf size z
  let g : Generator := ⟨List.replicate h.size 0, List.replicate h.size 1⟩
  mix h (mix h g (0 :: seed)) (1 :: seed)

/-- The first answer of `attempt` to one of the next `count` numbers of the generator; numbers that
are zero or not below the order are passed over. -/
def search {α : Type} (h : Hash) (order : Nat) (attempt : Nat → Option α) :
    Nat → Generator → Option α
  | 0, _ => none
  | count + 1, g =>
      let bits := Number.bitLength order
      let (bs, g) := draw h (bits / (8 * h.size) + 1) g
      let k := leadingBits bits (bs.take ((bits + 7) / 8))
      match if 0 < k ∧ k < order then attempt k else none with
      | some answer => some answer
      | none => search h order attempt count (mix h g [0])

end Generator

/-- The first answer to a secret number for a message. -/
def withSecret {α : Type} (h : Hash) (order number : Nat) (digest : List UInt8)
    (attempt : Nat → Option α) : Option α :=
  (Generator.seeded h order number digest).search h order attempt 64

end AcmeClient.Signature
