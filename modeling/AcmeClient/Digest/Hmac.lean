import AcmeClient.Digest.Sha2

/-!
# Hash functions and keyed digests

* **`Hash`** names a hash function; **`Hash.digest`** applies it.
* **`hmac`** is the keyed digest: the key, filled up to a block, goes into an inner and an outer
  digest with two different masks.
-/

namespace AcmeClient.Digest

inductive Hash where
  | sha256 : Hash
  | sha384 : Hash
  | sha512 : Hash
  deriving DecidableEq, Repr

namespace Hash

def digest : Hash → List UInt8 → List UInt8
  | .sha256 => Digest.sha256
  | .sha384 => Digest.sha384
  | .sha512 => Digest.sha512

def size : Hash → Nat
  | .sha256 => 32
  | .sha384 => 48
  | .sha512 => 64

/-- The number of octets that are digested together. -/
def block : Hash → Nat
  | .sha256 => 64
  | .sha384 => 128
  | .sha512 => 128

end Hash

/-- A key as one block: a longer key is digested first, and zeros fill up. -/
def blockKey (h : Hash) (key : List UInt8) : List UInt8 :=
  let k := if h.block < key.length then h.digest key else key
  k ++ List.replicate (h.block - k.length) 0

def hmac (h : Hash) (key message : List UInt8) : List UInt8 :=
  let k := blockKey h key
  let inner := h.digest (k.map (· ^^^ 0x36) ++ message)
  h.digest (k.map (· ^^^ 0x5c) ++ inner)

end AcmeClient.Digest
