/-!
# Message digests of the second family

The message is padded to whole blocks with a bit, zeros and its length. Each block is spread out
into a schedule of words, which are mixed into a state of eight words one round after the other, and
the result is added to the state before. The round constants are the leading bits of the fractional
parts of the cube roots of the first primes, and the first states those of square roots.

* **`sha256`**, **`sha384`** and **`sha512`** digest octets.
-/

namespace AcmeClient.Digest

/-- The octets of a number, `count` of them, the most significant first. -/
def octetsOf : Nat → Nat → List UInt8
  | 0, _ => []
  | count + 1, n => octetsOf count (n / 256) ++ [UInt8.ofNat (n % 256)]

/-- The number that octets spell, the most significant first. -/
def numberOf (bs : List UInt8) : Nat :=
  bs.foldl (fun n b => 256 * n + b.toNat) 0

/-- A message with a bit, zeros and its length in bits, in whole blocks. The length takes an eighth
of a block. -/
def padded (block : Nat) (message : List UInt8) : List UInt8 :=
  let tail := block / 8
  let zeros := (block - (message.length + 1 + tail) % block) % block
  message ++ 0x80 :: List.replicate zeros 0 ++ octetsOf tail (8 * message.length)

/-- The groups of `size` octets, as many as `count`. -/
def groups (size : Nat) : Nat → List UInt8 → List (List UInt8)
  | 0, _ => []
  | count + 1, bs => bs.take size :: groups size count (bs.drop size)

structure State (w : Type) where
  a : w
  b : w
  c : w
  d : w
  e : w
  f : w
  g : w
  h : w

namespace State

def toList {w : Type} (s : State w) : List w :=
  [s.a, s.b, s.c, s.d, s.e, s.f, s.g, s.h]

/-- The sum of two states, word by word. -/
def add {w : Type} [Add w] (s t : State w) : State w :=
  ⟨s.a + t.a, s.b + t.b, s.c + t.c, s.d + t.d, s.e + t.e, s.f + t.f, s.g + t.g, s.h + t.h⟩

end State

namespace Sha256

/-- A word turned right. -/
def rotate (n : UInt32) (x : UInt32) : UInt32 :=
  (x >>> n) ||| (x <<< (32 - n))

def constants : List UInt32 :=
  [0x428a2f98, 0x71374491, 0xb5c0fbcf, 0xe9b5dba5, 0x3956c25b, 0x59f111f1, 0x923f82a4,
    0xab1c5ed5, 0xd807aa98, 0x12835b01, 0x243185be, 0x550c7dc3, 0x72be5d74, 0x80deb1fe,
    0x9bdc06a7, 0xc19bf174, 0xe49b69c1, 0xefbe4786, 0x0fc19dc6, 0x240ca1cc, 0x2de92c6f,
    0x4a7484aa, 0x5cb0a9dc, 0x76f988da, 0x983e5152, 0xa831c66d, 0xb00327c8, 0xbf597fc7,
    0xc6e00bf3, 0xd5a79147, 0x06ca6351, 0x14292967, 0x27b70a85, 0x2e1b2138, 0x4d2c6dfc,
    0x53380d13, 0x650a7354, 0x766a0abb, 0x81c2c92e, 0x92722c85, 0xa2bfe8a1, 0xa81a664b,
    0xc24b8b70, 0xc76c51a3, 0xd192e819, 0xd6990624, 0xf40e3585, 0x106aa070, 0x19a4c116,
    0x1e376c08, 0x2748774c, 0x34b0bcb5, 0x391c0cb3, 0x4ed8aa4a, 0x5b9cca4f, 0x682e6ff3,
    0x748f82ee, 0x78a5636f, 0x84c87814, 0x8cc70208, 0x90befffa, 0xa4506ceb, 0xbef9a3f7, 0xc67178f2]

def initial : State UInt32 :=
  ⟨0x6a09e667, 0xbb67ae85, 0x3c6ef372, 0xa54ff53a, 0x510e527f, 0x9b05688c, 0x1f83d9ab, 0x5be0cd19⟩

/-- Spreads out the words of a block; `last` holds the words so far, the newest first. -/
def spread : Nat → List UInt32 → List UInt32
  | 0, last => last.reverse
  | count + 1, last =>
      let at' (n : Nat) := last.getD (n - 1) 0
      let x := at' 15
      let y := at' 2
      let s0 := rotate 7 x ^^^ rotate 18 x ^^^ (x >>> 3)
      let s1 := rotate 17 y ^^^ rotate 19 y ^^^ (y >>> 10)
      spread count ((at' 16 + s0 + at' 7 + s1) :: last)

def round (s : State UInt32) (kw : UInt32 × UInt32) : State UInt32 :=
  let s1 := rotate 6 s.e ^^^ rotate 11 s.e ^^^ rotate 25 s.e
  let choice := (s.e &&& s.f) ^^^ (~~~s.e &&& s.g)
  let t1 := s.h + s1 + choice + kw.1 + kw.2
  let s0 := rotate 2 s.a ^^^ rotate 13 s.a ^^^ rotate 22 s.a
  let majority := (s.a &&& s.b) ^^^ (s.a &&& s.c) ^^^ (s.b &&& s.c)
  ⟨t1 + (s0 + majority), s.a, s.b, s.c, s.d + t1, s.e, s.f, s.g⟩

def compress (s : State UInt32) (block : List UInt8) : State UInt32 :=
  let words := (groups 4 16 block).map fun g => UInt32.ofNat (numberOf g)
  let schedule := spread 48 words.reverse
  ((constants.zip schedule).foldl round s).add s

def digest (message : List UInt8) : State UInt32 :=
  let bs := padded 64 message
  (groups 64 (bs.length / 64) bs).foldl compress initial

end Sha256

namespace Sha512

/-- A word turned right. -/
def rotate (n : UInt64) (x : UInt64) : UInt64 :=
  (x >>> n) ||| (x <<< (64 - n))

def constants : List UInt64 :=
  [0x428a2f98d728ae22, 0x7137449123ef65cd, 0xb5c0fbcfec4d3b2f, 0xe9b5dba58189dbbc,
    0x3956c25bf348b538, 0x59f111f1b605d019, 0x923f82a4af194f9b, 0xab1c5ed5da6d8118,
    0xd807aa98a3030242, 0x12835b0145706fbe, 0x243185be4ee4b28c, 0x550c7dc3d5ffb4e2,
    0x72be5d74f27b896f, 0x80deb1fe3b1696b1, 0x9bdc06a725c71235, 0xc19bf174cf692694,
    0xe49b69c19ef14ad2, 0xefbe4786384f25e3, 0x0fc19dc68b8cd5b5, 0x240ca1cc77ac9c65,
    0x2de92c6f592b0275, 0x4a7484aa6ea6e483, 0x5cb0a9dcbd41fbd4, 0x76f988da831153b5,
    0x983e5152ee66dfab, 0xa831c66d2db43210, 0xb00327c898fb213f, 0xbf597fc7beef0ee4,
    0xc6e00bf33da88fc2, 0xd5a79147930aa725, 0x06ca6351e003826f, 0x142929670a0e6e70,
    0x27b70a8546d22ffc, 0x2e1b21385c26c926, 0x4d2c6dfc5ac42aed, 0x53380d139d95b3df,
    0x650a73548baf63de, 0x766a0abb3c77b2a8, 0x81c2c92e47edaee6, 0x92722c851482353b,
    0xa2bfe8a14cf10364, 0xa81a664bbc423001, 0xc24b8b70d0f89791, 0xc76c51a30654be30,
    0xd192e819d6ef5218, 0xd69906245565a910, 0xf40e35855771202a, 0x106aa07032bbd1b8,
    0x19a4c116b8d2d0c8, 0x1e376c085141ab53, 0x2748774cdf8eeb99, 0x34b0bcb5e19b48a8,
    0x391c0cb3c5c95a63, 0x4ed8aa4ae3418acb, 0x5b9cca4f7763e373, 0x682e6ff3d6b2b8a3,
    0x748f82ee5defb2fc, 0x78a5636f43172f60, 0x84c87814a1f0ab72, 0x8cc702081a6439ec,
    0x90befffa23631e28, 0xa4506cebde82bde9, 0xbef9a3f7b2c67915, 0xc67178f2e372532b,
    0xca273eceea26619c, 0xd186b8c721c0c207, 0xeada7dd6cde0eb1e, 0xf57d4f7fee6ed178,
    0x06f067aa72176fba, 0x0a637dc5a2c898a6, 0x113f9804bef90dae, 0x1b710b35131c471b,
    0x28db77f523047d84, 0x32caab7b40c72493, 0x3c9ebe0a15c9bebc, 0x431d67c49c100d4c,
    0x4cc5d4becb3e42b6, 0x597f299cfc657e2a, 0x5fcb6fab3ad6faec, 0x6c44198c4a475817]

/-- The first state of the long digest. -/
def initial : State UInt64 :=
  ⟨0x6a09e667f3bcc908, 0xbb67ae8584caa73b, 0x3c6ef372fe94f82b, 0xa54ff53a5f1d36f1,
    0x510e527fade682d1, 0x9b05688c2b3e6c1f, 0x1f83d9abfb41bd6b, 0x5be0cd19137e2179⟩

/-- The first state of the shortened digest. -/
def initialShort : State UInt64 :=
  ⟨0xcbbb9d5dc1059ed8, 0x629a292a367cd507, 0x9159015a3070dd17, 0x152fecd8f70e5939,
    0x67332667ffc00b31, 0x8eb44a8768581511, 0xdb0c2e0d64f98fa7, 0x47b5481dbefa4fa4⟩

/-- Spreads out the words of a block; `last` holds the words so far, the newest first. -/
def spread : Nat → List UInt64 → List UInt64
  | 0, last => last.reverse
  | count + 1, last =>
      let wordBack (n : Nat) := last.getD (n - 1) 0
      let x := wordBack 15
      let y := wordBack 2
      let s0 := rotate 1 x ^^^ rotate 8 x ^^^ (x >>> 7)
      let s1 := rotate 19 y ^^^ rotate 61 y ^^^ (y >>> 6)
      spread count ((wordBack 16 + s0 + wordBack 7 + s1) :: last)

def round (s : State UInt64) (kw : UInt64 × UInt64) : State UInt64 :=
  let s1 := rotate 14 s.e ^^^ rotate 18 s.e ^^^ rotate 41 s.e
  let choice := (s.e &&& s.f) ^^^ (~~~s.e &&& s.g)
  let t1 := s.h + s1 + choice + kw.1 + kw.2
  let s0 := rotate 28 s.a ^^^ rotate 34 s.a ^^^ rotate 39 s.a
  let majority := (s.a &&& s.b) ^^^ (s.a &&& s.c) ^^^ (s.b &&& s.c)
  ⟨t1 + (s0 + majority), s.a, s.b, s.c, s.d + t1, s.e, s.f, s.g⟩

def compress (s : State UInt64) (block : List UInt8) : State UInt64 :=
  let words := (groups 8 16 block).map fun g => UInt64.ofNat (numberOf g)
  let schedule := spread 64 words.reverse
  ((constants.zip schedule).foldl round s).add s

/-- The state after a message, from a first state. -/
def digest (first : State UInt64) (message : List UInt8) : State UInt64 :=
  let bs := padded 128 message
  (groups 128 (bs.length / 128) bs).foldl compress first

end Sha512

def sha256 (message : List UInt8) : List UInt8 :=
  (Sha256.digest message).toList.flatMap fun w => octetsOf 4 w.toNat

def sha512 (message : List UInt8) : List UInt8 :=
  (Sha512.digest Sha512.initial message).toList.flatMap fun w => octetsOf 8 w.toNat

def sha384 (message : List UInt8) : List UInt8 :=
  ((Sha512.digest Sha512.initialShort message).toList.flatMap fun w => octetsOf 8 w.toNat).take 48

end AcmeClient.Digest
