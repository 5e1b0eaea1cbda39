import AcmeClient.Fault.Basic
import AcmeClient.Text.Utf8

/-!
# Nonces

Each request is signed with a nonce that the server gave out, and each is used once. Tokens wait in
a pool, sorted by their octets, and the least one is taken first.

* **`Nonce.decode`** reads the text of a nonce; **`decodeHeaderNonce`** words a refusal.
* **`NoncePool`** holds tokens: **`add`** and **`offer`** add one, **`take`** removes the least.
-/

namespace AcmeClient

namespace Nonce

def decode (text : String) : Except DecodingDefect (List UInt8) :=
  (Base64.decodeSized (Text.Utf8.encode text).length text.toList).mapError
    fun d => .nonce (.base64 d)

end Nonce

def decodeHeaderNonce (text : String) : Except Fault (List UInt8) :=
  (Nonce.decode text).mapError fun d => .badNonce text d.message

/-- The tokens that wait, in ascending order and without repetition. -/
structure NoncePool where
  tokens : List (List UInt8)
  deriving DecidableEq, Repr

namespace NoncePool

def empty : NoncePool := ⟨[]⟩

def size (p : NoncePool) : Nat :=
  p.tokens.length

/-- Puts a token at its place; one that is there already is not repeated. -/
def insert (token : List UInt8) : List (List UInt8) → List (List UInt8)
  | [] => [token]
  | t :: rest =>
      if token = t then t :: rest
      else if token < t then token :: t :: rest
      else t :: insert token rest

def add (p : NoncePool) (token : List UInt8) : NoncePool :=
  ⟨insert token p.tokens⟩

def offer (p : NoncePool) (text : String) : Except Fault NoncePool :=
  (decodeHeaderNonce text).map p.add

/-- Removes the least token. Nothing is promised about which one a client gets. -/
def take (p : NoncePool) : Option (List UInt8) × NoncePool :=
  match p.tokens with
  | [] => (none, p)
  | t :: rest => (some t, ⟨rest⟩)

end NoncePool

end AcmeClient
