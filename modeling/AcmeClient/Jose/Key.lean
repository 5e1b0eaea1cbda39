import AcmeClient.Digest.Hmac
import AcmeClient.Fault.Basic
import AcmeClient.Signature.Curve.Prime
import AcmeClient.Signature.Ecdsa
import AcmeClient.Signature.Rsa
import AcmeClient.Text.Utf8
import AcmeClient.X509.PrivateKey

/-!
# Keys

* **`Key`** is an RSA key, a key on a curve, or a shared secret; the first two may be public only.
* **`Key.members`** is the JSON form of a key, **`Key.ofJson`** reads it, **`Key.ofPem`** reads the
  armoured form.
* **`Key.publicKey`** leaves out what is private.
* **`Key.thumbprint`** is the digest of the members that make up the public part, written in one
  way.
-/

namespace AcmeClient

open Digest Signature

/-- A key for signatures. A key may lie on any curve that a private key can be given on, though JSON
has names for three of them only: see `curveName`. -/
inductive Key where
  | rsa (publicPart : RsaPublic) (privatePart : Option RsaPrivate) : Key
  | curve (c : Curve) (x y : Nat) (number : Option Nat) : Key
  | secret (octets : List UInt8) : Key
  deriving DecidableEq, Repr

namespace Key

def kindName : Key → String
  | .rsa .. => "JWKRSA"
  | .curve .. => "JWKEC"
  | .secret _ => "JWKOct"

/-- The public part of a key; a shared secret has no other. -/
def publicKey : Key → Key
  | .rsa p _ => .rsa p none
  | .curve c x y _ => .curve c x y none
  | .secret octets => .secret octets

/-- The octets of a number, at least one. -/
def numberOctets (n : Nat) : List UInt8 :=
  octetsOf (max 1 ((Number.bitLength n + 7) / 8)) n

def numberText (n : Nat) : Json :=
  .string (Base64.encode (numberOctets n))

/-- A coordinate in base64, with the full length of its curve. -/
def coordinateText (c : Curve) (n : Nat) : Json :=
  .string (Base64.encode (octetsOf c.size n))

def curveNames : List (String × Curve) :=
  [("P-256", Curve.p256), ("P-384", Curve.p384), ("P-521", Curve.p521)]

/-- The name of a curve in JSON. A curve without one goes by its own name here, and keys on it sign,
though they ought to be refused as soon as they are written or sign. No key that is read from JSON
lies on such a curve. -/
def curveName (c : Curve) : String :=
  ((curveNames.find? fun p => p.2 = c).map Prod.fst).getD c.name

def members : Key → Members
  | .rsa p none => [("n", numberText p.modulus), ("e", numberText p.exponent),
      ("kty", .string "RSA")]
  | .rsa p (some s) => [("n", numberText p.modulus), ("e", numberText p.exponent),
      ("d", numberText s.exponent), ("p", numberText s.prime1), ("q", numberText s.prime2),
      ("dp", numberText s.exponent1), ("dq", numberText s.exponent2),
      ("qi", numberText s.coefficient), ("kty", .string "RSA")]
  | .curve c x y none => [("x", coordinateText c x), ("y", coordinateText c y),
      ("crv", .string (curveName c)), ("kty", .string "EC")]
  | .curve c x y (some d) => [("d", coordinateText c d), ("x", coordinateText c x),
      ("y", coordinateText c y), ("crv", .string (curveName c)), ("kty", .string "EC")]
  | .secret octets => [("k", .string (Base64.encode octets)), ("kty", .string "oct")]

/-- The digest of the public members, sorted and without blanks. -/
def thumbprint (k : Key) : List UInt8 :=
  sha256 (Text.Utf8.encode ((Json.object k.publicKey.members).render .dense))

/-! ### Reading a key -/

def octetsOfJson (j : Json) : Except Fault (List UInt8) :=
  match j with
  | .string s =>
      (Base64.decodeSized (Text.Utf8.encode s).length s.toList).mapError
        fun d => .decoding (.base64 d)
  | other => .error (.lacking (.object other.kindName "encode"))

/-- The number in a value; it takes one octet at least. -/
def numberOfJson (j : Json) : Except Fault Nat := do
  let bs ← octetsOfJson j
  if bs = [] then throw (.decoding .unspecified)
  return numberOf bs

def numberIn (j : Json) (name : String) : Except Fault Nat := do
  numberOfJson (← (j.under name).mapError .container)

def coordinateIn (c : Curve) (j : Json) (name : String) : Except Fault Nat := do
  let bs ← octetsOfJson (← (j.under name).mapError .container)
  if bs.length ≠ c.size then throw (.decoding (.coordinate name c.size bs.length))
  return numberOf bs

/-- The members of a private part that come all together or not at all. -/
def privateNames : List String := ["p", "q", "dp", "dq", "qi"]

/-- The private part of an RSA key with a private exponent. If one of the other members is there,
all of them have to be, and each is read as the text that it is shown as. -/
def rsaPrivateOfJson (k : RsaPublic) (d : Nat) (ms : Members) : Except Fault RsaPrivate := do
  if (privateNames ++ ["oth"]).any ms.has then
    let given := privateNames.map ms.get
    if given.any (·.isNull) then throw (.key (.incomplete given))
    match ← given.mapM fun j => numberOfJson (.string j.shown) with
    | [p, q, dp, dq, qi] => return ⟨d, p, q, dp, dq, qi⟩
    | _ => throw (.argument .unreadable)
  else
    match RsaPrivate.ofExponent? k d with
    | some s => return s
    | none => throw (.argument .unreadable)

def isInRange (k : RsaPublic) (s : RsaPrivate) : Bool :=
  [s.exponent, s.prime1, s.prime2, s.exponent1, s.exponent2, s.coefficient].all (· < k.modulus)

def rsaOfJson (ms : Members) : Except Fault Key := do
  let j := Json.object ms
  let n ← numberIn j "n"
  let e ← numberIn j "e"
  let k : RsaPublic := ⟨n, e⟩
  let priv ← if ms.has "d" then some <$> rsaPrivateOfJson k (← numberIn j "d") ms else pure none
  if n < 3 ∨ e < 3 ∨ e % 2 = 0 ∨ n ≤ e then throw (.argument .unreadable)
  if priv.all fun s => isInRange k s && s.fits k then return .rsa k priv
  else throw (.argument .unreadable)

/-- A key on a curve. Coordinates are taken modulo that of the curve. -/
def curveOfJson (ms : Members) : Except Fault Key := do
  let j := Json.object ms
  let name ← (j.under "crv").mapError .container
  match name.string?.bind fun s => curveNames.lookup s with
  | none => throw (.decoding .unspecified)
  | some c =>
      let x := (← coordinateIn c j "x") % c.modulus
      let y := (← coordinateIn c j "y") % c.modulus
      let number ← if ms.has "d" then some <$> coordinateIn c j "d" else pure none
      if !c.holds x y then throw (.argument .unreadable)
      if number.all fun d => c.baseMultiple? d = some (x, y) then return .curve c x y number
      else throw (.argument .unreadable)

def ofJson (j : Json) : Except Fault Key :=
  match j with
  | .object ms =>
      match Members.get? ms "kty" with
      | none => .error (.decoding .noKeyKind)
      | some kind =>
          match kind.hashDefect? with
          | some d => .error (.container d)
          | none =>
              if kind.string? = some "RSA" then rsaOfJson ms
              else if kind.string? = some "EC" then curveOfJson ms
              else if kind.string? = some "oct" then do
                return .secret (← octetsOfJson (← (j.under "k").mapError .container))
              else .error (.decoding (.keyKind kind j))
  | other => .error (.decoding (.notObject other))

/-- A private key with armour, of a kind that signs documents. -/
def ofPem (bs : List UInt8) : Except X509.PrivateKey.TextDefect Key := do
  match ← X509.PrivateKey.ofPem bs with
  | .rsa p s => return .rsa p (some s)
  | .curve c number x y => return .curve c x y (some number)
  | _ => throw .malformed

end Key

end AcmeClient
