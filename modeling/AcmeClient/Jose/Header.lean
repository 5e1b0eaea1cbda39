import AcmeClient.Identifier
import AcmeClient.Jose.Algorithm
import AcmeClient.Nonce
import AcmeClient.X509.Outline

/-!
# Headers of signed documents

A header has a fixed set of members. Each is decoded in its own way, in the order of the set, and
members that the set lacks are passed over. A member without a value is as good as missing.

* **`HeaderValue`** is a decoded member, **`Header`** lists the members by name.
* **`Header.ofJson`** decodes a header, **`Header.ofText`** reads one as JSON first.
* **`Header.add`** joins two headers that have no member in common.
* **`Header.protectedText`** writes the members that a signature protects.
-/

namespace AcmeClient

inductive HeaderValue where
  | raw (j : Json) : HeaderValue
  | algorithm (a : Algorithm) : HeaderValue
  | key (k : Key) : HeaderValue
  | octets (bs : List UInt8) : HeaderValue
  | certificates (ders : List (List UInt8)) : HeaderValue
  deriving Repr

namespace HeaderValue

/-- Whether a member has no value; a truth value always is one. -/
def isEmpty : HeaderValue → Bool
  | .raw (.bool _) => false
  | .raw j => !j.isTruthy
  | .algorithm _ => false
  | .key _ => false
  | .octets bs => bs.isEmpty
  | .certificates ders => ders.isEmpty

def toJson : HeaderValue → Json
  | .raw j => j
  | .algorithm a => .string a.name
  | .key k => .object k.members
  | .octets bs => .string (Base64.encode bs)
  | .certificates ders => .array (ders.map fun bs => .string (Base64.encodePadded bs))

end HeaderValue

structure Header where
  fields : List (String × HeaderValue)
  deriving Repr

namespace Header

def empty : Header := ⟨[]⟩

def get? (h : Header) (name : String) : Option HeaderValue :=
  h.fields.lookup name

/-- The members that have a value. -/
def present (h : Header) : List (String × HeaderValue) :=
  h.fields.filter fun p => !p.2.isEmpty

def algorithm? (h : Header) : Option Algorithm :=
  match h.get? "alg" with
  | some (.algorithm a) => some a
  | _ => none

def nonce? (h : Header) : Option (List UInt8) :=
  match h.get? "nonce" with
  | some (.octets bs) => some bs
  | _ => none

def key? (h : Header) : Option Key :=
  match h.get? "jwk" with
  | some (.key k) => some k
  | _ => none

/-- A member that is kept as it came, `null` if it is missing. -/
def raw (h : Header) (name : String) : Json :=
  match h.get? name with
  | some (.raw j) => j
  | _ => .null

/-! ### Decoding -/

/-- A member that is kept as it comes. -/
def decodeRaw (j : Json) : Except Fault HeaderValue :=
  .ok (.raw j)

def decodeAlgorithm (j : Json) : Except Fault HeaderValue :=
  match j.hashDefect? with
  | some d => .error (.container d)
  | none =>
      match j.string?.bind Algorithm.ofName? with
      | some a => .ok (.algorithm a)
      | none => .error (.unknownName j)

def decodeKey (j : Json) : Except Fault HeaderValue :=
  (Key.ofJson j).map .key

def decodeOctets (j : Json) : Except Fault HeaderValue :=
  (Key.octetsOfJson j).map .octets

def decodeNonce (j : Json) : Except Fault HeaderValue :=
  match decodeOctets j with
  | .error (.decoding d) => .error (.decoding (.nonce d))
  | r => r

def decodeCertificate (j : Json) : Except Fault (List UInt8) :=
  match j with
  | .string s => do
      if s.toList.any fun c => 128 ≤ c.toNat then throw (.argument .notAsciiText)
      let bs ← (Base64.decodeStandard s.toList).mapError .base64
      match X509.outlineDefects? bs with
      | some reasons => throw (.decoding (.certificate reasons))
      | none => return bs
  | other => .error (.kind (.notOctets other.kindName))

def decodeCertificates (j : Json) : Except Fault HeaderValue := do
  return .certificates (← (← contained j.elements).mapM decodeCertificate)

/-- A media type; one without a slash is short for one of applications. -/
def decodeMediaType (j : Json) : Except Fault HeaderValue := do
  if ← contained (j.holds "/") then return .raw j
  if ← contained (j.holds ";") then throw (.decoding .semicolon)
  match j with
  | .string s => return .raw (.string ("application/" ++ s))
  | other => throw (.kind (.concatenation other.kindName))

/-- Extensions that have to be understood; none is. -/
def decodeCritical (_ : Json) : Except Fault HeaderValue :=
  .error (.decoding .critical)

/-- The set of members: the name in JSON, the name in messages, and the way of decoding. -/
def decoders : List (String × String × (Json → Except Fault HeaderValue)) :=
  [("alg", "alg", decodeAlgorithm), ("jku", "jku", decodeRaw), ("jwk", "jwk", decodeKey),
    ("kid", "kid", decodeRaw), ("x5u", "x5u", decodeRaw), ("x5c", "x5c", decodeCertificates),
    ("x5t", "x5t", decodeOctets), ("x5t#S256", "x5tS256", decodeOctets),
    ("typ", "typ", decodeMediaType), ("cty", "cty", decodeMediaType),
    ("crit", "crit", decodeCritical), ("nonce", "nonce", decodeNonce), ("url", "url", decodeRaw)]

def ofJson (j : Json) : Except Fault Header := do
  let fields ← decoders.filterMapM fun (name, shown, decode) => do
    if ← contained (j.holds name) then
      let value ← contained (j.under name)
      return some (name, ← decodeMember shown value decode)
    else return none
  return ⟨fields⟩

def ofText (s : String) : Except Fault Header :=
  match (Body.text s).toJson with
  | .ok j => ofJson j
  | .error d => .error (.decoding (.grammar d))

/-- Two headers joined. -/
def add (h g : Header) : Except Fault Header :=
  if h.present.any fun p => g.present.any fun q => p.1 = q.1 then
    .error (.kind .overlap)
  else .ok ⟨h.present ++ g.present⟩

/-! ### Writing -/

/-- The text of a header: the members that have a value, in the order of the set. -/
def protectedText (h : Header) : String :=
  let ms := decoders.filterMap fun (name, _, _) =>
    (h.present.lookup name).map fun v => (name, v.toJson)
  (Json.object ms).render .plain

end Header

end AcmeClient
