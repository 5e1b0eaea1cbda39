import AcmeClient.IpAddress
import AcmeClient.Text.Pieces
import AcmeClient.Text.Quoted

/-!
# The parts of a URL

A URL is a scheme, an authority after two slashes, a path, a query and a fragment, each of which may
be empty. Blanks and controls in front and all tabs and line ends are ignored. A host in brackets
must be an address of 128 bits or of a future version, and an authority must not hold characters
that turn into delimiters when compatibility variants are folded.

* **`Url.Parts`** are the parts, **`Url.split`** takes a URL apart.
* **`Url.Defect`** says why a text is no URL.
-/

namespace AcmeClient.Url

open Text

/-- The parts of a URL; the scheme is in lower case. -/
structure Parts where
  scheme : List Char
  authority : List Char
  path : List Char
  query : List Char
  fragment : List Char
  deriving DecidableEq, Repr

inductive Defect where
  | brackets : Defect
  | futureAddress : Defect
  | host (text : String) : Defect
  | shortAddress : Defect
  | lookalike (authority : String) : Defect
  deriving DecidableEq, Repr

namespace Defect

def message : Defect → String
  | .brackets => "Invalid IPv6 URL"
  | .futureAddress => "IPvFuture address is invalid"
  | .host text => quoted text ++ " does not appear to be an IPv4 or IPv6 address"
  | .shortAddress => "An IPv4 address cannot be in brackets"
  | .lookalike authority =>
      "netloc '" ++ authority ++ "' contains invalid characters under NFKC normalization"

end Defect

/-- Letters, digits, plus, minus and point make up a scheme. -/
def isSchemeChar (c : Char) : Bool :=
  c.isAlpha || c.isDigit || c = '+' || c = '-' || c = '.'

/-- The characters whose compatibility variant holds a delimiter of URLs. -/
def lookalikes : List Nat :=
  [0x2047, 0x2048, 0x2049, 0x2100, 0x2101, 0x2105, 0x2106, 0x2a74, 0xfe13, 0xfe16, 0xfe55, 0xfe56,
    0xfe5f, 0xfe6b, 0xff03, 0xff0f, 0xff1a, 0xff1f, 0xff20]

/-- A URL without blanks and controls in front, tabs and line ends. -/
def cleaned (url : List Char) : List Char :=
  (url.dropWhile fun c => c.toNat ≤ 0x20).filter fun c => c ≠ '\t' ∧ c ≠ '\r' ∧ c ≠ '\n'

/-- The scheme in front of a colon, in lower case, and what follows the colon. -/
def cutScheme (url : List Char) : Option (List Char × List Char) :=
  match cut ':' url with
  | (_, none) => none
  | (scheme, some rest) =>
      match scheme with
      | [] => none
      | c :: _ =>
          if c.isAlpha ∧ scheme.all isSchemeChar then some (scheme.map Char.toLower, rest)
          else none

/-- A future version of addresses: the letter `v`, hexadecimal digits, a point, and more. -/
def isFutureAddress (host : List Char) : Bool :=
  match host with
  | 'v' :: rest =>
      match cut '.' rest with
      | (version, some address) =>
          version ≠ [] && version.all (fun c => (hexValue c).isSome) && address ≠ []
      | (_, none) => false
  | _ => false

def hostDefect? (host : List Char) : Option Defect :=
  if host.head? = some 'v' then
    (if isFutureAddress host then none else some .futureAddress)
  else
    match IpAddress.parseChars? host with
    | none => some (.host (String.ofList host))
    | some (.v4 _) => some .shortAddress
    | some (.v6 _ _) => none

def bracketDefect? (authority : List Char) : Option Defect :=
  if ('[' ∈ authority) ≠ (']' ∈ authority) then some .brackets
  else if '[' ∈ authority then
    hostDefect? (cut ']' ((cut '[' authority).2.getD [])).1
  else none

def authorityDefect? (authority : List Char) : Option Defect :=
  match bracketDefect? authority with
  | some d => some d
  | none =>
      if authority.any (fun c => lookalikes.contains c.toNat) then
        some (.lookalike (String.ofList authority))
      else none

def endsAuthority (c : Char) : Bool :=
  c = '/' || c = '?' || c = '#'

/-- The authority after two slashes, if there are any, and what follows it. -/
def cutAuthority : List Char → List Char × List Char
  | '/' :: '/' :: rest => (rest.takeWhile (!endsAuthority ·), rest.dropWhile (!endsAuthority ·))
  | rest => ([], rest)

/-- The parts of a URL that has the scheme `base` when it names none. -/
def splitWith (base : List Char) (url : List Char) : Except Defect Parts :=
  let (scheme, rest) := (cutScheme (cleaned url)).getD (base, cleaned url)
  let (authority, rest) := cutAuthority rest
  match authorityDefect? authority with
  | some d => .error d
  | none =>
      let (beforeFragment, fragment) := cut '#' rest
      let (path, query) := cut '?' beforeFragment
      .ok ⟨scheme, authority, path, query.getD [], fragment.getD []⟩

def split (url : String) : Except Defect Parts :=
  splitWith [] url.toList

end AcmeClient.Url
