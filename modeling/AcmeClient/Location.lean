import AcmeClient.Field

/-!
# URLs that are given

* **`checkUrl`** passes a URL with one of the two schemes of the web and an authority.
* **`directoryOf`** finds the directory of a server: a URL is its own answer, and some providers
  have short names.
-/

namespace AcmeClient

/-- The kinds of values that have no octets to split, in the words for what they lack. -/
def unsplittable (kind : String) : Fault :=
  .lacking (.object kind "decode")

/-- A given URL, checked under the name of its argument. -/
def checkUrl (url : Json) (name : String) : Except Fault String :=
  match url with
  | .null => .error (.kind (.absent name))
  | .string s => do
      if ← isAbsolute s then return s else throw (.argument (.notAbsolute name s))
  | other => .error (.argument (.notText name other.kindName))

/-- The directories of providers with short names, by authority and path. -/
def providers : List ((String × String) × String) :=
  [(("letsencrypt.org", ""), "https://acme-v02.api.letsencrypt.org/directory"),
    (("letsencrypt.org", "/v02"), "https://acme-v02.api.letsencrypt.org/directory"),
    (("letsencrypt.org", "/staging"), "https://acme-staging-v02.api.letsencrypt.org/directory"),
    (("pebble", ""), "https://localhost:14000/dir")]

/-- The short name in a split URL: authority and path without slashes at the end. -/
def providerName (parts : Url.Parts) : String × String :=
  (String.ofList parts.authority, String.ofList (Text.trimEnd (· = '/') parts.path))

def directoryOf (server : Json) : Except Fault String :=
  match server with
  | .null => .error (.kind (.absent "server_url"))
  | .string s => do
      let parts ← wellSplit (Url.split s)
      if parts.scheme = "acme".toList then
        match providers.lookup (providerName parts) with
        | some url => return url
        | none => throw (.argument (.unknownProvider s))
      else checkUrl server "server_url"
  | other =>
      match other.hashDefect? with
      | some d => .error (.container d)
      | none =>
          if other.isTruthy then .error (unsplittable other.kindName)
          else checkUrl other "server_url"

end AcmeClient
