import AcmeClient.Url.Split

/-!
# Resolving references

A reference is read against a base URL. It stands on its own when it names another scheme, or one
that has no hierarchy; it takes the authority of the base when it has none, and the path, parameters
and query when it has no path. Otherwise its path continues the base's path up to the last slash,
and segments of one or two points are worked off.

* **`Url.join`** resolves a reference.
* **`Url.assemble`** puts parts together.
-/

namespace AcmeClient.Url

open Text

/-- The schemes with hierarchical paths, against which references are resolved. -/
def hierarchical : List String :=
  ["", "ftp", "http", "gopher", "nntp", "imap", "wais", "file", "https", "shttp", "mms", "prospero",
    "rtsp", "rtsps", "rtspu", "sftp", "svn", "svn+ssh", "ws", "wss"]

def withAuthority : List String :=
  ["", "ftp", "http", "gopher", "nntp", "telnet", "imap", "wais", "file", "mms", "https", "shttp",
    "snews", "prospero", "rtsp", "rtsps", "rtspu", "rsync", "svn", "svn+ssh", "sftp", "nfs", "git",
    "git+ssh", "ws", "wss"]

/-- The schemes whose last path segment may have parameters. -/
def withParameters : List String :=
  ["", "ftp", "hdl", "prospero", "http", "https", "shttp", "rtsp", "rtsps", "rtspu", "sip", "sips",
    "mms", "sftp", "tel"]

def isOneOf (scheme : List Char) (schemes : List String) : Bool :=
  schemes.contains (String.ofList scheme)

/-- A path without the parameters of its last segment, and those after the first semicolon. -/
def cutParameters (path : List Char) : List Char × List Char :=
  match cutLast '/' path with
  | (none, last) =>
      match cut ';' last with
      | (name, some parameters) => (name, parameters)
      | (_, none) => (path, [])
  | (some directory, last) =>
      match cut ';' last with
      | (name, some parameters) => (directory ++ '/' :: name, parameters)
      | (_, none) => (path, [])

/-- A URL taken apart, with the parameters apart from the path. -/
structure Reference where
  scheme : List Char
  authority : List Char
  path : List Char
  parameters : List Char
  query : List Char
  fragment : List Char
  deriving DecidableEq, Repr

/-- Takes a reference apart; the scheme is that of the base when it names none. -/
def Reference.parse (base url : List Char) : Except Defect Reference :=
  (splitWith base url).map fun p =>
    let (path, parameters) :=
      if isOneOf p.scheme withParameters then cutParameters p.path else (p.path, [])
    ⟨p.scheme, p.authority, path, parameters, p.query, p.fragment⟩

/-- A separator and a part, or nothing for an empty part. -/
def withMark (mark : Char) (part : List Char) : List Char :=
  if part = [] then [] else mark :: part

def assemble (r : Reference) : List Char :=
  let path := r.path ++ withMark ';' r.parameters
  let slashed := ['/', '/'].isPrefixOf path
  let location :=
    if r.authority ≠ [] ∨ (r.scheme ≠ [] ∧ isOneOf r.scheme withAuthority ∧ !slashed) then
      let rooted := if path ≠ [] ∧ path.head? ≠ some '/' then '/' :: path else path
      '/' :: '/' :: r.authority ++ rooted
    else path
  (if r.scheme = [] then [] else r.scheme ++ [':'])
    ++ location ++ withMark '?' r.query ++ withMark '#' r.fragment

/-- Works off segments of points from left to right; `done` holds the segments kept, last first. -/
def walk (done : List (List Char)) : List (List Char) → List (List Char)
  | [] => done.reverse
  | s :: rest =>
      if s = ['.', '.'] then walk done.tail rest
      else if s = ['.'] then walk done rest
      else walk (s :: done) rest

/-- The path that segments lead to; a last segment of points stands for its directory. -/
def resolved (segments : List (List Char)) : List Char :=
  let kept := walk [] segments
  let last := segments.getLast?
  let all := if last = some ['.'] ∨ last = some ['.', '.'] then kept ++ [[]] else kept
  let path := joined '/' all
  if path = [] then ['/'] else path

/-- The segments of a reference's path, after those of the base's directory unless it is rooted.
Empty segments between the first and the last are left out where two paths are put together. -/
def segmentsOf (base path : List Char) : List (List Char) :=
  if path.head? = some '/' then pieces '/' path
  else
    let parts := pieces '/' base
    let directory := if parts.getLast? = some [] then parts else parts.dropLast
    let all := directory ++ pieces '/' path
    match all with
    | [] => []
    | [s] => [s]
    | s :: rest => s :: (rest.dropLast.filter (· ≠ []) ++ rest.getLast?.toList)

def joinChars (base url : List Char) : Except Defect (List Char) :=
  if base = [] then .ok url
  else if url = [] then .ok base
  else
    match Reference.parse [] base with
    | .error d => .error d
    | .ok b =>
        match Reference.parse b.scheme url with
        | .error d => .error d
        | .ok r =>
            if r.scheme ≠ b.scheme ∨ !isOneOf r.scheme hierarchical then .ok url
            else if isOneOf r.scheme withAuthority ∧ r.authority ≠ [] then .ok (assemble r)
            else
              let authority := if isOneOf r.scheme withAuthority then b.authority else r.authority
              if r.path = [] ∧ r.parameters = [] then
                let query := if r.query = [] then b.query else r.query
                .ok (assemble ⟨r.scheme, authority, b.path, b.parameters, query, r.fragment⟩)
              else
                .ok (assemble ⟨r.scheme, authority, resolved (segmentsOf b.path r.path),
                  r.parameters, r.query, r.fragment⟩)

def join (base url : String) : Except Defect String :=
  (joinChars base.toList url.toList).map String.ofList

end AcmeClient.Url
