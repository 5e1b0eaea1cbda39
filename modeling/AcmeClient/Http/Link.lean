import AcmeClient.Text.Blank
import AcmeClient.Text.Pieces

/-!
# Links in headers

A header may hold several links, separated by a comma and an opening bracket. Each is a URL in
brackets with parameters after semicolons.

* **`Link.parse`** reads the value of a header as links, each a list of names and values; the URL
  has the name `url`.
* **`Link.related`** are the URLs of links with a relation.
-/

namespace AcmeClient.Link

open Text

/-- Blanks and quotes around names and values. -/
def isPadding (c : Char) : Bool :=
  c = ' ' || c = '\'' || c = '"'

/-- What stands around a URL. -/
def isBracket (c : Char) : Bool :=
  c = '<' || c = '>' || isPadding c

/-- What follows a separator at the front: a comma, blanks, an opening bracket. -/
def afterSeparator? : List Char → Option (List Char)
  | ',' :: rest =>
      match rest.dropWhile (· = ' ') with
      | '<' :: after => some after
      | _ => none
  | _ => none

/-- The links of a value, cut at the separators; `left` bounds the characters that are left. -/
def cutLinks : Nat → List Char → List (List Char)
  | 0, _ => [[]]
  | _, [] => [[]]
  | left + 1, c :: cs =>
      match afterSeparator? (c :: cs) with
      | some after => [] :: cutLinks left after
      | none =>
          match cutLinks left cs with
          | [] => [[c]]
          | p :: ps => (c :: p) :: ps

/-- A name and a value; a parameter has exactly one equals sign. -/
def parameter? (cs : List Char) : Option (String × String) :=
  match pieces '=' cs with
  | [name, value] =>
      some (String.ofList (trimWhere isPadding name), String.ofList (trimWhere isPadding value))
  | _ => none

/-- The parameters up to the first that is malformed. -/
def parameters : List (List Char) → List (String × String)
  | [] => []
  | cs :: rest =>
      match parameter? cs with
      | some p => p :: parameters rest
      | none => []

def ofChars (cs : List Char) : List (String × String) :=
  let (url, rest) := cut ';' cs
  ("url", String.ofList (trimWhere isBracket url)) :: parameters (pieces ';' (rest.getD []))

def parse (value : String) : List (List (String × String)) :=
  match trimWhere isPadding value.toList with
  | [] => []
  | cs => (cutLinks cs.length cs).map ofChars

def last? (name : String) (link : List (String × String)) : Option String :=
  link.reverse.lookup name

def related (relation value : String) : List String :=
  (parse value).filterMap fun link =>
    if last? "rel" link = some relation then last? "url" link else none

end AcmeClient.Link
