import AcmeClient.Json.Literal
import AcmeClient.Json.Printer
import AcmeClient.Problem.Code
import AcmeClient.Url.Join

/-!
# Problem documents

A server explains a refusal in a document. Its type and its instance may be references relative to
the URL of the request.

* **`Problem`** is such a document with that URL.
* **`Problem.withCode?`** makes one for a code of the protocol.
* **`Problem.text`** is the text that is shown: type, description, detail and title of the problem,
  and then of each subproblem on a line of its own. It fails only where a type cannot be resolved.
* **`Problem.same`** is equality: the members are the same up to their order. **`Problem.hash`** goes
  by the same text.
-/

namespace AcmeClient

open Text

/-- A problem document, and the URL against which its references are resolved. -/
structure Problem where
  members : Members
  baseUrl : Option String
  deriving Repr

namespace Problem

/-- A problem with a code of the table and further members. -/
def withCode? (code : String) (others : Members) : Option Problem :=
  if ProblemCode.isKnown code then
    some ⟨Members.put "type" (.string (ProblemCode.space ++ code)) others, none⟩
  else none

def canonical (p : Problem) : String :=
  (Json.object p.members).canonical

def literal (p : Problem) : String :=
  "Problem(" ++ p.canonical ++ ")"

/-- Whether two problems say the same. -/
def same (p q : Problem) : Bool :=
  p.canonical == q.canonical

/-- The hash of a problem, by a hash of texts. -/
def hash (textHash : String → Int) (p : Problem) : Int :=
  textHash p.canonical

/-- A reference resolved against a base, if there is one. -/
def resolve (base : Option String) (reference : String) : Except Url.Defect String :=
  match base with
  | none => .ok reference
  | some b => Url.join b reference

/-- A member of any kind, as it is shown; `null` is not. -/
def shownMember (ms : Members) (name : String) : Option String :=
  match ms.get name with
  | .null => none
  | j => some j.shown

/-- The type as it is shown: `about:blank` for none or an empty one. -/
def shownType (base : Option String) (ms : Members) : Except Url.Defect String := do
  let typ ← match ms.get "type" with
    | .string s => resolve base s
    | _ => pure ((shownMember ms "type").getD "")
  return if typ = "" then "about:blank" else typ

/-- The identifier that a problem is about, as it is shown. -/
def shownIdentifier (ms : Members) : Option String :=
  match ms.get "identifier" with
  | .object members =>
      let value := Members.get members "value"
      if value.isTruthy then some value.shown else none
  | _ => none

/-- The text of a problem without its subproblems. -/
def heading (base : Option String) (ms : Members) : Except Url.Defect String := do
  let typ ← shownType base ms
  let parts := [some typ, ProblemCode.describe? typ, shownMember ms "detail",
    shownMember ms "title"].filterMap id
  let line := " :: ".intercalate (parts.map asciiEscaped)
  return match shownIdentifier ms with
    | some value => "Problem for " ++ value ++ ": " ++ line
    | none => line

/-- The texts of a problem and of its subproblems, each on a line of its own. -/
def lines (first : Except Url.Defect String) (others : List (Except Url.Defect String)) :
    Except Url.Defect String := do
  return "\n".intercalate (← (first :: others).mapM id)

mutual

def itemTexts (base : Option String) : List Json → List (Except Url.Defect String)
  | [] => []
  | .object ms :: rest =>
      lines (heading base ms) (subproblemTexts base ms) :: itemTexts base rest
  | _ :: rest => itemTexts base rest

/-- The texts of the subproblems among members. -/
def subproblemTexts (base : Option String) :
    List (String × Json) → List (Except Url.Defect String)
  | [] => []
  | (n, .array items) :: rest =>
      if n = "subproblems" then itemTexts base items else subproblemTexts base rest
  | (n, _) :: rest => if n = "subproblems" then [] else subproblemTexts base rest

end

def text (p : Problem) : Except Url.Defect String :=
  lines (heading p.baseUrl p.members) (subproblemTexts p.baseUrl p.members)

end Problem

end AcmeClient
