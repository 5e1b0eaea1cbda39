import AcmeClient.Field

/-!
# Reading problem documents

* **`Problem.typ`**, **`title?`**, **`detail?`**, … are the members of a problem, converted.
* **`Problem.code?`** is the code of its type, **`Problem.description?`** what it means.
* **`Problem.subproblems`** are the problems of which it consists.
-/

namespace AcmeClient.Problem

def resolved (p : Problem) (reference : Option String) : Except Fault (Option String) :=
  match reference with
  | none => .ok none
  | some r => (wellSplit (resolve p.baseUrl r)).map some

/-- The type, `about:blank` if there is none. -/
def typ (p : Problem) : Except Fault String := do
  let t ← p.resolved (← (Members.field p.members "type").string?)
  return match t with
    | none => "about:blank"
    | some s => if s = "" then "about:blank" else s

def title? (p : Problem) : Except Fault (Option String) :=
  (Members.field p.members "title").string?

def detail? (p : Problem) : Except Fault (Option String) :=
  (Members.field p.members "detail").string?

def instance? (p : Problem) : Except Fault (Option String) := do
  p.resolved (← (Members.field p.members "instance").string?)

def identifier? (p : Problem) : Except Fault (Option Identifier) :=
  (Members.field p.members "identifier").identifier?

/-- The problem in an item of a list; nothing stands for a problem without members. -/
def ofItem (p : Problem) (f : Field) : Except Fault Problem := do
  return ⟨(← f.object?).getD [], p.baseUrl⟩

def subproblems (p : Problem) : Except Fault (List Problem) := do
  (← (Members.field p.members "subproblems").array).mapM p.ofItem

/-- The code of the type, if it is one of the protocol. -/
def code? (p : Problem) : Except Fault (Option String) := do
  return ProblemCode.ofType? (← p.typ)

/-- What the type means. -/
def description? (p : Problem) : Except Fault (Option String) := do
  return ProblemCode.describe? (← p.typ)

def isSpaced (p : Problem) : Except Fault Bool := do
  return ProblemCode.isSpaced (← p.typ)

end AcmeClient.Problem
