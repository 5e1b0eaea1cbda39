import AcmeClient.Claims.Value
import AcmeClient.Base64

/-!
# Drafts of claims

Claims are drafted name by name. A draft may hold further drafts under its names, and each can be
written to at any time, so all drafts of one document stand in one book, each under its number. A
nested draft is younger than the one that holds it, so its number is greater.

* **`DraftBook`** holds the drafts; the first one has the number zero.
* **`put`**, **`putOctets`**, **`putItems`** and **`nest`** write a name of a draft.
* **`members`** are the members of a draft with its nested drafts filled in.
* **`text`** is the canonical text of the first draft, and **`textOf`** that of any draft.
-/

namespace AcmeClient

/-- What stands under a name of a draft. -/
inductive DraftEntry where
  | value (v : Value) : DraftEntry
  | nested (number : Nat) : DraftEntry
  deriving Repr

/-- The drafts of one document, by number. -/
structure DraftBook where
  drafts : List (List (String × DraftEntry))
  deriving Repr

namespace DraftBook

/-- A book with one draft that holds nothing. -/
def empty : DraftBook := ⟨[[]]⟩

/-- Writes an entry under a name: in place when the name is there, at the end otherwise. -/
def write (name : String) (entry : DraftEntry) :
    List (String × DraftEntry) → List (String × DraftEntry)
  | [] => [(name, entry)]
  | (n, e) :: rest => if n = name then (n, entry) :: rest else (n, e) :: write name entry rest

def set (b : DraftBook) (number : Nat) (name : String) (entry : DraftEntry) : DraftBook :=
  ⟨b.drafts.modify number (write name entry)⟩

def put (b : DraftBook) (number : Nat) (name : String) (v : Value) :
    Except ValueDefect DraftBook :=
  v.convert.map fun v => b.set number name (.value v)

def putOctets (b : DraftBook) (number : Nat) (name : String) (bs : List UInt8) : DraftBook :=
  b.set number name (.value (.string (Base64.encode bs)))

def putItems (b : DraftBook) (number : Nat) (name : String) (v : Value) :
    Except ValueDefect DraftBook := do
  b.put number name (.list (← v.elements))

/-- Puts a new draft under a name; it gets the next number. -/
def nest (b : DraftBook) (number : Nat) (name : String) : DraftBook × Nat :=
  let child := b.drafts.length
  (⟨b.drafts.modify number (write name (.nested child)) ++ [[]]⟩, child)

/-- The members of a draft, with drafts nested up to a depth filled in. -/
def membersTo (b : DraftBook) : Nat → Nat → List (String × Value)
  | 0, _ => []
  | depth + 1, number =>
      (b.drafts[number]?.getD []).map fun p =>
        match p.2 with
        | .value v => (p.1, v)
        | .nested child => (p.1, .record (membersTo b depth child))

/-- The members of a draft. No draft is nested deeper than there are drafts. -/
def members (b : DraftBook) (number : Nat) : List (String × Value) :=
  b.membersTo b.drafts.length number

def names (b : DraftBook) : List String :=
  (b.members 0).map Prod.fst

/-- The document that the first draft stands for. -/
def document (b : DraftBook) : Except ValueDefect Json :=
  (Value.record (b.members 0)).toJson

/-- The canonical text of the first draft. -/
def text (b : DraftBook) : Except ValueDefect String :=
  b.document.map Json.canonical

def textOf (b : DraftBook) (number : Nat) : Except ValueDefect String :=
  (Value.record (b.members number)).toJson.map Json.canonical

/-- A draft of the given members, put one after the other. -/
def ofMembers (ms : List (String × Value)) : Except ValueDefect DraftBook :=
  ms.foldlM (fun b p => b.put 0 p.1 p.2) empty

end DraftBook

end AcmeClient
