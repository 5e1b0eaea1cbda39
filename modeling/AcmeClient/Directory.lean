import AcmeClient.Field

/-!
# The directory of a server

A server lists its endpoints in a directory, together with notes about itself.

* **`DirectoryMeta`** are the notes, **`Directory`** the entries with the notes, which always come
  last.
* **`Directory.ofJson`** reads a directory; an array of pairs is as good as an object.
* **`Directory.lookup`** finds an entry by its name, **`Directory.entry`** by a **`DirectoryKey`**.
-/

namespace AcmeClient

open Text

mutual

/-- A value as it is shown among notes: arrays in round brackets, objects by sorted names. -/
def Json.frozenLiteral : Json → String
  | .array [j] => "(" ++ Json.frozenLiteral j ++ ",)"
  | .array items => "(" ++ ", ".intercalate (Json.frozenItems items) ++ ")"
  | .object members =>
      let parts := (Json.frozenMembers members).mergeSort fun a b => decide (a.1 ≤ b.1)
      "frozendict(" ++ ", ".intercalate (parts.map fun p => p.1 ++ "=" ++ p.2) ++ ")"
  | j => j.literal

def Json.frozenItems : List Json → List String
  | [] => []
  | j :: rest => Json.frozenLiteral j :: Json.frozenItems rest

def Json.frozenMembers : List (String × Json) → List (String × String)
  | [] => []
  | (n, j) :: rest => (n, Json.frozenLiteral j) :: Json.frozenMembers rest

end

/-- What a server says about itself; what it does not say is `null`. Arrays and objects are kept as
they were sent, and only shown in the way of values that cannot be changed. -/
structure DirectoryMeta where
  termsOfService : Json
  website : Json
  caaIdentities : Json
  externalAccountRequired : Json
  deriving Repr

namespace DirectoryMeta

/-- The value under a name, `null` for none. -/
def read (j : Json) (name : String) : Except Fault Json := do
  if ← contained (j.holds name) then contained (j.under name) else return .null

def ofJson (j : Json) : Except Fault DirectoryMeta := do
  let terms ← read j "termsOfService"
  let website ← read j "website"
  let identities ← read j "caaIdentities"
  let required ← read j "externalAccountRequired"
  return ⟨terms, website, identities, required⟩

/-- Whether a note says something: a truth value always does. -/
def isSaid : Json → Bool
  | .bool _ => true
  | j => j.isTruthy

/-- The JSON form of the notes, without those that say nothing. -/
def members (m : DirectoryMeta) : Members :=
  [("termsOfService", m.termsOfService), ("website", m.website),
    ("caaIdentities", m.caaIdentities),
    ("externalAccountRequired", m.externalAccountRequired)].filter fun p => isSaid p.2

/-- The notes as they are shown among other values. -/
def literal (m : DirectoryMeta) : String :=
  "Meta(terms_of_service=" ++ m.termsOfService.frozenLiteral
    ++ ", website=" ++ m.website.frozenLiteral
    ++ ", caa_identities=" ++ m.caaIdentities.frozenLiteral
    ++ ", external_account_required=" ++ m.externalAccountRequired.frozenLiteral ++ ")"

end DirectoryMeta

/-- What an entry is asked for with: its name, or the constant of an endpoint. Programs may make
constants for endpoints that are not among those of the protocol. -/
inductive DirectoryKey where
  | text (name : String) : DirectoryKey
  | constant (name : String) : DirectoryKey
  deriving DecidableEq, Repr

def DirectoryKey.name : DirectoryKey → String
  | .text name => name
  | .constant name => name

structure Directory where
  entries : Members
  metadata : DirectoryMeta
  deriving Repr

namespace Directory

/-- The name under which the notes stand. -/
def metaName : String := "meta"

/-- Whether a pair is not about the notes. -/
def isEntry (p : Json × Json) : Bool :=
  p.1.string? ≠ some metaName

def ofJson (j : Json) : Except Fault Directory := do
  let pairs ← contained j.pairs
  let notes := (pairs.reverse.find? fun p => !isEntry p).map Prod.snd
  let metadata ← DirectoryMeta.ofJson (notes.getD (.object []))
  let entries ← contained (Json.named (pairs.filter isEntry))
  return ⟨Members.ofPairs entries, metadata⟩

def members (d : Directory) : Members :=
  d.entries ++ [(metaName, .object d.metadata.members)]

/-- The names, that of the notes last. -/
def names (d : Directory) : List String :=
  d.members.names

def has (d : Directory) (name : String) : Bool :=
  d.members.has name

def lookup (d : Directory) (name : String) : Except Fault Json :=
  match d.members.get? name with
  | some j => .ok j
  | none => .error (.noEntry name)

/-- The entry of a name, taken as an attribute. It is asked for names only that a directory does not
have as attributes of its own. -/
def attributeOf (d : Directory) (name : String) : Except Fault Json :=
  match d.members.get? name with
  | some j => .ok j
  | none => .error (.lacking (.entry name))

def holds (d : Directory) (k : DirectoryKey) : Bool :=
  d.has k.name

def entry (d : Directory) (k : DirectoryKey) : Except Fault Json :=
  d.lookup k.name

def entryLiteral (d : Directory) (name : String) : String :=
  if name = metaName then d.metadata.literal else (d.members.get name).literal

def url (d : Directory) (name : String) : Except Fault String :=
  match d.members.get? name with
  | none => .error (.protocol (.notOffered name))
  | some (.string s) => .ok s
  | some _ => .error (.protocol (.entryNotUrl name (d.entryLiteral name)))

end Directory

end AcmeClient
