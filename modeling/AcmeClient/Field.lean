import AcmeClient.Identifier
import AcmeClient.Json.Document
import AcmeClient.Problem.Basic

/-!
# Fields of documents

The body of an answer is read field by field. A field that is missing and one that is `null` are the
same: they give nothing, an empty list, or a default. A field that holds something else than it
should is refused under its path.

* **`Field`** is a value with its path; **`Members.field`** takes one out of a document.
* **`Field.string?`**, **`url?`**, **`instant?`**, … convert it.
* **`Field.required`** refuses a field that is missing.
* **`Field.member`** and **`Field.item`** go from a field to one inside it.
* **`isAbsolute`** tells URLs that requests can be sent to.
-/

namespace AcmeClient

open Calendar Text

/-- The fault of a URL that cannot be split or joined. -/
def wellSplit {α : Type} (r : Except Url.Defect α) : Except Fault α :=
  r.mapError fun d => .argument (.url d)

/-- Whether a URL has one of the two schemes of the web and an authority. -/
def isAbsolute (url : String) : Except Fault Bool := do
  let parts ← wellSplit (Url.split url)
  return (parts.scheme = "http".toList || parts.scheme = "https".toList) && parts.authority ≠ []

/-- The item at a place; places before the first count from the end. -/
def itemAt {α : Type} (items : List α) (place : Int) : Except Fault α :=
  let n : Int := if place < 0 then place + items.length else place
  match if n < 0 then none else items[n.toNat]? with
  | some a => .ok a
  | none => .error .noItem

/-- A value of a document and the path on which it stands. -/
structure Field where
  path : String
  value : Json
  deriving Repr

/-- The field of a name, `null` if it is missing. -/
def Members.field (ms : Members) (name : String) : Field :=
  ⟨name, Members.get ms name⟩

namespace Field

def refuse {α : Type} (f : Field) (kind : FieldKind) (reason : Option FieldReason) :
    Except Fault α :=
  .error (.protocol (.field f.path kind f.value reason))

def isPresent (f : Field) : Bool :=
  !f.value.isNull

/-- The field itself, which has to be there. -/
def required (f : Field) : Except Fault Field :=
  if f.isPresent then .ok f else .error (.protocol (.missing f.path))

def literal (f : Field) : String :=
  "JSONValue(" ++ quoted f.path ++ ", " ++ f.value.literal ++ ")"

/-- Whether two fields have one path and equal values. What is no number equals nothing, unless it
is a part of a value. -/
def same (f g : Field) : Bool :=
  f.path == g.path
    && (match f.value with
      | .float .nan => false
      | v => v.same g.value)

def string? (f : Field) : Except Fault (Option String) :=
  match f.value with
  | .null => .ok none
  | .string s => .ok (some s)
  | _ => f.refuse .string none

def ofString? {α : Type} (f : Field) (convert : String → Except Fault α) :
    Except Fault (Option α) := do
  match ← f.string? with
  | none => return none
  | some s => return some (← convert s)

/-- A reference with a scheme. -/
def uri? (f : Field) : Except Fault (Option String) :=
  f.ofString? fun s => do
    let parts ← wellSplit (Url.split s)
    if parts.scheme = [] then f.refuse .uri none else return s

def url? (f : Field) : Except Fault (Option String) :=
  f.ofString? fun s => do
    if ← isAbsolute s then return s else f.refuse .url none

def instant? (f : Field) : Except Fault (Option Instant) :=
  f.ofString? fun s =>
    match Timestamp.parse s with
    | .ok t => .ok t
    | .error d => f.refuse .instant (some (.timestamp d))

/-- An integer; truth values are none. -/
def int? (f : Field) : Except Fault (Option Int) :=
  match f.value with
  | .null => .ok none
  | .int n => .ok (some n)
  | _ => f.refuse .int none

def bool? (f : Field) : Except Fault (Option Bool) :=
  match f.value with
  | .null => .ok none
  | .bool b => .ok (some b)
  | _ => f.refuse .bool none

def object? (f : Field) : Except Fault (Option Members) :=
  match f.value with
  | .null => .ok none
  | .object members => .ok (some members)
  | _ => f.refuse .object none

def array (f : Field) : Except Fault (List Field) :=
  match f.value with
  | .null => .ok []
  | .array items =>
      .ok (items.mapIdx fun i j => ⟨f.path ++ "[" ++ toString i ++ "]", j⟩)
  | _ => f.refuse .array none

def octets? (f : Field) : Except Fault (Option (List UInt8)) :=
  f.ofString? fun s =>
    if s.toList.any fun c => 128 ≤ c.toNat then f.refuse .binary (some .notAscii)
    else
      match Base64.decode s.toList with
      | .ok bs => .ok bs
      | .error d => f.refuse .binary (some (.base64 d))

/-- A state; names that are not known are the state `unknown`. -/
def status (f : Field) (default : Status) : Except Fault Status := do
  return ((← f.string?).map Status.parse).getD default

/-- The item at a place of an array; places before the first count from the end. -/
def item (f : Field) (place : Int) : Except Fault Field := do
  itemAt (← f.array) place

def member (f : Field) (name : String) : Except Fault Field := do
  match ← f.object? with
  | some ms => return Members.field ms name
  | none => throw (.lacking (.object Json.null.kindName "get"))

def identifier? (f : Field) : Except Fault (Option Identifier) := do
  match ← f.object? with
  | none => return none
  | some members =>
      match Identifier.ofJson (.object members) with
      | .ok i => return some i
      | .error (.decoding d) => f.refuse .identifier (some (.decoding d))
      | .error e => throw e

/-- A problem document with the URL that its references are relative to. -/
def problem? (f : Field) (baseUrl : Option String) : Except Fault (Option Problem) := do
  return (← f.object?).map (⟨·, baseUrl⟩)

end Field

end AcmeClient
