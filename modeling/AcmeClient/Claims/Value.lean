import AcmeClient.Calendar.Instant
import AcmeClient.Constant
import AcmeClient.Json.Printer

/-!
# Values of claims

A claim is given as a value of the program: besides what JSON knows, octets, instants, constants,
identifiers, documents that were read, and drafts. It is converted when it is put into a draft:
instants become timestamps in coordinated time, everything that has a JSON form takes it, and
octets stay as they are until they fail to be written.

* **`Value`** is a given value; **`Value.kindName`** names its kind.
* **`Value.convert`** is the conversion, **`Value.serialize`** the JSON form inside an identifier.
* **`Value.toJson`** is the written form of a converted value.
* **`Value.elements`** are the items that a value yields one by one.
-/

namespace AcmeClient

open Calendar

inductive Value where
  | null : Value
  | bool (b : Bool) : Value
  | int (n : Int) : Value
  | float (x : Number.Binary64) : Value
  | string (s : String) : Value
  | octets (bs : List UInt8) : Value
  | instant (t : Instant) : Value
  | constant (c : Constant) : Value
  | identifier (kind : IdentifierKind) (value : Value) : Value
  | document (members : List (String × Json)) : Value
  | draft (members : List (String × Value)) : Value
  | list (items : List Value) : Value
  | tuple (items : List Value) : Value
  | record (members : List (String × Value)) : Value
  deriving Inhabited, Repr

inductive ValueDefect where
  | noOffset (t : Instant) : ValueDefect
  | outOfRange (d : RangeDefect) : ValueDefect
  | unwritable (kind : String) : ValueDefect
  | notIterable (kind : String) : ValueDefect
  deriving DecidableEq, Repr

def ValueDefect.message : ValueDefect → String
  | .noOffset t => "Naive datetime cannot be encoded: " ++ t.literal
  | .outOfRange d => d.message
  | .unwritable kind => "Object of type " ++ kind ++ " is not JSON serializable"
  | .notIterable kind => "'" ++ kind ++ "' object is not iterable"

namespace Value

mutual

def ofJson : Json → Value
  | .null => .null
  | .bool b => .bool b
  | .int n => .int n
  | .float x => .float x
  | .string s => .string s
  | .array items => .list (ofItems items)
  | .object members => .record (ofMembers members)

def ofItems : List Json → List Value
  | [] => []
  | j :: rest => ofJson j :: ofItems rest

def ofMembers : List (String × Json) → List (String × Value)
  | [] => []
  | (n, j) :: rest => (n, ofJson j) :: ofMembers rest

end

def kindName : Value → String
  | .null => "NoneType"
  | .bool _ => "bool"
  | .int _ => "int"
  | .float _ => "float"
  | .string _ => "str"
  | .octets _ => "bytes"
  | .instant _ => "datetime"
  | .constant c => c.set.name
  | .identifier .. => "Identifier"
  | .document _ => "JSON"
  | .draft _ => "JSONBuilder"
  | .list _ => "list"
  | .tuple _ => "tuple"
  | .record _ => "dict"

def ofOctets (bs : List UInt8) : List Value :=
  bs.map fun b => .int b.toNat

mutual

/-- The JSON form of a value inside an identifier. Octets are the list of their numbers; instants,
documents and drafts have no JSON form there and stay. -/
def serialize : Value → Value
  | .octets bs => .list (ofOctets bs)
  | .constant c => .string c.name
  | .identifier kind value =>
      .record [("type", .string kind.name), ("value", serialize value)]
  | .list items => .list (serializeItems items)
  | .tuple items => .list (serializeItems items)
  | .record members => .record (serializeMembers members)
  | other => other

def serializeItems : List Value → List Value
  | [] => []
  | v :: rest => serialize v :: serializeItems rest

def serializeMembers : List (String × Value) → List (String × Value)
  | [] => []
  | (n, v) :: rest => (n, serialize v) :: serializeMembers rest

end

def stamp (t : Instant) : Except ValueDefect Value :=
  if t.offset.isNone then .error (.noOffset t)
  else
    match t.stamp? with
    | some s => .ok (.string s)
    | none => .error (.outOfRange .calendar)

mutual

def convert : Value → Except ValueDefect Value
  | .draft members => .ok (.record members)
  | .document members => .ok (.record (ofMembers members))
  | .instant t => stamp t
  | .constant c => .ok (.string c.name)
  | .identifier kind value => .ok (serialize (.identifier kind value))
  | .list items => (convertItems items).map .list
  | .tuple items => (convertItems items).map .list
  | .record members => (convertMembers members).map .record
  | other => .ok other

def convertItems : List Value → Except ValueDefect (List Value)
  | [] => .ok []
  | v :: rest => do
      let v ← convert v
      let rest ← convertItems rest
      return v :: rest

def convertMembers : List (String × Value) → Except ValueDefect (List (String × Value))
  | [] => .ok []
  | (n, v) :: rest => do
      let v ← convert v
      let rest ← convertMembers rest
      return (n, v) :: rest

end

/-- The first refusal of results in the order of their names, or the members in document order. -/
def settle (results : List (String × Except ValueDefect Json)) : Except ValueDefect Members :=
  let byName := results.mergeSort fun a b => decide (a.1 ≤ b.1)
  match byName.findSome? fun p => match p.2 with
    | .error e => some e
    | .ok _ => none with
  | some e => .error e
  | none => .ok (results.filterMap fun p => p.2.toOption.map (p.1, ·))

mutual

def toJson : Value → Except ValueDefect Json
  | .null => .ok .null
  | .bool b => .ok (.bool b)
  | .int n => .ok (.int n)
  | .float x => .ok (.float x)
  | .string s => .ok (.string s)
  | .list items => (toItems items).map .array
  | .tuple items => (toItems items).map .array
  | .record members => (settle (toResults members)).map .object
  | other => .error (.unwritable other.kindName)

def toItems : List Value → Except ValueDefect (List Json)
  | [] => .ok []
  | v :: rest => do
      let j ← toJson v
      let js ← toItems rest
      return j :: js

/-- The written form of each member. -/
def toResults : List (String × Value) → List (String × Except ValueDefect Json)
  | [] => []
  | (n, v) :: rest => (n, toJson v) :: toResults rest

end

/-- The items that a value yields one by one: the items of a list, the characters of a text, the
numbers of octets, the names of members. -/
def elements : Value → Except ValueDefect (List Value)
  | .list items => .ok items
  | .tuple items => .ok items
  | .string s => .ok (s.toList.map fun c => .string (String.ofList [c]))
  | .octets bs => .ok (ofOctets bs)
  | .identifier .. => .ok [.string "typ", .string "value"]
  | .document members => .ok (members.map fun p => .string p.1)
  | .record members => .ok (members.map fun p => .string p.1)
  | .instant _ => .error (.notIterable "datetime.datetime")
  | other => .error (.notIterable other.kindName)

end Value

end AcmeClient
