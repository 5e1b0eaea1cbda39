import AcmeClient.Fault.Basic
import AcmeClient.IpAddress

/-!
# Identifiers

An order is for identifiers: names of hosts and addresses.

* **`Identifier`** is a kind with a value, as a rule a text.
* **`Identifier.ofJson`** decodes one; members that it does not know are passed over.
* **`Identifier.ofValue`** takes a value for an address when it spells one, and for the name of a
  host otherwise.
* **`decodeConstant`** decodes a constant of a set, and **`addressOf`** an address.
-/

namespace AcmeClient

def contained {α : Type} (r : Except ContainerDefect α) : Except Fault α :=
  r.mapError .container

def addressOf (text : String) : Except Fault IpAddress :=
  match IpAddress.parse? text with
  | some a => .ok a
  | none => .error (.argument (.notAddress text))

def decodeConstant (set : ConstantSet) (j : Json) : Except Fault Constant :=
  match j.hashDefect? with
  | some d => .error (.container d)
  | none =>
      match j.string?.bind (Constant.ofName? set) with
      | some c => .ok c
      | none => .error (.decoding (.constant set))

/-- The state with a JSON name, `unknown` when there is none. -/
def decodeStatus (j : Json) : Except Fault Status :=
  match j.hashDefect? with
  | some d => .error (.container d)
  | none => .ok ((j.string?.bind Status.ofName?).getD .unknown)

/-- Decodes a member under its name; a value that cannot be decoded is shown with the name. -/
def decodeMember {α : Type} (name : String) (value : Json) (decode : Json → Except Fault α) :
    Except Fault α :=
  match decode value with
  | .error (.decoding d) => .error (.decoding (.member name value d))
  | r => r

/-- The names, in their order, that a value lacks. -/
def lackingNames (j : Json) : List String → Except Fault (List String)
  | [] => .ok []
  | n :: rest => do
      let there ← contained (j.holds n)
      let others ← lackingNames j rest
      return if there then others else n :: others

structure Identifier where
  kind : IdentifierKind
  value : Value
  deriving Repr

namespace Identifier

def dns (host : Value) : Identifier := ⟨.dns, host⟩

def ip (address : String) : Identifier := ⟨.ip, .string address⟩

def toValue (i : Identifier) : Value :=
  .identifier i.kind i.value

def toJson (i : Identifier) : Except ValueDefect Json :=
  i.toValue.serialize.toJson

def decodeKind (j : Json) : Except Fault IdentifierKind := do
  match ← decodeConstant .identifierKind j with
  | .identifierKind k => return k
  | _ => throw (.decoding (.constant .identifierKind))

def ofJson (j : Json) : Except Fault Identifier := do
  let lacking ← lackingNames j ["type", "value"]
  if lacking ≠ [] then throw (.decoding (.required lacking))
  let typ ← contained (j.under "type")
  let kind ← decodeMember "typ" typ decodeKind
  let value ← contained (j.under "value")
  return ⟨kind, .ofJson value⟩

def address? : Value → Option IpAddress
  | .string s => IpAddress.parse? s
  | .int n => IpAddress.ofInt? n
  | .bool b => IpAddress.ofInt? (if b then 1 else 0)
  | .octets bs => IpAddress.ofOctets? bs
  | _ => none

def ofValue : Value → Identifier
  | .identifier kind value => ⟨kind, value⟩
  | v =>
      match address? v with
      | some a => .ip a.text
      | none => .dns v

end Identifier

end AcmeClient
