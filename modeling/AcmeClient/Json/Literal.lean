import AcmeClient.Json.Basic
import AcmeClient.Number.Shortest
import AcmeClient.Text.Quoted

/-!
# JSON values in messages

Messages show a received value in a notation of their own: texts quoted, members in document order,
and `None`, `True` and `False` for the three words of JSON.

* **`Json.literal`** is the notation of a value.
* **`Json.shown`** is the same with a text on its own left as it is.
* **`Json.kindName`** names the kind of a value.
-/

namespace AcmeClient

open Number Text

namespace Json

mutual

/-- The notation of a value in messages. -/
def literal : Json → String
  | .null => "None"
  | .bool b => if b then "True" else "False"
  | .int n => integerText n
  | .float x => x.text
  | .string s => quoted s
  | .array items => "[" ++ ", ".intercalate (literalItems items) ++ "]"
  | .object members => "\x7b" ++ ", ".intercalate (literalMembers members) ++ "\x7d"

def literalItems : List Json → List String
  | [] => []
  | x :: xs => literal x :: literalItems xs

def literalMembers : List (String × Json) → List String
  | [] => []
  | (n, x) :: xs => (quoted n ++ ": " ++ literal x) :: literalMembers xs

end

/-- A text as it is, any other value in its notation. -/
def shown : Json → String
  | .string s => s
  | j => j.literal

def kindName : Json → String
  | .null => "NoneType"
  | .bool _ => "bool"
  | .int _ => "int"
  | .float _ => "float"
  | .string _ => "str"
  | .array _ => "list"
  | .object _ => "dict"

end Json

end AcmeClient
