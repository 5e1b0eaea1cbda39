import AcmeClient.Fault.Basic
import AcmeClient.Text.Digit

/-!
# Headers

The name of a header may be written in capital and small letters alike. A name that is put again
keeps its first place and takes the last spelling and value.

* **`Headers`** are the headers of an answer: **`get?`**, **`put`**, **`ofList`**.
* **`RetryAfter.parse`** reads when to come back, a number of seconds or a date, given the present
  instant. A number of seconds may lead out of the calendar.
-/

namespace AcmeClient

/-- Headers in the order in which they came. -/
structure Headers where
  fields : List (String × String)
  deriving DecidableEq, Repr

namespace Headers

def sameName (a b : String) : Bool :=
  a.toLower == b.toLower

def write (name value : String) : List (String × String) → List (String × String)
  | [] => [(name, value)]
  | (n, v) :: rest =>
      if sameName n name then (name, value) :: rest else (n, v) :: write name value rest

def put (h : Headers) (name value : String) : Headers :=
  ⟨write name value h.fields⟩

/-- The headers that result from putting pairs one after the other. -/
def ofList (ps : List (String × String)) : Headers :=
  ps.foldl (fun h p => h.put p.1 p.2) ⟨[]⟩

def get? (h : Headers) (name : String) : Option String :=
  (h.fields.find? fun p => sameName p.1 name).map Prod.snd

end Headers

namespace RetryAfter

open Calendar Text

def refuse (value : String) (reason : Option HttpDate.Defect) : Except Fault Instant :=
  .error (.protocol (.retryAfter value reason))

def ofDate (value : String) : Except Fault Instant :=
  match HttpDate.fields? value with
  | none => refuse value none
  | some fields =>
      match fields.toInstant with
      | .ok t => .ok t
      | .error d => refuse value (some d)

def parse (value : String) (now : Instant) : Except Fault Instant :=
  let value := strip value
  match readInt? value with
  | none => ofDate value
  | some seconds =>
      if seconds < 0 then refuse value none
      else (now.later seconds).mapError .outOfRange

end RetryAfter

end AcmeClient
