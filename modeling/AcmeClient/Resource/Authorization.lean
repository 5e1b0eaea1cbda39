import AcmeClient.Resource.Challenge

/-!
# Authorizations

An authorization is for one identifier, and the server offers challenges for it.

* **`Resource.authorizedIdentifier`**, **`expires`** and **`isWildcard`** are read from the
  document.
* **`Resource.challenges`** are the challenges, each of the variant for its type;
  **`Resource.findChallenge`** is the first of a type.
* **`Loading.deactivate`** gives up an authorization or an account.
-/

namespace AcmeClient

open Calendar

namespace Resource

def authorizedIdentifier (r : Resource) : Except Fault (Option Identifier) :=
  (r.field "identifier").identifier?

def expires (r : Resource) : Except Fault (Option Instant) :=
  (r.field "expires").instant?

/-- Whether the authorization is for all hosts of a domain. -/
def isWildcard (r : Resource) : Except Fault Bool := do
  return (← (r.field "wildcard").bool?).getD false

def challengeOf (registry : Registry) (f : Field) : Except Fault Resource := do
  let ms := (← (← f.required).object?).getD []
  let _ ← (Members.field ms "type").required
  fromDocument (.challenge .plain) registry ms

/-- The challenges that the server offers. -/
def challenges (r : Resource) (registry : Registry) : Except Fault (List Resource) := do
  (← (r.field "challenges").array).mapM (challengeOf registry)

/-- The first of some challenges that has a type, or that has none. -/
def firstOfType (typ : Option String) : List Resource → Except Fault (Option Resource)
  | [] => .ok none
  | c :: rest => do
      if (← c.challengeType) = typ then return some c else firstOfType typ rest

/-- The first challenge of a type. -/
def findChallenge (r : Resource) (registry : Registry) (typ : Option String) :
    Except Fault (Option Resource) := do
  firstOfType typ (← r.challenges registry)

end Resource

namespace Loading

/-- The claims that give up a resource. -/
def deactivation : Except ValueDefect DraftBook :=
  DraftBook.empty.put 0 "status" (.constant (.status .deactivated))

/-- Gives up the resource. -/
def deactivate : Loading Unit := do
  let b ← deactivation.mapError Fault.ofValue
  postHere (.draft b) [200]

end Loading

end AcmeClient
