import AcmeClient.Fault.Basic
import AcmeClient.Text.Digit

/-!
# Reasons for revocation

* **`RevocationReason`** is a reason, with its number and its name.
* **`RevocationReason.ofCode`** finds the reason of a number.
* **`RevocationReason.ofGiven`** takes also what reads as a number.
-/

namespace AcmeClient

open Number

/-- Why a certificate is revoked. -/
inductive RevocationReason where
  | unspecified : RevocationReason
  | keyCompromise : RevocationReason
  | caCompromise : RevocationReason
  | affiliationChanged : RevocationReason
  | superseded : RevocationReason
  | cessationOfOperation : RevocationReason
  | certificateHold : RevocationReason
  | removeFromCrl : RevocationReason
  | privilegeWithdrawn : RevocationReason
  | aaCompromise : RevocationReason
  deriving DecidableEq, Repr

namespace RevocationReason

def all : List RevocationReason :=
  [.unspecified, .keyCompromise, .caCompromise, .affiliationChanged, .superseded,
    .cessationOfOperation, .certificateHold, .removeFromCrl, .privilegeWithdrawn, .aaCompromise]

def code : RevocationReason → Nat
  | .unspecified => 0
  | .keyCompromise => 1
  | .caCompromise => 2
  | .affiliationChanged => 3
  | .superseded => 4
  | .cessationOfOperation => 5
  | .certificateHold => 6
  | .removeFromCrl => 8
  | .privilegeWithdrawn => 9
  | .aaCompromise => 10

def name : RevocationReason → String
  | .unspecified => "UNSPECIFIED"
  | .keyCompromise => "KEY_COMPROMISE"
  | .caCompromise => "CA_COMPROMISE"
  | .affiliationChanged => "AFFILIATION_CHANGED"
  | .superseded => "SUPERSEDED"
  | .cessationOfOperation => "CESSATION_OF_OPERATION"
  | .certificateHold => "CERTIFICATE_HOLD"
  | .removeFromCrl => "REMOVE_FROM_CRL"
  | .privilegeWithdrawn => "PRIVILEGE_WITHDRAWN"
  | .aaCompromise => "AA_COMPROMISE"

def wholeNumber? : Json → Option Int
  | .bool b => some (if b then 1 else 0)
  | .int n => some n
  | .float x => x.toInt?
  | _ => none

def ofCode (j : Json) : Except Fault RevocationReason :=
  match (wholeNumber? j).bind fun n => all.find? fun r => n = r.code with
  | some r => .ok r
  | none => .error (.argument (.revocationReason j))

/-- The whole part of a number. -/
def truncate (x : Binary64) : Except Fault Int :=
  match x with
  | .finite negative units =>
      let n : Int := (units / Nat.pow 2 1074 : Nat)
      .ok (if negative then -n else n)
  | .infinite _ => .error .unbounded
  | .nan => .error (.argument .notANumber)

/-- The number that a given value reads as. -/
def toNumber (j : Json) : Except Fault Int :=
  match j with
  | .bool b => .ok (if b then 1 else 0)
  | .int n => .ok n
  | .float x => truncate x
  | .string s =>
      match Text.readInt? s with
      | some n => .ok n
      | none => .error (.argument (.notInteger s))
  | other => .error (.kind (.notNumber other.kindName))

def ofGiven (j : Json) : Except Fault RevocationReason := do
  ofCode (.int (← toNumber j))

end RevocationReason

end AcmeClient
