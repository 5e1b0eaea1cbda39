import AcmeClient.Fault.Basic
import AcmeClient.Text.Blank
import AcmeClient.Text.Digit
import AcmeClient.Text.Word

/-!
# Servers that cannot be reached

The transport explains at length why it could not reach a server. The explanation names the host in
quotes, after the number of attempts the path, and in the end the number of the error with a reason.
What is last in a line counts.

* **`Unreachable.fault`** is the fault for an explanation: with host, path and reason where it has
  this form, and as it is where it has not.
-/

namespace AcmeClient.Unreachable

open Text

/-- What follows a word, for each place of it in the first line, the last place first. -/
def afterWord (word : List Char) : List Char → List (List Char)
  | [] => []
  | c :: cs =>
      (if c = '\n' then [] else afterWord word cs)
        ++ (if word.isPrefixOf (c :: cs) then [(c :: cs).drop word.length] else [])

/-- What stands before a quote and what follows it, for each quote before a blank, the last quote
first. -/
def beforeQuote : List Char → List (List Char × List Char)
  | [] => []
  | c :: cs =>
      if isBlank c then []
      else
        (beforeQuote cs).map (fun p => (c :: p.1, p.2)) ++ (if c = '\'' then [([], cs)] else [])

/-- The reason after the number of an error. -/
def reason? (cs : List Char) : Option (List Char) :=
  let isNumber (c : Char) : Bool := (digitValue c).isSome
  if (cs.takeWhile isNumber).isEmpty then none
  else
    match cs.dropWhile isNumber with
    | ']' :: rest => some (rest.takeWhile fun c => c.isAlpha || c = ' ')
    | _ => none

def pathAndReason? (cs : List Char) : Option (List Char × List Char) :=
  match cs with
  | '/' :: rest =>
      ((afterWord "[Errno ".toList (rest.dropWhile isWord)).findSome? reason?).map
        fun r => ('/' :: rest.takeWhile isWord, r)
  | _ => none

/-- Host, path and reason of an explanation. -/
def parts? (text : String) : Option (String × String × String) :=
  (afterWord "host='".toList text.toList).findSome? fun rest =>
    (beforeQuote rest).findSome? fun (host, rest) =>
      (afterWord "Max retries exceeded with url: ".toList rest).findSome? fun rest =>
        (pathAndReason? rest).map fun (path, reason) =>
          (String.ofList host, String.ofList path, String.ofList reason)

def fault (text : String) : Fault :=
  match parts? text with
  | some (host, path, reason) => .argument (.unreachable host path reason)
  | none => .transport text

end AcmeClient.Unreachable
