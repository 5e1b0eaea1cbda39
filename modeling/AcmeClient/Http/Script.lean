import AcmeClient.Http.Exchange

/-!
# Servers that follow a script

A script lists answers for methods and URLs. Each method and URL has its answers in the order of the
script; a request takes the next one, and the last one stays.

* **`Script`** is such a list; **`Script.answerTo`** is the answer to a request after some others.
* **`ScriptedNonce`** says which nonce an answer brings; a counted one is new each time.
* **`Script.server`** is the server that follows a script.
-/

namespace AcmeClient

/-- The nonce that comes with an answer: a new one, none, or a given text. -/
inductive ScriptedNonce where
  | counted : ScriptedNonce
  | absent : ScriptedNonce
  | given (text : String) : ScriptedNonce
  deriving DecidableEq, Repr

/-- An answer in a script: the transport fails, or a response comes with a nonce. -/
inductive ScriptedAnswer where
  | failure (text : String) : ScriptedAnswer
  | response (r : Response) (nonce : ScriptedNonce) : ScriptedAnswer
  deriving Repr

structure ScriptLine where
  method : String
  url : String
  answer : ScriptedAnswer
  deriving Repr

structure Script where
  lines : List ScriptLine
  deriving Repr

namespace Script

/-- Whether two requests go to the same place. -/
def sameTarget (r s : Request) : Bool :=
  r.method = s.method && r.url == s.url

def answers (s : Script) (r : Request) : List ScriptedAnswer :=
  (s.lines.filter fun l => l.method == r.method.name && l.url == r.url).map ScriptLine.answer

def answerTo (s : Script) (earlier : List Request) (r : Request) : Option ScriptedAnswer :=
  let queue := s.answers r
  queue[min (earlier.countP (sameTarget r)) (queue.length - 1)]?

/-- Whether an answer brings a counted nonce. -/
def isCounted : Option ScriptedAnswer → Bool
  | some (.response _ .counted) => true
  | _ => false

/-- The number of counted nonces in the answers to requests that come after others. -/
def countedNonces (s : Script) (earlier : List Request) : List Request → Nat
  | [] => 0
  | r :: rest =>
      (if isCounted (s.answerTo earlier r) then 1 else 0) + s.countedNonces (r :: earlier) rest

def countedNonce (n : Nat) : String :=
  Base64.encode (Text.Utf8.encode ("nonce-" ++ Number.padded 3 n))

def nonceHeader : String := "Replay-Nonce"

/-- A response with its nonce, the number of earlier counted nonces being known. -/
def withNonce (count : Nat) (r : Response) : ScriptedNonce → Response
  | .absent => r
  | .given text => { r with headers := r.headers.put nonceHeader text }
  | .counted => { r with headers := r.headers.put nonceHeader (countedNonce count) }

def unanswered (r : Request) : Reply :=
  .failure ("no route: " ++ r.method.name ++ " " ++ r.url)

def replyTo (s : Script) (earlier : List Request) (r : Request) : Reply :=
  match s.answerTo earlier r with
  | none => unanswered r
  | some (.failure text) => .failure text
  | some (.response response nonce) =>
      .response (withNonce (s.countedNonces [] earlier) response nonce)

def server (s : Script) : Server := fun sent =>
  match sent.getLast? with
  | none => .failure ""
  | some r => s.replyTo sent.dropLast r

end Script

end AcmeClient
