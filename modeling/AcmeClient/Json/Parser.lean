import AcmeClient.Json.Basic
import AcmeClient.Number.Numeral

/-!
# Reading JSON

The reader takes a value off the front of the characters and gives the rest. Besides the grammar of
JSON it knows the names `NaN`, `Infinity` and `-Infinity`. A number is the longest front that
follows the grammar, and what cannot extend it is left over. A refusal says what was expected and
how many characters were left there.

* **`Json.parse`** reads a whole text.
* **`SyntaxError`** is a refusal with its place; **`SyntaxError.message`** words it.
-/

namespace AcmeClient

open Number Text

namespace Json

/-- What a reader can find wrong. -/
inductive Expectation where
  | value : Expectation
  | name : Expectation
  | colon : Expectation
  | comma : Expectation
  | theEnd : Expectation
  | closingQuote : Expectation
  | noControl : Expectation
  | knownEscape : Expectation
  | fourDigits : Expectation
  | noByteOrderMark : Expectation
  | fewerDigits (count : Nat) : Expectation
  deriving DecidableEq, Repr

/-- A refusal and the number of characters from its place to the end. -/
structure Refusal where
  expected : Expectation
  left : Nat
  deriving DecidableEq, Repr

/-- The four kinds of blanks between tokens. -/
def isSpace (c : Char) : Bool :=
  c = ' ' || c = '\t' || c = '\n' || c = '\r'

/-- The characters from the next token on. -/
def skip (cs : List Char) : List Char :=
  cs.dropWhile isSpace

/-- The character of an escape of one letter. -/
def escaped? (c : Char) : Option Char :=
  if c = '"' ∨ c = '\\' ∨ c = '/' then some c
  else if c = 'b' then some '\x08'
  else if c = 'f' then some '\x0c'
  else if c = 'n' then some '\n'
  else if c = 'r' then some '\r'
  else if c = 't' then some '\t'
  else none

def fourHex? (a b c d : Char) : Option Nat := do
  let w ← hexValue a
  let x ← hexValue b
  let y ← hexValue c
  let z ← hexValue d
  return ((w * 16 + x) * 16 + y) * 16 + z

/-- The code units of a text up to its closing quote, and what follows it. An escape of four digits
must be followed by a further character. `opening` counts the characters from the opening quote. -/
def scanString (opening : Nat) : List Char → Except Refusal (List Nat × List Char)
  | [] => .error ⟨.closingQuote, opening⟩
  | ['\\'] => .error ⟨.closingQuote, opening⟩
  | '\\' :: 'u' :: rest =>
      match rest with
      | a :: b :: c :: d :: tail =>
          if tail = [] then .error ⟨.fourDigits, rest.length + 1⟩
          else
            match fourHex? a b c d with
            | some u => (scanString opening tail).map fun r => (u :: r.1, r.2)
            | none => .error ⟨.fourDigits, rest.length + 1⟩
      | _ => .error ⟨.fourDigits, rest.length + 1⟩
  | '\\' :: e :: rest =>
      match escaped? e with
      | some c => (scanString opening rest).map fun r => (c.toNat :: r.1, r.2)
      | none => .error ⟨.knownEscape, rest.length + 2⟩
  | c :: rest =>
      if c = '"' then .ok ([], rest)
      else if c.toNat < 32 then .error ⟨.noControl, rest.length + 1⟩
      else (scanString opening rest).map fun r => (c.toNat :: r.1, r.2)

/-- The characters of code units: a high and a low surrogate make one character, and a surrogate on
its own becomes the replacement character. -/
def joinUnits : List Nat → List Char
  | [] => []
  | [u] => [if 0xd800 ≤ u ∧ u < 0xe000 then '\uFFFD' else Char.ofNat u]
  | u :: v :: rest =>
      if 0xd800 ≤ u ∧ u < 0xdc00 ∧ 0xdc00 ≤ v ∧ v < 0xe000 then
        Char.ofNat (0x10000 + (u - 0xd800) * 1024 + (v - 0xdc00)) :: joinUnits rest
      else
        (if 0xd800 ≤ u ∧ u < 0xe000 then '\uFFFD' else Char.ofNat u) :: joinUnits (v :: rest)

/-- A text after its opening quote. -/
def readString (cs : List Char) : Except Refusal (String × List Char) :=
  (scanString (cs.length + 1) cs).map fun r => (String.ofList (joinUnits r.1), r.2)

/-- An integer may have at most this many digits. -/
def digitLimit : Nat := 4300

/-- The digits of the whole part: a zero alone or digits that start with another one. -/
def wholePart : List Char → Option (List Char × List Char)
  | [] => none
  | c :: rest =>
      if c = '0' then some ([c], rest)
      else if isDigit c then some (c :: rest.takeWhile isDigit, rest.dropWhile isDigit)
      else none

/-- The digits after a point; none when no digit follows it. -/
def fractionPart : List Char → List Char × List Char
  | '.' :: rest =>
      let ds := rest.takeWhile isDigit
      if ds = [] then ([], '.' :: rest) else (ds, rest.dropWhile isDigit)
  | cs => ([], cs)

/-- The exponent of a number, if its mark is followed by digits. -/
def exponentPart (cs : List Char) : Option (Int × List Char) :=
  match cs with
  | [] => none
  | c :: rest =>
      if c = 'e' ∨ c = 'E' then
        let (negative, digits) : Bool × List Char :=
          match rest with
          | '-' :: r => (true, r)
          | '+' :: r => (false, r)
          | r => (false, r)
        let ds := digits.takeWhile isDigit
        if ds = [] then none
        else
          let n : Int := ofDigits ds
          some (if negative then -n else n, digits.dropWhile isDigit)
      else none

def readNumber (negative : Bool) (left : Nat) (cs : List Char) :
    Except Refusal (Json × List Char) :=
  match wholePart cs with
  | none => .error ⟨.value, left⟩
  | some (whole, r1) =>
      let (fraction, r2) := fractionPart r1
      match exponentPart r2 with
      | some (e, r3) =>
          .ok (.float (Binary64.ofDecimal negative (ofDigits (whole ++ fraction))
            (e - fraction.length)), r3)
      | none =>
          if fraction ≠ [] then
            .ok (.float (Binary64.ofDecimal negative (ofDigits (whole ++ fraction))
              (-(fraction.length : Int))), r2)
          else if digitLimit < whole.length then .error ⟨.fewerDigits whole.length, left⟩
          else
            let n : Int := ofDigits whole
            .ok (.int (if negative then -n else n), r2)

/-- The rest after a word, if the characters start with it. -/
def word? (word cs : List Char) : Option (List Char) :=
  if word.isPrefixOf cs then some (cs.drop word.length) else none

def words : List (String × Json) :=
  [("null", .null), ("true", .bool true), ("false", .bool false), ("NaN", .float .nan),
    ("Infinity", .float (.infinite false)), ("-Infinity", .float (.infinite true))]

def readWord? (cs : List Char) : Option (Json × List Char) :=
  words.findSome? fun w => (word? w.1.toList cs).map fun rest => (w.2, rest)

mutual

/-- One value at the front. The fuel bounds the nesting and the number of items. -/
def readValue : Nat → List Char → Except Refusal (Json × List Char)
  | 0, cs => .error ⟨.value, cs.length⟩
  | fuel + 1, cs =>
      match readWord? cs with
      | some r => .ok r
      | none =>
          match cs with
          | [] => .error ⟨.value, 0⟩
          | c :: rest =>
              if c = '"' then (readString rest).map fun r => (.string r.1, r.2)
              else if c = '[' then
                match skip rest with
                | ']' :: r => .ok (.array [], r)
                | r => (readItems fuel r).map fun p => (.array p.1, p.2)
              else if c = '\x7b' then
                match skip rest with
                | '\x7d' :: r => .ok (.object [], r)
                | r => (readMembers fuel r).map fun p => (.object (Members.ofPairs p.1), p.2)
              else if c = '-' then readNumber true cs.length rest
              else readNumber false cs.length cs

def readItems : Nat → List Char → Except Refusal (List Json × List Char)
  | 0, cs => .error ⟨.value, cs.length⟩
  | fuel + 1, cs =>
      match readValue fuel cs with
      | .error e => .error e
      | .ok (v, r) =>
          match skip r with
          | ']' :: r => .ok ([v], r)
          | ',' :: r => (readItems fuel (skip r)).map fun p => (v :: p.1, p.2)
          | r => .error ⟨.comma, r.length⟩

def readMembers : Nat → List Char → Except Refusal (List (String × Json) × List Char)
  | 0, cs => .error ⟨.value, cs.length⟩
  | fuel + 1, cs =>
      match cs with
      | '"' :: rest =>
          match readString rest with
          | .error e => .error e
          | .ok (n, r) =>
              match skip r with
              | ':' :: r =>
                  match readValue fuel (skip r) with
                  | .error e => .error e
                  | .ok (v, r) =>
                      match skip r with
                      | '\x7d' :: r => .ok ([(n, v)], r)
                      | ',' :: r =>
                          (readMembers fuel (skip r)).map fun p => ((n, v) :: p.1, p.2)
                      | r => .error ⟨.comma, r.length⟩
              | r => .error ⟨.colon, r.length⟩
      | _ => .error ⟨.name, cs.length⟩

end

/-- A refusal with its place: characters before it, and its line and column, counted from one. -/
structure SyntaxError where
  expected : Expectation
  place : Nat
  line : Nat
  column : Nat
  deriving DecidableEq, Repr

namespace SyntaxError

def ofRefusal (cs : List Char) (r : Refusal) : SyntaxError :=
  let before := cs.take (cs.length - r.left)
  let lastLine := before.reverse.takeWhile (· ≠ '\n')
  ⟨r.expected, before.length, before.count '\n' + 1, lastLine.length + 1⟩

def message (e : SyntaxError) : String :=
  let place := ": line " ++ toString e.line ++ " column " ++ toString e.column
    ++ " (char " ++ toString e.place ++ ")"
  match e.expected with
  | .value => "Expecting value" ++ place
  | .name => "Expecting property name enclosed in double quotes" ++ place
  | .colon => "Expecting ':' delimiter" ++ place
  | .comma => "Expecting ',' delimiter" ++ place
  | .theEnd => "Extra data" ++ place
  | .closingQuote => "Unterminated string starting at" ++ place
  | .noControl => "Invalid control character at" ++ place
  | .knownEscape => "Invalid \\escape" ++ place
  | .fourDigits => "Invalid \\uXXXX escape" ++ place
  | .noByteOrderMark => "Unexpected UTF-8 BOM (decode using utf-8-sig)" ++ place
  | .fewerDigits count =>
      "Exceeds the limit (" ++ toString digitLimit ++ " digits) for integer string conversion: "
        ++ "value has " ++ toString count
        ++ " digits; use sys.set_int_max_str_digits() to increase the limit"

end SyntaxError

/-- One value with blanks around it and nothing else. -/
def readWhole (cs : List Char) : Except Refusal Json :=
  match readValue (2 * cs.length + 2) (skip cs) with
  | .error e => .error e
  | .ok (v, rest) =>
      match skip rest with
      | [] => .ok v
      | r => .error ⟨.theEnd, r.length⟩

def parse (s : String) : Except SyntaxError Json :=
  let cs := s.toList
  match readWhole cs with
  | .ok v => .ok v
  | .error r => .error (.ofRefusal cs r)

end Json

end AcmeClient
