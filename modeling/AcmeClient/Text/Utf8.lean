import AcmeClient.Number.Numeral

/-!
# UTF-8

* **`encode`** writes a text as octets.
* **`decode`** reads octets; a text that is not well formed is refused with the place and the
  nature of the first defect.
* **`Defect`** is a stretch of octets that a decoder of any encoding refuses, with its wording.
-/

namespace AcmeClient.Text

/-- Octets that do not spell a text: the encoding tried, the octets at fault and their place. -/
structure Defect where
  encoding : String
  octets : List UInt8
  start : Nat
  reason : String
  deriving DecidableEq, Repr

namespace Defect

/-- One octet is shown with its value, several only with their place. -/
def message (d : Defect) : String :=
  let codec := "'" ++ d.encoding ++ "' codec can't decode "
  let place :=
    match d.octets with
    | [b] =>
        "byte 0x" ++ String.ofList (hexOfWidth 2 b.toNat) ++ " in position " ++ toString d.start
    | bs => "bytes in position " ++ toString d.start ++ "-" ++ toString (d.start + bs.length - 1)
  codec ++ place ++ ": " ++ d.reason

end Defect

namespace Utf8

/-- A continuation octet with the six low bits of `n`. -/
def continuation (n : Nat) : UInt8 :=
  UInt8.ofNat (0x80 + n % 64)

/-- The one to four octets of a character. -/
def encodeChar (c : Char) : List UInt8 :=
  let n := c.toNat
  if n < 0x80 then [UInt8.ofNat n]
  else if n < 0x800 then [UInt8.ofNat (0xc0 + n / 64), continuation n]
  else if n < 0x10000 then
    [UInt8.ofNat (0xe0 + n / 4096), continuation (n / 64), continuation n]
  else
    [UInt8.ofNat (0xf0 + n / 262144), continuation (n / 4096), continuation (n / 64),
      continuation n]

def encode (s : String) : List UInt8 :=
  s.toList.flatMap encodeChar

/-- What the first octet of a longer form promises: how many octets follow it, and the bounds of
the second one, which keep out overlong forms, surrogates and numbers above the last character. -/
structure Lead where
  following : Nat
  least : Nat
  greatest : Nat
  bits : Nat

/-- The promise of an octet that is not ASCII; `none` when no longer form starts with it. -/
def lead? (b : UInt8) : Option Lead :=
  let n := b.toNat
  if n < 0xc2 then none
  else if n < 0xe0 then some ⟨1, 0x80, 0xbf, n - 0xc0⟩
  else if n = 0xe0 then some ⟨2, 0xa0, 0xbf, 0⟩
  else if n = 0xed then some ⟨2, 0x80, 0x9f, 0xd⟩
  else if n < 0xf0 then some ⟨2, 0x80, 0xbf, n - 0xe0⟩
  else if n = 0xf0 then some ⟨3, 0x90, 0xbf, 0⟩
  else if n < 0xf4 then some ⟨3, 0x80, 0xbf, n - 0xf0⟩
  else if n = 0xf4 then some ⟨3, 0x80, 0x8f, 4⟩
  else none

/-- The six low bits of a continuation octet; `none` for any other octet. -/
def continued? (b : UInt8) : Option Nat :=
  if 0x80 ≤ b.toNat ∧ b.toNat ≤ 0xbf then some (b.toNat - 0x80) else none

/-- Reads octets that stand at the place `pos` of the whole. -/
def decodeFrom (pos : Nat) : List UInt8 → Except Defect (List Char)
  | [] => .ok []
  | b0 :: r0 =>
      let refuse (octets : List UInt8) (reason : String) : Except Defect (List Char) :=
        .error ⟨"utf-8", octets, pos, reason⟩
      let ended := "unexpected end of data"
      let stray := "invalid continuation byte"
      if b0.toNat < 0x80 then
        (decodeFrom (pos + 1) r0).map (Char.ofNat b0.toNat :: ·)
      else
        match lead? b0 with
        | none => refuse [b0] "invalid start byte"
        | some lead =>
            match r0 with
            | [] => refuse [b0] ended
            | b1 :: r1 =>
                if b1.toNat < lead.least ∨ lead.greatest < b1.toNat then refuse [b0] stray
                else
                  let n1 := lead.bits * 64 + (b1.toNat - 0x80)
                  if lead.following = 1 then (decodeFrom (pos + 2) r1).map (Char.ofNat n1 :: ·)
                  else
                    match r1 with
                    | [] => refuse [b0, b1] ended
                    | b2 :: r2 =>
                        match continued? b2 with
                        | none => refuse [b0, b1] stray
                        | some m2 =>
                            let n2 := n1 * 64 + m2
                            if lead.following = 2 then
                              (decodeFrom (pos + 3) r2).map (Char.ofNat n2 :: ·)
                            else
                              match r2 with
                              | [] => refuse [b0, b1, b2] ended
                              | b3 :: r3 =>
                                  match continued? b3 with
                                  | none => refuse [b0, b1, b2] stray
                                  | some m3 =>
                                      (decodeFrom (pos + 4) r3).map
                                        (Char.ofNat (n2 * 64 + m3) :: ·)

/-- The text that octets spell, or the first defect. -/
def decode (bs : List UInt8) : Except Defect String :=
  (decodeFrom 0 bs).map String.ofList

end Utf8

end AcmeClient.Text
