import AcmeClient.Json.Parser
import AcmeClient.Json.Printer

/-!
# JSON strings read back

A string is written as the UTF-16 units of its characters, most of them escaped. The reader collects
the units and joins them again:

* `scanString_escapeChar` — the reader collects the units of one written character;
* `joinUnits_units` — the units of a text make the text;
* `readString_written` — reading a written string gives the string and what stands behind it.
-/

namespace AcmeClient.Json

open Text

/-- The UTF-16 units of a character. -/
def units (c : Char) : List Nat :=
  if c.toNat < 0x10000 then [c.toNat]
  else [0xd800 + (c.toNat - 0x10000) / 1024, 0xdc00 + (c.toNat - 0x10000) % 1024]

/-- No character is a surrogate. -/
theorem not_surrogate (c : Char) : ¬(0xd800 ≤ c.toNat ∧ c.toNat < 0xe000) := by
  have h : c.toNat < 0xd800 ∨ (0xdfff < c.toNat ∧ c.toNat < 0x110000) := c.valid
  omega

theorem toNat_lt (c : Char) : c.toNat < 0x110000 := by
  have h : c.toNat < 0xd800 ∨ (0xdfff < c.toNat ∧ c.toNat < 0x110000) := c.valid
  omega

/-! ### Collecting units -/

/-- The four digits of a unit spell it. -/
theorem fourHex?_hexOfWidth {u : Nat} (h : u < 0x10000) :
    ∃ a b c d, hexOfWidth 4 u = [a, b, c, d] ∧ fourHex? a b c d = some u := by
  refine ⟨_, _, _, _, rfl, ?_⟩
  have h0 := hexValue_hexDigit (u % 16) (by omega)
  have h1 := hexValue_hexDigit (u / 16 % 16) (by omega)
  have h2 := hexValue_hexDigit (u / 16 / 16 % 16) (by omega)
  have h3 := hexValue_hexDigit (u / 16 / 16 / 16 % 16) (by omega)
  have e : ((u / 16 / 16 / 16 % 16 * 16 + u / 16 / 16 % 16) * 16 + u / 16 % 16) * 16 + u % 16
      = u := by omega
  simp [fourHex?, h0, h1, h2, h3, e]

theorem scanString_unitEscape (opening : Nat) {u : Nat} (h : u < 0x10000) {tail : List Char}
    (ht : tail ≠ []) :
    scanString opening (unitEscape u ++ tail)
      = (scanString opening tail).map fun r => (u :: r.1, r.2) := by
  obtain ⟨a, b, c, d, hd, hv⟩ := fourHex?_hexOfWidth h
  rw [unitEscape, hd]
  show scanString opening ('\\' :: 'u' :: a :: b :: c :: d :: tail) = _
  simp only [scanString, if_neg ht, hv]

/-- A character that is neither a quote, a backslash nor a control stands for itself. -/
theorem scanString_plain (opening : Nat) {c : Char} (hq : c ≠ '"') (hb : c ≠ '\\')
    (hc : 32 ≤ c.toNat) (tail : List Char) :
    scanString opening (c :: tail)
      = (scanString opening tail).map fun r => (c.toNat :: r.1, r.2) := by
  have hlt : ¬c.toNat < 32 := by omega
  rw [scanString.eq_6 opening c tail (fun h _ => hb h) (fun _ h _ => hb h) (fun _ _ h _ => hb h),
    if_neg hq, if_neg hlt]

theorem scanString_letter (opening : Nat) {e c : Char} (hu : e ≠ 'u') (hv : escaped? e = some c)
    (tail : List Char) :
    scanString opening ('\\' :: e :: tail)
      = (scanString opening tail).map fun r => (c.toNat :: r.1, r.2) := by
  rw [scanString.eq_5 opening e tail hu, hv]

/-- A control character that has a letter is escaped with it. -/
theorem escapeChar_control {c : Char} {e : Char} {n : Nat} (hn : c.toNat = n)
    (h : escapeChar (Char.ofNat n) = ['\\', e]) : escapeChar c = ['\\', e] := by
  rw [← h, ← hn, Char.ofNat_toNat]

/-- A character of the basic plane is one unit. -/
theorem units_of_toNat {c : Char} {n : Nat} (hn : c.toNat = n) (hb : n < 0x10000) :
    units c = [n] := by
  rw [units, hn, if_pos hb]

/-- The reader collects the unit of a character that is escaped with a letter. -/
theorem scanString_escapeLetter (opening : Nat) {c : Char} {n : Nat} (e : Char) (hn : c.toNat = n)
    (hb : n < 0x10000) (hu : e ≠ 'u') (he : escapeChar (Char.ofNat n) = ['\\', e])
    (hv : escaped? e = some (Char.ofNat n)) (tail : List Char) :
    scanString opening (escapeChar c ++ tail)
      = (scanString opening tail).map fun r => (units c ++ r.1, r.2) := by
  rw [escapeChar_control hn he, units_of_toNat hn hb]
  show scanString opening ('\\' :: e :: tail) = _
  rw [scanString_letter opening hu hv, ← hn, Char.ofNat_toNat]
  rfl

/-- The reader collects both surrogates of a character above the basic plane. -/
theorem scanString_escapePair (opening : Nat) {c : Char} (hs : ¬c.toNat < 0x10000)
    {tail : List Char} (ht : tail ≠ []) :
    scanString opening (unitEscape (0xd800 + (c.toNat - 0x10000) / 1024)
        ++ unitEscape (0xdc00 + (c.toNat - 0x10000) % 1024) ++ tail)
      = (scanString opening tail).map fun r => (units c ++ r.1, r.2) := by
  have hlt := toNat_lt c
  rw [units, if_neg hs, List.append_assoc,
    scanString_unitEscape opening (by omega) (by simp [unitEscape]),
    scanString_unitEscape opening (by omega) ht]
  cases scanString opening tail with
  | error r => rfl
  | ok r => rfl

/-- The reader collects the units of one written character. -/
theorem scanString_escapeChar (opening : Nat) (c : Char) {tail : List Char} (ht : tail ≠ []) :
    scanString opening (escapeChar c ++ tail)
      = (scanString opening tail).map fun r => (units c ++ r.1, r.2) := by
  have letter := fun n e hn hb hu he hv =>
    scanString_escapeLetter opening (c := c) (n := n) e hn hb hu he hv tail
  by_cases hq : c = '"'
  · subst hq
    exact letter _ '"' rfl (by decide) (by decide) (by decide) (by decide)
  by_cases hb : c = '\\'
  · subst hb
    exact letter _ '\\' rfl (by decide) (by decide) (by decide) (by decide)
  by_cases hp : 32 ≤ c.toNat ∧ c.toNat < 127
  · have he : escapeChar c = [c] := by simp [escapeChar, hq, hb, hp]
    rw [he, units_of_toNat rfl (by omega)]
    exact scanString_plain opening hq hb hp.1 tail
  by_cases h10 : c.toNat = 10
  · exact letter _ 'n' h10 (by decide) (by decide) (by decide) (by decide)
  by_cases h13 : c.toNat = 13
  · exact letter _ 'r' h13 (by decide) (by decide) (by decide) (by decide)
  by_cases h9 : c.toNat = 9
  · exact letter _ 't' h9 (by decide) (by decide) (by decide) (by decide)
  by_cases h12 : c.toNat = 12
  · exact letter _ 'f' h12 (by decide) (by decide) (by decide) (by decide)
  by_cases h8 : c.toNat = 8
  · exact letter _ 'b' h8 (by decide) (by decide) (by decide) (by decide)
  by_cases hs : c.toNat < 0x10000
  · have he : escapeChar c = unitEscape c.toNat := by
      simp [escapeChar, hq, hb, hp, h10, h13, h9, h12, h8, hs]
    rw [he, units_of_toNat rfl hs]
    exact scanString_unitEscape opening hs ht
  · -- a character above the basic plane is written as two surrogates
    have he : escapeChar c = unitEscape (0xd800 + (c.toNat - 0x10000) / 1024)
        ++ unitEscape (0xdc00 + (c.toNat - 0x10000) % 1024) := by
      simp [escapeChar, hq, hb, hp, h10, h13, h9, h12, h8, hs]
    rw [he]
    exact scanString_escapePair opening hs ht

/-- The reader collects the units of a written text up to the closing quote. -/
theorem scanString_written (opening : Nat) (cs rest : List Char) :
    scanString opening (cs.flatMap escapeChar ++ '"' :: rest) = .ok (cs.flatMap units, rest) := by
  induction cs with
  | nil => simp [scanString]
  | cons c cs ih =>
    rw [List.flatMap_cons, List.append_assoc, scanString_escapeChar opening c (by simp), ih]
    rfl

/-! ### Joining units -/

/-- A unit that is no surrogate is a character on its own. -/
theorem joinUnits_single {c : Char} (us : List Nat) :
    joinUnits (c.toNat :: us) = c :: joinUnits us := by
  have hc := not_surrogate c
  cases us with
  | nil => simp only [joinUnits, if_neg hc, Char.ofNat_toNat]
  | cons v us =>
    have hh : ¬(0xd800 ≤ c.toNat ∧ c.toNat < 0xdc00 ∧ 0xdc00 ≤ v ∧ v < 0xe000) := by omega
    simp only [joinUnits, if_neg hc, if_neg hh, Char.ofNat_toNat]

/-- The units of a text make the text. -/
theorem joinUnits_units (cs : List Char) : joinUnits (cs.flatMap units) = cs := by
  induction cs with
  | nil => rfl
  | cons c cs ih =>
    rw [List.flatMap_cons, units]
    by_cases hs : c.toNat < 0x10000
    · rw [if_pos hs]
      show joinUnits (c.toNat :: cs.flatMap units) = c :: cs
      rw [joinUnits_single, ih]
    · rw [if_neg hs]
      have hlt := toNat_lt c
      have hpair : 0xd800 ≤ 0xd800 + (c.toNat - 0x10000) / 1024 ∧
          0xd800 + (c.toNat - 0x10000) / 1024 < 0xdc00 ∧
          0xdc00 ≤ 0xdc00 + (c.toNat - 0x10000) % 1024 ∧
          0xdc00 + (c.toNat - 0x10000) % 1024 < 0xe000 := by omega
      have hsum : 0x10000 + (0xd800 + (c.toNat - 0x10000) / 1024 - 0xd800) * 1024
          + (0xdc00 + (c.toNat - 0x10000) % 1024 - 0xdc00) = c.toNat := by omega
      simp only [List.cons_append, List.nil_append, joinUnits, if_pos hpair, hsum,
        Char.ofNat_toNat, ih]

/-- Reading a written string gives the string and what stands behind it. -/
theorem readString_written (s : String) (rest : List Char) :
    readString (s.toList.flatMap escapeChar ++ '"' :: rest) = .ok (s, rest) := by
  rw [readString, scanString_written]
  show Except.ok (String.ofList (joinUnits (s.toList.flatMap units)), rest) = _
  rw [joinUnits_units, String.ofList_toList]

end AcmeClient.Json
