import AcmeClient.Identifier
import AcmeClient.Proofs.Address.Spellings
import Mathlib.Data.List.TakeWhile

/-!
# The canonical spelling of an address

Every address has one spelling that is written for it, whatever it was read from:

* `longestRun_spec` — the run that a gap stands for is one of zeros;
* `spellsGroups_groupsText` — eight groups are spelled by their text;
* `Spells.text` — an address that has a spelling is spelled by its own text;
* `Identifier.spellings_are_canonical` — the identifiers of texts are those of the addresses that they
  spell, and do not change when they are made again.
-/

namespace AcmeClient

namespace IpAddress

open Number Text

/-! ### Groups that are written -/

/-- What is put together around the longest run of zeros. -/
theorem longestRun_spec (place : Nat) (groups : List Nat) :
    ∃ before length after, longestRun place groups = (place + before.length, length) ∧
      groups = before ++ List.replicate length 0 ++ after := by
  induction groups generalizing place with
  | nil => exact ⟨[], 0, [], rfl, rfl⟩
  | cons g gs ih =>
    obtain ⟨before, length, after, hrun, hgs⟩ := ih (place + 1)
    rw [longestRun]
    split
    next =>
      have hzeros : (g :: gs).takeWhile (· = 0) = List.replicate (zeroRun (g :: gs)) 0 :=
        List.eq_replicate_iff.2 ⟨rfl, fun z hz => by simpa using List.mem_takeWhile_imp hz⟩
      refine ⟨[], zeroRun (g :: gs), (g :: gs).dropWhile (· = 0), rfl, ?_⟩
      rw [List.nil_append, ← hzeros, List.takeWhile_append_dropWhile]
    next =>
      refine ⟨g :: before, length, after, ?_, by rw [hgs]; rfl⟩
      rw [hrun, List.length_cons]
      exact Prod.ext (by dsimp only; omega) rfl

theorem groups_map_groupText {gs : List Nat} (h : ∀ g ∈ gs, g < 65536) :
    List.Forall₂ IsGroup (gs.map groupText) gs := by
  rw [List.forall₂_map_left_iff, List.forall₂_same]
  exact fun g hg => isGroup_groupText (h g hg)

/-- Eight groups are spelled by their text. -/
theorem spellsGroups_groupsText {gs : List Nat} (hcount : gs.length = 8)
    (h : ∀ g ∈ gs, g < 65536) : SpellsGroups (groupsText gs) gs := by
  obtain ⟨before, length, after, hrun, rfl⟩ := longestRun_spec 0 gs
  rw [groupsText, hrun]
  dsimp only
  split
  next hlong =>
    have hlength : length = 8 - (before.length + after.length) := by
      simp only [List.length_append, List.length_replicate] at hcount
      omega
    have hbefore : (before ++ List.replicate length 0 ++ after).take (0 + before.length) = before := by
      rw [List.append_assoc]
      exact List.take_left' (Nat.zero_add _).symm
    have hafter : (before ++ List.replicate length 0 ++ after).drop (0 + before.length + length)
        = after := by
      refine List.drop_left' ?_
      rw [List.length_append, List.length_replicate, Nat.zero_add]
    obtain ⟨hfront, hlow⟩ := List.forall_mem_append.1 h
    obtain ⟨hhigh, -⟩ := List.forall_mem_append.1 hfront
    rw [hbefore, hafter, hlength]
    exact .gap (groups_map_groupText hhigh) (.groups (groups_map_groupText hlow)) (by omega)
  next => exact .full (.groups (groups_map_groupText h)) hcount

/-! ### Addresses that are written -/

theorem Fields.lt {fs : List (List Char)} {gs : List Nat} (h : Fields fs gs) :
    ∀ g ∈ gs, g < 65536 := by
  cases h with
  | groups h => exact lt_of_groups h
  | dotted h hlast =>
    exact List.forall_mem_append.2 ⟨lt_of_groups h, lt_of_groups (halves_of_isDotted hlast)⟩

/-- What is spelled are eight groups. -/
theorem SpellsGroups.groups {cs : List Char} {gs : List Nat} (h : SpellsGroups cs gs) :
    gs.length = 8 ∧ ∀ g ∈ gs, g < 65536 := by
  cases h with
  | full h hcount => exact ⟨hcount, h.lt⟩
  | gap high low hcount =>
    constructor
    · simp only [List.length_append, List.length_replicate]
      omega
    · refine List.forall_mem_append.2 ⟨List.forall_mem_append.2 ⟨lt_of_groups high, ?_⟩, low.lt⟩
      intro g hg
      rw [List.eq_of_mem_replicate hg]
      decide

/-- The groups of a number that was spelled are written as they are. -/
theorem SpellsGroups.groupsText {cs : List Char} {gs : List Nat} (h : SpellsGroups cs gs) :
    SpellsGroups (groupsText (digitsBase 65536 8 (ofDigitsBase 65536 gs))) gs := by
  obtain ⟨hcount, hlt⟩ := h.groups
  have hdigits := digitsBase_ofDigitsBase hlt
  rw [hcount] at hdigits
  rw [hdigits]
  exact spellsGroups_groupsText hcount hlt

theorem IsDotted.text {cs : List Char} {n : Nat} (h : IsDotted cs n) :
    IsDotted (joined '.' ((digitsBase 256 4 n).map numeral)) n := by
  obtain ⟨os, hcount, hle, -, rfl⟩ := h
  have hdigits := digitsBase_ofDigitsBase fun o ho => Nat.lt_succ_of_le (hle o ho)
  rw [hcount] at hdigits
  exact ⟨os, hcount, hle, by rw [hdigits], rfl⟩

/-- An address that has a spelling is spelled by its own text. -/
theorem Spells.text {cs : List Char} {a : IpAddress} (h : Spells cs a) : Spells a.text.toList a := by
  rw [IpAddress.text, String.toList_ofList]
  cases h with
  | short h => exact .short h.text
  | long h =>
    rw [chars, List.append_nil]
    exact .long h.groupsText
  | zoned h hne hzone =>
    rw [chars, String.toList_ofList]
    exact .zoned h.groupsText hne hzone

end IpAddress

/-! ### Identifiers -/

namespace Identifier

open IpAddress

variable {s : String} {a : IpAddress}

theorem ofValue_of_spells (h : Spells s.toList a) : ofValue (.string s) = .ip a.text := by
  have hread : address? (.string s) = some a := parseChars?_eq_some_iff.2 h
  rw [ofValue, hread]
  exact nofun

theorem ofValue_of_not_spells (h : ∀ a, ¬ Spells s.toList a) :
    ofValue (.string s) = .dns (.string s) := by
  have hread : address? (.string s) = none := by
    cases ha : address? (.string s) with
    | none => rfl
    | some a => exact absurd (parseChars?_eq_some_iff.1 ha) (h a)
  rw [ofValue, hread]
  exact nofun

/-- The text of an address tells which one it is. -/
theorem eq_of_text_eq {s t : String} {a b : IpAddress} (ha : Spells s.toList a)
    (hb : Spells t.toList b) (htext : a.text = b.text) : a = b := by
  have hread := parseChars?_eq_some_iff.2 ha.text
  rw [htext, parseChars?_eq_some_iff.2 hb.text] at hread
  exact (Option.some.inj hread).symm

/-- **Spellings are canonical.** A text that spells an address has the identifier of the canonical
spelling of that address, which spells it as well; two of them have the same identifier exactly when
they spell the same address. Any other text has the identifier of a host of that very name. The value
of the identifier of a text has that same identifier. -/
theorem spellings_are_canonical (s : String) :
    (∀ a, Spells s.toList a → ofValue (.string s) = .ip a.text ∧ Spells a.text.toList a ∧
      ∀ t b, Spells t.toList b → (ofValue (.string s) = ofValue (.string t) ↔ a = b)) ∧
    ((∀ a, ¬ Spells s.toList a) → ofValue (.string s) = .dns (.string s)) ∧
    ofValue (ofValue (.string s)).value = ofValue (.string s) := by
  refine ⟨fun a ha => ⟨ofValue_of_spells ha, ha.text, fun t b hb => ?_⟩, ofValue_of_not_spells, ?_⟩
  · rw [ofValue_of_spells ha, ofValue_of_spells hb]
    constructor
    · intro h
      injection h with _ hvalue
      injection hvalue with htext
      exact eq_of_text_eq ha hb htext
    · rintro rfl
      rfl
  · by_cases h : ∃ a, Spells s.toList a
    · obtain ⟨a, ha⟩ := h
      rw [ofValue_of_spells ha]
      exact ofValue_of_spells ha.text
    · have hnone := ofValue_of_not_spells fun a ha => h ⟨a, ha⟩
      rw [hnone]
      exact hnone

theorem spellings_are_canonical_embedded :
    let identifier := Identifier.ip "fe80::c000:201%eth0"
    ofValue (.string "FE80::192.0.2.1%eth0") = identifier ∧
      ofValue (.string "fe80:0:0:0:0:0:c000:0201%eth0") = identifier ∧
      ofValue identifier.value = identifier ∧
      ofValue (.string "192.0.2.01") = .dns (.string "192.0.2.01") := by
  intro identifier
  let a : IpAddress := .v6 338288524927261089654018896844568920577 (some "eth0")
  have htext : a.text = "fe80::c000:201%eth0" := by decide +kernel
  have hdotted : Spells "FE80::192.0.2.1%eth0".toList a :=
    parseChars?_eq_some_iff.1 (by decide +kernel)
  have hzeros : Spells "fe80:0:0:0:0:0:c000:0201%eth0".toList a :=
    parseChars?_eq_some_iff.1 (by decide +kernel)
  have hnone : ∀ b, ¬ Spells "192.0.2.01".toList b := by
    intro b hb
    have hread : parseChars? "192.0.2.01".toList = none := by decide +kernel
    rw [parseChars?_eq_some_iff.2 hb] at hread
    cases hread
  obtain ⟨hspelled, -, hagain⟩ := spellings_are_canonical "FE80::192.0.2.1%eth0"
  obtain ⟨hfirst, -, hsame⟩ := hspelled a hdotted
  rw [htext] at hfirst
  rw [hfirst] at hagain
  have hsecond := (hsame _ a hzeros).2 rfl
  exact ⟨hfirst, hsecond ▸ hfirst, hagain, (spellings_are_canonical "192.0.2.01").2.1 hnone⟩

end Identifier

end AcmeClient
