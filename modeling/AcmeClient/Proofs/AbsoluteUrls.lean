import AcmeClient.Proofs.References
import AcmeClient.Proofs.Results
import Mathlib.Data.List.TakeWhile

/-!
# Absolute URLs as references

An absolute URL of the web that is written with the characters of URLs resolves to itself against
most bases. Against a base of its own scheme it is put together again from its parts, and that leaves
out a query or a fragment that is empty and writes the scheme in lower case:

* `Url.isUriChar` — the characters of URLs;
* `Url.IsWeb` — an absolute URL with its parts;
* `Url.tidied` — a URL with its scheme in lower case and without empty parts at its end;
* `Url.IsTidy` and `Url.tidied_eq_self_iff` — which absolute URLs are tidy;
* `join_of_isAbsolute` — what an absolute URL without parameters resolves to.
-/

namespace AcmeClient

open Text

namespace Url

/-! ### The characters of URLs -/

/-- The characters that URLs are written with. -/
def isUriChar (c : Char) : Bool :=
  c.isAlphanum || "-._~:/?#[]@!$&'()*+,;=%".toList.contains c

theorem toNat_of_isUriChar {c : Char} (h : isUriChar c = true) : 0x20 < c.toNat := by
  have hmarks : "-._~:/?#[]@!$&'()*+,;=%".toList.all (0x20 < ·.toNat) = true := by decide
  rw [isUriChar, Bool.or_eq_true] at h
  rcases h with h | h
  · have hval : c.toNat = c.val.toNat := rfl
    have hupper : 'A'.val.toNat = 65 := rfl
    have hlower : 'a'.val.toNat = 97 := rfl
    have hdigit : '0'.val.toNat = 48 := rfl
    unfold Char.isAlphanum Char.isAlpha Char.isUpper Char.isLower Char.isDigit at h
    simp only [Bool.or_eq_true, Bool.and_eq_true, decide_eq_true_eq, UInt32.le_iff_toNat_le,
      ge_iff_le] at h
    omega
  · exact of_decide_eq_true (List.all_eq_true.1 hmarks c (List.contains_iff_mem.1 h))

/-- Nothing of a URL is ignored. -/
theorem cleaned_of_isUriChar {cs : List Char} (h : ∀ c ∈ cs, isUriChar c = true) :
    cleaned cs = cs := by
  have hfront : cs.dropWhile (fun c => c.toNat ≤ 0x20) = cs := by
    cases cs with
    | nil => rfl
    | cons c cs =>
      have hc := toNat_of_isUriChar (h c List.mem_cons_self)
      rw [List.dropWhile_cons_of_neg (by simpa using hc)]
  rw [cleaned, hfront, List.filter_eq_self]
  intro c hc
  have hmark : 0x20 < c.toNat := toNat_of_isUriChar (h c hc)
  rw [decide_eq_true_eq]
  refine ⟨?_, ?_, ?_⟩
  · rintro rfl
    exact absurd hmark (by decide)
  · rintro rfl
    exact absurd hmark (by decide)
  · rintro rfl
    exact absurd hmark (by decide)

/-! ### The parts of an absolute URL -/

/-- Whether a text is an absolute URL of the web with a scheme, an authority and what follows it. -/
structure IsWeb (cs scheme authority rest : List Char) : Prop where
  chars : ∀ c ∈ cs, isUriChar c = true
  eq : cs = scheme ++ ':' :: '/' :: '/' :: (authority ++ rest)
  cut : cutScheme cs = some (scheme.map Char.toLower, '/' :: '/' :: (authority ++ rest))
  scheme_web : scheme.map Char.toLower = "http".toList ∨ scheme.map Char.toLower = "https".toList
  authority_ne : authority ≠ []
  authority_chars : ∀ c ∈ authority, endsAuthority c = false
  rest_head : ∀ c, rest.head? = some c → endsAuthority c = true
  sound : authorityDefect? authority = none

/-- A scheme is read in front of a colon. -/
theorem eq_of_cutScheme {cs lower rest : List Char} (h : cutScheme cs = some (lower, rest)) :
    ∃ scheme, cs = scheme ++ ':' :: rest ∧ lower = scheme.map Char.toLower := by
  rw [cutScheme] at h
  obtain ⟨-, hcut⟩ | ⟨before, after, -, hcs, hcut⟩ := cut_cases ':' cs
  · rw [hcut] at h
    cases h
  · rw [hcut] at h
    cases before with
    | nil => cases h
    | cons b before =>
      dsimp only at h
      split at h
      · cases h
        exact ⟨b :: before, hcs, rfl⟩
      · cases h

/-- An authority stands after two slashes and goes on to the next mark that ends it. -/
theorem eq_of_cutAuthority {cs authority rest : List Char} (h : cutAuthority cs = (authority, rest))
    (hne : authority ≠ []) : cs = '/' :: '/' :: (authority ++ rest) ∧
      (∀ c ∈ authority, endsAuthority c = false) ∧
      ∀ c, rest.head? = some c → endsAuthority c = true := by
  unfold cutAuthority at h
  split at h
  · rename_i after
    cases h
    refine ⟨by rw [List.takeWhile_append_dropWhile],
      fun c hc => by simpa using List.mem_takeWhile_imp hc, fun c hc => ?_⟩
    have hnot := List.head?_dropWhile_not (!endsAuthority ·) after
    rw [hc] at hnot
    simpa using hnot
  · cases h
    exact absurd rfl hne

/-- What an absolute URL is made of. -/
theorem exists_isWeb {u : String} (h : isAbsolute u = .ok true)
    (hchars : ∀ c ∈ u.toList, isUriChar c = true) :
    ∃ scheme authority rest, IsWeb u.toList scheme authority rest := by
  obtain ⟨parts, hs, hscheme, hauthority⟩ := split_of_isAbsolute h
  rw [split, splitWith, cleaned_of_isUriChar hchars] at hs
  cases hcut : cutScheme u.toList with
  | none =>
    rw [hcut] at hs
    dsimp only [Option.getD_none] at hs
    split at hs
    · cases hs
    · cases hs
      rcases hscheme with hscheme | hscheme <;> cases hscheme
  | some found =>
    obtain ⟨lower, after⟩ := found
    obtain ⟨scheme, hu, rfl⟩ := eq_of_cutScheme hcut
    rw [hcut] at hs
    dsimp only [Option.getD_some] at hs
    rcases hfound : cutAuthority after with ⟨authority, rest⟩
    rw [hfound] at hs
    dsimp only at hs
    split at hs
    · cases hs
    · rename_i hsound
      cases hs
      obtain ⟨rfl, hauthorityChars, hrest⟩ := eq_of_cutAuthority hfound hauthority
      exact ⟨scheme, authority, rest, {
        chars := hchars
        eq := hu
        cut := hcut
        scheme_web := hscheme
        authority_ne := hauthority
        authority_chars := hauthorityChars
        rest_head := hrest
        sound := hsound }⟩

namespace IsWeb

variable {cs scheme authority rest : List Char} (h : IsWeb cs scheme authority rest)
include h

/-- The scheme has few characters. -/
theorem notMem_scheme {c : Char} (hc : c.toLower ∉ "https".toList) : c ∉ scheme := by
  intro hmem
  have hlower : c.toLower ∈ scheme.map Char.toLower := List.mem_map_of_mem hmem
  rcases h.scheme_web with hs | hs
  · rw [hs] at hlower
    exact hc (List.mem_append_left ['s'] hlower)
  · rw [hs] at hlower
    exact hc hlower

/-- It begins with the first letter of its scheme. -/
theorem toLower_head {c : Char} (hc : cs.head? = some c) : c.toLower = 'h' := by
  have hscheme := h.scheme_web
  rw [h.eq] at hc
  cases hs : scheme with
  | nil =>
    rw [hs] at hscheme
    rcases hscheme with hs | hs <;> cases hs
  | cons b bs =>
    rw [hs] at hscheme hc
    cases hc
    rcases hscheme with hs | hs
    · exact (List.cons.inj hs).1
    · exact (List.cons.inj hs).1

/-- A mark that ends the authority stands behind it. -/
theorem cut_mark {c : Char} (hc : c = '?' ∨ c = '#') (tail : List Char) :
    Text.cut c (scheme ++ ':' :: '/' :: '/' :: (authority ++ tail))
      = (scheme ++ ':' :: '/' :: '/' :: (authority ++ (Text.cut c tail).1), (Text.cut c tail).2) := by
  have hscheme : c ∉ scheme := by
    rcases hc with rfl | rfl
    · exact h.notMem_scheme (by decide)
    · exact h.notMem_scheme (by decide)
  have hauthority : c ∉ authority := by
    intro hmem
    have hends := h.authority_chars c hmem
    rcases hc with rfl | rfl
    · cases hends
    · cases hends
  have hfront : c ∉ scheme ++ ':' :: '/' :: '/' :: authority := by
    rcases hc with rfl | rfl
    · simp [hscheme, hauthority]
    · simp [hscheme, hauthority]
  have hassoc : ∀ t, scheme ++ ':' :: '/' :: '/' :: (authority ++ t)
      = (scheme ++ ':' :: '/' :: '/' :: authority) ++ t := by simp
  rw [hassoc, cut_append_of_notMem hfront, hassoc]

theorem cutAuthority_eq : cutAuthority ('/' :: '/' :: (authority ++ rest)) = (authority, rest) := by
  have hfirst : ∀ c ∈ authority, (!endsAuthority c) = true := fun c hc => by
    rw [h.authority_chars c hc]
    rfl
  have hrest : rest.takeWhile (!endsAuthority ·) = [] ∧ rest.dropWhile (!endsAuthority ·) = rest := by
    cases hr : rest with
    | nil => exact ⟨rfl, rfl⟩
    | cons c cs =>
      have hc := h.rest_head c (by rw [hr]; rfl)
      simp [hc]
  rw [cutAuthority, List.takeWhile_append_of_pos hfirst, List.dropWhile_append_of_pos hfirst,
    hrest.1, hrest.2, List.append_nil]

theorem splitWith_eq (base : List Char) :
    splitWith base cs = .ok ⟨scheme.map Char.toLower, authority,
      (Text.cut '?' (Text.cut '#' rest).1).1, (Text.cut '?' (Text.cut '#' rest).1).2.getD [],
      (Text.cut '#' rest).2.getD []⟩ := by
  rw [splitWith, cleaned_of_isUriChar h.chars, h.cut]
  dsimp only [Option.getD_some]
  rw [h.cutAuthority_eq]
  dsimp only
  rw [h.sound]

/-- The path is rooted, or there is none. -/
theorem path_cases : (Text.cut '?' (Text.cut '#' rest).1).1 = [] ∨
    (Text.cut '?' (Text.cut '#' rest).1).1.head? = some '/' := by
  cases hr : rest with
  | nil => exact .inl rfl
  | cons c cs =>
    have hc := h.rest_head c (by rw [hr]; rfl)
    simp only [endsAuthority, Bool.or_eq_true, decide_eq_true_eq] at hc
    rcases hc with (rfl | rfl) | rfl
    · exact .inr (by simp [Text.cut])
    · exact .inl (by simp [Text.cut])
    · exact .inl (by simp [Text.cut])

end IsWeb

/-! ### Putting an absolute URL together again -/

/-- A URL with its scheme in lower case, and without a query or a fragment that is empty. -/
def tidied (u : String) : String :=
  let (front, fragment) := cut '#' u.toList
  let (front, query) := cut '?' front
  let (scheme, rest) := cut ':' front
  String.ofList (scheme.map Char.toLower ++ ':' :: rest.getD []
    ++ (withMark '?' (query.getD []) ++ withMark '#' (fragment.getD [])))

/-- A path without a semicolon has no parameters. -/
theorem cutParameters_of_notMem {path : List Char} (h : ';' ∉ path) :
    cutParameters path = (path, []) := by
  have hlast : ';' ∉ (cutLast '/' path).2 := by
    intro hmem
    exact h (List.mem_reverse.1 (mem_of_mem_cut (List.mem_reverse.1 hmem)))
  rw [cutParameters]
  split
  · rename_i last heq
    rw [heq] at hlast
    rw [cut_of_notMem hlast]
  · rename_i directory last heq
    rw [heq] at hlast
    rw [cut_of_notMem hlast]

/-- A separator and a part give a part back that is not empty. -/
theorem length_withMark (mark : Char) (part : Option (List Char)) :
    (withMark mark (part.getD [])).length + (if part = some [] then 1 else 0)
      = ((part.map (mark :: ·)).getD []).length := by
  cases part with
  | none => rfl
  | some cs => cases cs <;> simp [withMark]

theorem withMark_of_ne {mark : Char} {part : Option (List Char)} (h : part ≠ some []) :
    withMark mark (part.getD []) = (part.map (mark :: ·)).getD [] := by
  cases part with
  | none => rfl
  | some cs =>
    cases cs with
    | nil => exact absurd rfl h
    | cons c cs => rfl

namespace IsWeb

variable {u : String} {scheme authority rest : List Char}
  (h : IsWeb u.toList scheme authority rest)
include h

theorem tidied_eq : tidied u = String.ofList (scheme.map Char.toLower ++ ':' :: '/' :: '/' ::
    (authority ++ (Text.cut '?' (Text.cut '#' rest).1).1)
    ++ (withMark '?' ((Text.cut '?' (Text.cut '#' rest).1).2.getD [])
      ++ withMark '#' ((Text.cut '#' rest).2.getD []))) := by
  have hcolon : ':' ∉ scheme := h.notMem_scheme (by decide)
  rw [tidied, h.eq, h.cut_mark (.inr rfl)]
  dsimp only
  rw [h.cut_mark (.inl rfl)]
  dsimp only
  rw [cut_append hcolon]
  rfl

theorem parse_eq (base : List Char) (hplain : ';' ∉ u.toList) :
    Reference.parse base u.toList = .ok ⟨scheme.map Char.toLower, authority,
      (Text.cut '?' (Text.cut '#' rest).1).1, [], (Text.cut '?' (Text.cut '#' rest).1).2.getD [],
      (Text.cut '#' rest).2.getD []⟩ := by
  have hpath : ';' ∉ (Text.cut '?' (Text.cut '#' rest).1).1 := by
    intro hmem
    refine hplain ?_
    rw [h.eq]
    simp [mem_of_mem_cut (mem_of_mem_cut hmem)]
  rw [Reference.parse, h.splitWith_eq]
  simp only [Except.map, cutParameters_of_notMem hpath, ite_self]

/-- An absolute URL without parameters is put together again tidily. -/
theorem assemble_eq : String.ofList (assemble ⟨scheme.map Char.toLower, authority,
      (Text.cut '?' (Text.cut '#' rest).1).1, [], (Text.cut '?' (Text.cut '#' rest).1).2.getD [],
      (Text.cut '#' rest).2.getD []⟩) = tidied u := by
  have hscheme : scheme.map Char.toLower ≠ [] := by
    rcases h.scheme_web with hs | hs <;> rw [hs] <;> decide
  have hrooted : ∀ path : List Char, path = [] ∨ path.head? = some '/' →
      (if path ≠ [] ∧ path.head? ≠ some '/' then '/' :: path else path) = path := by
    rintro path (hpath | hpath)
    · rw [if_neg fun hand => hand.1 hpath]
    · rw [if_neg fun hand => hand.2 hpath]
  rw [h.tidied_eq, assemble]
  dsimp only
  rw [if_neg hscheme, if_pos (.inl h.authority_ne)]
  have hmark : ∀ path : List Char, path ++ withMark ';' [] = path := fun path =>
    List.append_nil path
  rw [hmark, hrooted _ h.path_cases]
  simp

/-- Against a base of the same scheme an absolute URL without parameters is tidied, and against any other
it stays as it is. -/
theorem joinChars_eq {base : List Char} {b : Reference} (hb : Reference.parse [] base = .ok b)
    (hplain : ';' ∉ u.toList) :
    joinChars base u.toList = .ok
      (if b.scheme = scheme.map Char.toLower then (tidied u).toList else u.toList) := by
  have hne : u.toList ≠ [] := by
    rw [h.eq]
    exact List.append_ne_nil_of_right_ne_nil _ (List.cons_ne_nil _ _)
  have hhierarchical : isOneOf (scheme.map Char.toLower) hierarchical = true := by
    rcases h.scheme_web with hs | hs <;> rw [hs] <;> decide
  have hauthority : isOneOf (scheme.map Char.toLower) withAuthority = true := by
    rcases h.scheme_web with hs | hs <;> rw [hs] <;> decide
  rw [joinChars]
  by_cases hbase : base = []
  · rw [if_pos hbase]
    subst hbase
    cases hb
    rw [if_neg]
    rcases h.scheme_web with hs | hs <;> rw [hs] <;> decide
  · rw [if_neg hbase, if_neg hne, hb]
    dsimp only
    rw [h.parse_eq b.scheme hplain]
    dsimp only
    by_cases hscheme : b.scheme = scheme.map Char.toLower
    · rw [if_neg (by simp [hscheme, hhierarchical]), if_pos ⟨hauthority, h.authority_ne⟩,
        if_pos hscheme, ← h.assemble_eq, String.toList_ofList]
    · rw [if_pos (.inl (Ne.symm hscheme)), if_neg hscheme]

/-- The parts of a tidy URL. -/
theorem tidied_iff_parts : tidied u = u ↔ scheme.map Char.toLower = scheme ∧
    (Text.cut '?' (Text.cut '#' rest).1).2 ≠ some [] ∧ (Text.cut '#' rest).2 ≠ some [] := by
  have hfragment := cut_append_eq '#' rest
  have hquery := cut_append_eq '?' (Text.cut '#' rest).1
  have heq := h.eq
  have htidied := h.tidied_eq
  generalize Text.cut '#' rest = f at hfragment hquery htidied ⊢
  generalize Text.cut '?' f.1 = q at hquery htidied ⊢
  rw [← hfragment, ← hquery] at heq
  constructor
  · intro hsame
    have htext := congrArg String.toList (htidied.symm.trans hsame)
    rw [String.toList_ofList, heq] at htext
    -- only empty parts make the text shorter
    have hlength := congrArg List.length htext
    have hq := length_withMark '?' q.2
    have hf := length_withMark '#' f.2
    simp only [List.length_append, List.length_cons, List.length_map] at hlength
    have hq' : q.2 ≠ some [] := by
      intro hempty
      rw [if_pos hempty] at hq
      split at hf <;> omega
    have hf' : f.2 ≠ some [] := by
      intro hempty
      rw [if_pos hempty] at hf
      split at hq <;> omega
    rw [withMark_of_ne hq', withMark_of_ne hf'] at htext
    exact ⟨by simpa using htext, hq', hf'⟩
  · rintro ⟨hscheme, hq, hf⟩
    apply String.toList_injective
    rw [htidied, heq, String.toList_ofList, hscheme, withMark_of_ne hq, withMark_of_ne hf]
    simp

end IsWeb

/-- Whether the scheme of a URL is in lower case, and neither its query nor its fragment is there
and empty. -/
structure IsTidy (u : String) : Prop where
  scheme : (cut ':' u.toList).1.map Char.toLower = (cut ':' u.toList).1
  query : (cut '?' (cut '#' u.toList).1).2 ≠ some []
  fragment : (cut '#' u.toList).2 ≠ some []

/-- Exactly the tidy URLs stay as they are when they are tidied. -/
theorem tidied_eq_self_iff {u : String} (hu : isAbsolute u = .ok true)
    (hchars : ∀ c ∈ u.toList, isUriChar c = true) : tidied u = u ↔ IsTidy u := by
  obtain ⟨scheme, authority, rest, h⟩ := exists_isWeb hu hchars
  have hcolon : cut ':' u.toList = (scheme, some ('/' :: '/' :: (authority ++ rest))) := by
    rw [h.eq, cut_append (h.notMem_scheme (by decide))]
  have hfragment := h.cut_mark (.inr rfl) rest
  rw [← h.eq] at hfragment
  have hquery := h.cut_mark (.inl rfl) (cut '#' rest).1
  rw [h.tidied_iff_parts]
  constructor
  · rintro ⟨hs, hq, hf⟩
    exact ⟨by rw [hcolon]; exact hs, by rw [hfragment, hquery]; exact hq, by rw [hfragment]; exact hf⟩
  · rintro ⟨hs, hq, hf⟩
    rw [hcolon] at hs
    rw [hfragment, hquery] at hq
    rw [hfragment] at hf
    exact ⟨hs, hq, hf⟩

end Url

/-- **What an absolute URL resolves to.** One that is written with the characters of URLs and has no
parameters is tidied against a base of its own scheme, and is left as it is against any other. -/
theorem join_of_isAbsolute {base u : String} {b parts : Url.Parts} (hbase : Url.split base = .ok b)
    (hu : isAbsolute u = .ok true) (hchars : ∀ c ∈ u.toList, Url.isUriChar c = true)
    (hplain : ';' ∉ u.toList) (hparts : Url.split u = .ok parts) :
    Url.join base u = .ok (if b.scheme = parts.scheme then Url.tidied u else u) := by
  obtain ⟨scheme, authority, rest, h⟩ := Url.exists_isWeb hu hchars
  have hscheme : parts.scheme = scheme.map Char.toLower := by
    rw [Url.split, h.splitWith_eq] at hparts
    rw [← Except.ok.inj hparts]
  obtain ⟨reference, hb, hb'⟩ := Url.exists_parse_of_split hbase
  rw [Url.join, h.joinChars_eq hb hplain, hscheme, hb']
  split
  · simp [Except.map]
  · simp [Except.map]

end AcmeClient
