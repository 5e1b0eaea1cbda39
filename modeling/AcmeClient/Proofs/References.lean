import AcmeClient.Field
import AcmeClient.Url.Join

/-!
# References to names

A reference that is a name, of the scheme `urn`, stands on its own against every URL of the web, and
no other reference resolves to it:

* `Url.scheme_parse_name` — a name has its own scheme whatever the base is;
* `Url.joinChars_cases` — against a URL of the web, a reference resolves to itself or to what begins
  with the scheme of the URL;
* `join_eq_name_iff` — a reference resolves to a name exactly when it is that name;
* `Url.join_eq_error_iff` — against what can be taken apart, a reference cannot be resolved exactly when
  it cannot be taken apart itself;
* `Url.split_of_harmless` — a text can be taken apart unless it has brackets or characters that are
  mistaken for delimiters.
-/

namespace AcmeClient

open Text

namespace Url

/-- The start of a name; what follows its colon is no authority. -/
def nameStart : List Char := "urn:i".toList

/-- A name has its own scheme whatever the base is. -/
theorem scheme_parse_name (base rest : List Char) :
    (Reference.parse base (nameStart ++ rest)).map Reference.scheme = .ok "urn".toList := by
  have hclean : cleaned (nameStart ++ rest)
      = nameStart ++ rest.filter fun c => c ≠ '\t' ∧ c ≠ '\r' ∧ c ≠ '\n' := rfl
  have hscheme : ∀ cs, cutScheme (nameStart ++ cs) = some ("urn".toList, 'i' :: cs) := fun _ => rfl
  rw [Reference.parse, splitWith, hclean, hscheme]
  rfl

/-- What is put together begins with the scheme. -/
theorem head?_assemble {r : Reference} {c : Char} {cs : List Char} (h : r.scheme = c :: cs) :
    (assemble r).head? = some c := by
  have hne : r.scheme ≠ [] := by
    rw [h]
    exact List.cons_ne_nil c cs
  simp only [assemble, if_neg hne]
  rw [h]
  rfl

/-- Against a URL of the web, a reference resolves to itself or to what begins with the scheme of
the URL. -/
theorem joinChars_cases {base url v : List Char} {b : Reference}
    (hb : Reference.parse [] base = .ok b)
    (hweb : b.scheme = "http".toList ∨ b.scheme = "https".toList)
    (h : joinChars base url = .ok v) : v = url ∨ v = base ∨ v.head? = some 'h' := by
  have hhead : ∀ r : Reference, r.scheme = b.scheme → (assemble r).head? = some 'h' := by
    intro r hr
    rcases hweb with hs | hs
    · exact head?_assemble (hr.trans hs)
    · exact head?_assemble (hr.trans hs)
  rw [joinChars, hb] at h
  by_cases hbase : base = []
  · rw [if_pos hbase] at h
    exact .inl (Except.ok.inj h).symm
  by_cases hurl : url = []
  · rw [if_neg hbase, if_pos hurl] at h
    exact .inr (.inl (Except.ok.inj h).symm)
  rw [if_neg hbase, if_neg hurl] at h
  cases hr : Reference.parse b.scheme url with
  | error d => simp [hr] at h
  | ok r =>
    simp only [hr] at h
    split at h
    · exact .inl (Except.ok.inj h).symm
    · rename_i hsame
      have hscheme : r.scheme = b.scheme :=
        Decidable.byContradiction fun hne => hsame (.inl hne)
      refine .inr (.inr ?_)
      split at h
      · rw [← Except.ok.inj h]
        exact hhead r hscheme
      · split at h
        · rw [← Except.ok.inj h]
          exact hhead _ hscheme
        · rw [← Except.ok.inj h]
          exact hhead _ hscheme

/-- What can be taken apart is a reference of the same scheme. -/
theorem exists_parse_of_split {u : String} {parts : Parts} (h : split u = .ok parts) :
    ∃ b, Reference.parse [] u.toList = .ok b ∧ b.scheme = parts.scheme := by
  rw [Reference.parse, ← split, h]
  exact ⟨_, rfl, rfl⟩

end Url

/-- An absolute URL can be taken apart, and has a scheme of the web and an authority. -/
theorem split_of_isAbsolute {u : String} (h : isAbsolute u = .ok true) :
    ∃ parts, Url.split u = .ok parts ∧
      (parts.scheme = "http".toList ∨ parts.scheme = "https".toList) ∧ parts.authority ≠ [] := by
  cases hs : Url.split u with
  | error d =>
    rw [isAbsolute, hs] at h
    cases h
  | ok parts =>
    have hweb : ((parts.scheme = "http".toList || parts.scheme = "https".toList)
        && parts.authority ≠ [] : Bool) = true := by
      rw [isAbsolute, hs] at h
      exact Except.ok.inj h
    simp only [Bool.and_eq_true, Bool.or_eq_true, decide_eq_true_eq] at hweb
    exact ⟨parts, rfl, hweb⟩

theorem parse_of_isAbsolute {u : String} (h : isAbsolute u = .ok true) :
    ∃ b, Url.Reference.parse [] u.toList = .ok b ∧
      (b.scheme = "http".toList ∨ b.scheme = "https".toList) := by
  obtain ⟨parts, hs, hweb, -⟩ := split_of_isAbsolute h
  obtain ⟨b, hb, hscheme⟩ := Url.exists_parse_of_split hs
  exact ⟨b, hb, by rw [hscheme]; exact hweb⟩

namespace Url

/-- A scheme of the web is not that of names. -/
theorem scheme_ne_name {scheme : List Char} (h : scheme = "http".toList ∨ scheme = "https".toList) :
    scheme ≠ "urn".toList := by
  rcases h with rfl | rfl
  · decide
  · decide

/-- What reads as a name has the scheme of names. -/
theorem scheme_of_parse_name {base rest : List Char} {r : Reference}
    (h : Reference.parse base (nameStart ++ rest) = .ok r) : r.scheme = "urn".toList := by
  have hmap := scheme_parse_name base rest
  rw [h] at hmap
  exact Except.ok.inj hmap

/-- Against a URL of the web, a name resolves to itself. -/
theorem joinChars_name {base : List Char} {b : Reference} (hb : Reference.parse [] base = .ok b)
    (hweb : b.scheme = "http".toList ∨ b.scheme = "https".toList) (rest : List Char) :
    joinChars base (nameStart ++ rest) = .ok (nameStart ++ rest) := by
  have hbase : base ≠ [] := by
    rintro rfl
    cases hb
    rcases hweb with h | h <;> cases h
  have hurl : nameStart ++ rest ≠ [] := by simp [nameStart]
  cases hr : Reference.parse b.scheme (nameStart ++ rest) with
  | error d =>
    have hmap := scheme_parse_name b.scheme rest
    rw [hr] at hmap
    cases hmap
  | ok r =>
    have hne : r.scheme ≠ b.scheme := by
      rw [scheme_of_parse_name hr]
      exact (scheme_ne_name hweb).symm
    rw [joinChars, if_neg hbase, if_neg hurl, hb]
    simp only [hr, if_pos (Or.inl hne)]

end Url

/-- Against a URL of the web, a reference resolves to a name exactly when it is that name. -/
theorem join_eq_name_iff {u v name : String} {rest : List Char} (hu : isAbsolute u = .ok true)
    (hname : name.toList = Url.nameStart ++ rest) : Url.join u v = .ok name ↔ v = name := by
  obtain ⟨b, hb, hweb⟩ := parse_of_isAbsolute hu
  constructor
  · intro h
    cases hj : Url.joinChars u.toList v.toList with
    | error d => simp [Url.join, hj, Except.map] at h
    | ok cs =>
      have hcs : cs = name.toList := by
        simp only [Url.join, hj, Except.map, Except.ok.injEq] at h
        rw [← h, String.toList_ofList]
      rcases Url.joinChars_cases hb hweb hj with h | h | h
      · exact String.toList_injective (h.symm.trans hcs)
      · rw [← h, hcs, hname] at hb
        exact absurd (Url.scheme_of_parse_name hb) (Url.scheme_ne_name hweb)
      · rw [hcs, hname] at h
        cases h
  · rintro rfl
    have hj := Url.joinChars_name hb hweb rest
    rw [← hname] at hj
    simp [Url.join, hj, Except.map]

/-! ### References that cannot be resolved -/

namespace Url

variable {base url : List Char} {b : Reference} {d : Defect}

/-- Whether a URL can be taken apart does not hang on the scheme that it takes from a base. -/
theorem splitWith_eq_error_iff (base : List Char) :
    splitWith base url = .error d ↔ splitWith [] url = .error d := by
  unfold splitWith
  cases cutScheme (cleaned url) with
  | some _ => rfl
  | none =>
    dsimp only [Option.getD_none]
    split <;> simp

theorem parse_eq_error_iff (base : List Char) :
    Reference.parse base url = .error d ↔ splitWith [] url = .error d := by
  rw [← splitWith_eq_error_iff base, Reference.parse]
  cases splitWith base url with
  | error d' => simp [Except.map]
  | ok parts => simp [Except.map]

theorem joinChars_eq_error_iff (hb : Reference.parse [] base = .ok b) (hbase : base ≠ []) :
    joinChars base url = .error d ↔ splitWith [] url = .error d := by
  rw [joinChars, if_neg hbase, hb]
  by_cases hurl : url = []
  · subst hurl
    constructor
    · intro h
      cases h
    · intro h
      cases h
  · rw [if_neg hurl, ← parse_eq_error_iff b.scheme]
    dsimp only
    cases Reference.parse b.scheme url with
    | error d' => simp
    | ok r =>
      dsimp only
      split
      · simp
      · split
        · simp
        · split <;> simp

/-- Against a URL that can be taken apart, a reference cannot be resolved exactly when it cannot be
taken apart. -/
theorem join_eq_error_iff {base url : String} {parts : Parts} {d : Defect}
    (hbase : split base = .ok parts) (hne : base ≠ "") :
    join base url = .error d ↔ split url = .error d := by
  obtain ⟨b, hb, -⟩ := exists_parse_of_split hbase
  have hchars : base.toList ≠ [] := fun h => hne (String.toList_injective h)
  rw [split, ← joinChars_eq_error_iff hb hchars, join]
  cases joinChars base.toList url.toList with
  | error d' => simp [Except.map]
  | ok cs => simp [Except.map]

/-- Whether a character makes no authority defective. -/
def isHarmless (c : Char) : Bool :=
  c ≠ '[' && c ≠ ']' && !lookalikes.contains c.toNat

theorem authorityDefect?_of_harmless {authority : List Char}
    (h : ∀ c ∈ authority, isHarmless c = true) : authorityDefect? authority = none := by
  have hleft : '[' ∉ authority := fun hc => absurd (h _ hc) (by decide)
  have hright : ']' ∉ authority := fun hc => absurd (h _ hc) (by decide)
  have hlook : authority.any (fun c => lookalikes.contains c.toNat) = false := by
    rw [List.any_eq_false]
    intro c hc hlookalike
    have hharmless := h c hc
    rw [isHarmless, hlookalike] at hharmless
    simp at hharmless
  have hbrackets : bracketDefect? authority = none := by simp [bracketDefect?, hleft, hright]
  rw [authorityDefect?, hbrackets, hlook]
  rfl

/-- What follows a scheme stands in the URL. -/
theorem mem_of_mem_cutScheme {c : Char} {scheme rest : List Char}
    (h : cutScheme url = some (scheme, rest)) (hc : c ∈ rest) : c ∈ url := by
  rw [cutScheme] at h
  obtain ⟨-, hcut⟩ | ⟨before, after, -, hurl, hcut⟩ := cut_cases ':' url
  · rw [hcut] at h
    cases h
  · rw [hcut] at h
    rw [hurl]
    refine List.mem_append_right _ (List.mem_cons_of_mem _ ?_)
    cases before with
    | nil => cases h
    | cons b before =>
      dsimp only at h
      split at h
      · cases h
        exact hc
      · cases h

theorem mem_of_mem_cutAuthority {c : Char} {rest : List Char} (h : c ∈ (cutAuthority rest).1) :
    c ∈ rest := by
  unfold cutAuthority at h
  split at h
  · exact List.mem_cons_of_mem _ (List.mem_cons_of_mem _ ((List.takeWhile_prefix _).mem h))
  · cases h

/-- A text of harmless characters can be taken apart. -/
theorem split_of_harmless {url : String} (h : ∀ c ∈ url.toList, isHarmless c = true) :
    ∃ parts, split url = .ok parts := by
  have hcleaned : ∀ c ∈ cleaned url.toList, isHarmless c = true := fun c hc =>
    h c ((List.dropWhile_suffix _).mem (List.mem_filter.1 hc).1)
  have hrest : ∀ c ∈ ((cutScheme (cleaned url.toList)).getD ([], cleaned url.toList)).2,
      isHarmless c = true := by
    intro c hc
    cases hs : cutScheme (cleaned url.toList) with
    | none =>
      rw [hs] at hc
      exact hcleaned c hc
    | some r =>
      rw [hs] at hc
      exact hcleaned c (mem_of_mem_cutScheme hs hc)
  rw [split, splitWith]
  dsimp only
  rw [authorityDefect?_of_harmless fun c hc => hrest c (mem_of_mem_cutAuthority hc)]
  exact ⟨_, rfl⟩

end Url

end AcmeClient
