import AcmeClient.Proofs.References
import AcmeClient.Proofs.Results

/-!
# The texts of problems

A problem is shown with its subproblems, and so is a refusal that carries it. Members of any kind can
be shown; only a type that is a text has to be resolved first, which may fail:

* `Problem.inner` and `Problem.IsPart` — the problems within a problem, right in it and at any depth;
* `Problem.HasType` — the types of a problem and of all problems within it;
* `Problem.text_eq` — the text is that of the problem and those of the problems right within it;
* `Problem.text_cases` — it can be told exactly when all types can be resolved;
* `Problem.text_is_told_iff` — against a URL of the web it can be told exactly when all types can be
  taken apart.
-/

namespace AcmeClient

namespace Problem

/-! ### Problems within problems -/

/-- The problems in some values: those that are objects. -/
def ofItems (base : Option String) (items : List Json) : List Problem :=
  items.filterMap fun
    | .object ms => some ⟨ms, base⟩
    | _ => none

/-- The problems that are shown right within a problem. -/
def inner (p : Problem) : List Problem :=
  match p.members.get "subproblems" with
  | .array items => ofItems p.baseUrl items
  | _ => []

/-- Whether a problem is another one or within it, at any depth. -/
inductive IsPart (q : Problem) : Problem → Prop where
  | self : IsPart q q
  | within {m p : Problem} : m ∈ p.inner → IsPart q m → IsPart q p

variable {p q : Problem}

theorem mem_ofItems {base : Option String} {items : List Json} :
    q ∈ ofItems base items ↔ q.baseUrl = base ∧ .object q.members ∈ items := by
  rw [ofItems, List.mem_filterMap]
  constructor
  · rintro ⟨j, hj, h⟩
    cases j with
    | object ms =>
      cases h
      exact ⟨rfl, hj⟩
    | _ => cases h
  · rintro ⟨rfl, hmem⟩
    exact ⟨_, hmem, rfl⟩

theorem mem_inner : q ∈ p.inner ↔ q.baseUrl = p.baseUrl ∧
    ∃ items, p.members.get "subproblems" = .array items ∧ .object q.members ∈ items := by
  rw [inner]
  cases hitems : p.members.get "subproblems" with
  | array items => simp [mem_ofItems]
  | _ => simp

/-- What is within a problem is smaller. -/
theorem sizeOf_inner_lt (h : q ∈ p.inner) : sizeOf q.members < sizeOf p.members := by
  obtain ⟨-, items, hitems, hmem⟩ := mem_inner.1 h
  have hlookup : p.members.lookup "subproblems" = some (.array items) := by
    rw [Members.get, Members.get?] at hitems
    cases hl : p.members.lookup "subproblems" with
    | none =>
      rw [hl] at hitems
      cases hitems
    | some j =>
      rw [hl] at hitems
      exact congrArg some hitems
  obtain ⟨before, after, hsplit, -⟩ := List.lookup_eq_some_iff.1 hlookup
  have hitem : sizeOf (Json.object q.members) < sizeOf items := List.sizeOf_lt_of_mem hmem
  have harray : sizeOf ("subproblems", Json.array items) < sizeOf p.members :=
    List.sizeOf_lt_of_mem (hsplit ▸ List.mem_append_right _ List.mem_cons_self)
  simp only [Json.object.sizeOf_spec, Prod.mk.sizeOf_spec, Json.array.sizeOf_spec] at hitem harray
  omega

/-! ### The text of a problem -/

theorem itemTexts_eq (base : Option String) (items : List Json) :
    itemTexts base items = (ofItems base items).map text := by
  induction items with
  | nil => simp [itemTexts, ofItems]
  | cons j rest ih =>
    rw [ofItems] at ih ⊢
    cases j with
    | object ms => simp [itemTexts, ih, text]
    | _ => simp [itemTexts, ih]

theorem subproblemTexts_eq (base : Option String) (ms : Members) :
    subproblemTexts base ms = (inner ⟨ms, base⟩).map text := by
  induction ms with
  | nil =>
    rw [subproblemTexts]
    rfl
  | cons m rest ih =>
    obtain ⟨name, j⟩ := m
    have hget : Members.get ((name, j) :: rest) "subproblems"
        = if name = "subproblems" then j else Members.get rest "subproblems" := by
      rw [Members.get, Members.get?, List.lookup_cons]
      by_cases h : name = "subproblems"
      · rw [if_pos h, h]
        rfl
      · rw [if_neg h, beq_false_of_ne (Ne.symm h)]
        rfl
    rw [inner] at ih ⊢
    dsimp only at ih ⊢
    rw [hget]
    by_cases h : name = "subproblems"
    · rw [if_pos h]
      cases j with
      | array items => rw [subproblemTexts, if_pos h, itemTexts_eq]
      | _ => simp [subproblemTexts, h]
    · rw [if_neg h, ← ih]
      cases j with
      | _ => simp [subproblemTexts, h]

/-- The text is that of the problem and those of the problems right within it. -/
theorem text_eq (p : Problem) :
    p.text = lines (heading p.baseUrl p.members) (p.inner.map text) := by
  rw [text, subproblemTexts_eq]

/-- The text of a problem without the others fails exactly where its type cannot be resolved. -/
theorem heading_cases (p : Problem) :
    (∃ s, heading p.baseUrl p.members = .ok s ∧
      ∀ t, p.members.get "type" = .string t → ∃ u, resolve p.baseUrl t = .ok u) ∨
    ∃ t d, p.members.get "type" = .string t ∧ resolve p.baseUrl t = .error d ∧
      heading p.baseUrl p.members = .error d := by
  cases htype : p.members.get "type" with
  | string t =>
    cases hresolve : resolve p.baseUrl t with
    | ok u =>
      refine .inl ⟨_, by rw [heading, shownType, htype]; dsimp only; rw [hresolve]; rfl, ?_⟩
      rintro t' ⟨⟩
      exact ⟨u, hresolve⟩
    | error d =>
      exact .inr ⟨t, d, rfl, hresolve, by rw [heading, shownType, htype]; dsimp only; rw [hresolve]; rfl⟩
  | _ => exact .inl ⟨_, by rw [heading, shownType, htype]; rfl, nofun⟩

/-- Texts are put together when there are all, and otherwise one of them fails. -/
theorem lines_cases (first : Except Url.Defect String) (others : List (Except Url.Defect String)) :
    (∃ s, lines first others = .ok s ∧ ∀ x ∈ first :: others, ∃ s, x = .ok s) ∨
      ∃ x ∈ first :: others, ∃ d, x = .error d ∧ lines first others = .error d := by
  rw [lines]
  rcases mapM_cases id (first :: others) with ⟨texts, htexts, hall⟩ | ⟨x, hx, d, hd, hfail⟩
  · exact .inl ⟨_, by rw [htexts]; rfl, hall⟩
  · exact .inr ⟨x, hx, d, hd, by rw [hfail]; rfl⟩

/-- Whether a text is the type of a problem or of one within it. -/
def HasType (p : Problem) (t : String) : Prop :=
  ∃ q, IsPart q p ∧ q.members.get "type" = .string t

theorem hasType_iff {t : String} :
    p.HasType t ↔ p.members.get "type" = .string t ∨ ∃ q ∈ p.inner, q.HasType t := by
  constructor
  · rintro ⟨q, hq, ht⟩
    cases hq with
    | self => exact .inl ht
    | within hm hq => exact .inr ⟨_, hm, q, hq, ht⟩
  · rintro (ht | ⟨m, hm, q, hq, ht⟩)
    · exact ⟨p, .self, ht⟩
    · exact ⟨q, .within hm hq, ht⟩

/-- The text can be told when all types can be resolved; otherwise it fails as one of them does. The
induction goes down to the problems within. -/
theorem text_cases (p : Problem) :
    (∃ s, p.text = .ok s ∧ ∀ t, p.HasType t → ∃ u, resolve p.baseUrl t = .ok u) ∨
      ∃ t d, p.HasType t ∧ resolve p.baseUrl t = .error d ∧ p.text = .error d := by
  have hinner : ∀ q ∈ p.inner,
      (∃ s, q.text = .ok s ∧ ∀ t, q.HasType t → ∃ u, resolve q.baseUrl t = .ok u) ∨
        ∃ t d, q.HasType t ∧ resolve q.baseUrl t = .error d ∧ q.text = .error d :=
    fun q hq => text_cases q
  rw [text_eq]
  rcases lines_cases (heading p.baseUrl p.members) (p.inner.map text) with
    ⟨s, hs, hall⟩ | ⟨x, hx, d, hd, hfail⟩
  · refine .inl ⟨s, hs, fun t ht => ?_⟩
    obtain ⟨hfirst, hothers⟩ := List.forall_mem_cons.1 hall
    rcases hasType_iff.1 ht with ht | ⟨q, hq, ht⟩
    · obtain ⟨_, -, hresolve⟩ | ⟨t', d, -, -, hfail⟩ := heading_cases p
      · exact hresolve t ht
      · obtain ⟨s', hs'⟩ := hfirst
        cases hfail.symm.trans hs'
    · obtain ⟨_, -, hresolve⟩ | ⟨t', d, -, -, hfail⟩ := hinner q hq
      · exact (mem_inner.1 hq).1 ▸ hresolve t ht
      · obtain ⟨s', hs'⟩ := hothers _ (List.mem_map_of_mem hq)
        cases hfail.symm.trans hs'
  · subst hd
    refine .inr ?_
    rcases List.mem_cons.1 hx with hx | hx
    · obtain ⟨s, hs, -⟩ | ⟨t, d', ht, hresolve, hfail'⟩ := heading_cases p
      · cases hx.trans hs
      · cases hx.trans hfail'
        exact ⟨t, d, hasType_iff.2 (.inl ht), hresolve, hfail⟩
    · obtain ⟨q, hq, hx⟩ := List.mem_map.1 hx
      obtain ⟨s, hs, -⟩ | ⟨t, d', ht, hresolve, hfail'⟩ := hinner q hq
      · cases hx.symm.trans hs
      · cases hx.symm.trans hfail'
        exact ⟨t, d, hasType_iff.2 (.inr ⟨q, hq, ht⟩), (mem_inner.1 hq).1 ▸ hresolve, hfail⟩
termination_by sizeOf p.members
decreasing_by exact sizeOf_inner_lt hq

/-- Whether the references in a problem are resolved against nothing, or against a URL of the web. -/
def IsOfWeb (p : Problem) : Prop :=
  ∀ u, p.baseUrl = some u → ∃ parts, Url.split u = .ok parts ∧
    (parts.scheme = "http".toList ∨ parts.scheme = "https".toList)

/-- Against a URL of the web, a reference cannot be resolved exactly when it cannot be taken apart. -/
theorem resolve_eq_error_iff {t : String} {d : Url.Defect} (hweb : p.IsOfWeb) :
    resolve p.baseUrl t = .error d ↔ p.baseUrl ≠ none ∧ Url.split t = .error d := by
  cases hu : p.baseUrl with
  | none => simp [resolve]
  | some u =>
    obtain ⟨parts, hparts, hscheme⟩ := hweb u hu
    have hne : u ≠ "" := by
      rintro rfl
      cases hparts
      rcases hscheme with h | h <;> cases h
    rw [resolve, Url.join_eq_error_iff hparts hne]
    simp

/-- A text that cannot be told fails as a type does that cannot be taken apart. -/
theorem hasType_of_text (hweb : p.IsOfWeb) {d : Url.Defect} (h : p.text = .error d) :
    p.baseUrl ≠ none ∧ ∃ t, p.HasType t ∧ Url.split t = .error d := by
  obtain ⟨s, hs, -⟩ | ⟨t, d', ht, hresolve, hfail⟩ := text_cases p
  · cases h.symm.trans hs
  · cases h.symm.trans hfail
    obtain ⟨hbase, hsplit⟩ := (resolve_eq_error_iff hweb).1 hresolve
    exact ⟨hbase, t, ht, hsplit⟩

/-- With a base URL, the types of a problem whose text can be told can be taken apart. -/
theorem split_of_text (hweb : p.IsOfWeb) (hbase : p.baseUrl ≠ none) {s t : String}
    (h : p.text = .ok s) (ht : p.HasType t) : ∃ parts, Url.split t = .ok parts := by
  obtain ⟨s', -, hresolve⟩ | ⟨t', d, -, -, hfail⟩ := text_cases p
  · obtain ⟨u, hu⟩ := hresolve t ht
    cases hsplit : Url.split t with
    | ok parts => exact ⟨parts, rfl⟩
    | error d => cases ((resolve_eq_error_iff hweb).2 ⟨hbase, hsplit⟩).symm.trans hu
  · cases h.symm.trans hfail

theorem exists_text_iff (hweb : p.IsOfWeb) : (∃ s, p.text = .ok s) ↔
    p.baseUrl = none ∨ ∀ t, p.HasType t → ∃ parts, Url.split t = .ok parts := by
  constructor
  · rintro ⟨s, hs⟩
    by_cases hbase : p.baseUrl = none
    · exact .inl hbase
    · exact .inr fun t ht => split_of_text hweb hbase hs ht
  · intro h
    cases htext : p.text with
    | ok s => exact ⟨s, rfl⟩
    | error d =>
      obtain ⟨hbase, t, ht, hsplit⟩ := hasType_of_text hweb htext
      obtain ⟨parts, hparts⟩ := h.resolve_left hbase t ht
      cases hsplit.symm.trans hparts

end Problem

/-- A refusal without a problem says what it was made with. -/
theorem Rejection.exists_text {x : Rejection} (h : x.problem = none) : ∃ s, x.text = .ok s := by
  rw [Rejection.text, h]
  cases x.words with
  | none => exact ⟨_, rfl⟩
  | some w => exact ⟨w, rfl⟩

namespace Problem

/-- **The text of a problem can be told when its types can be taken apart.** For a problem without a
base URL, or with one of the web, that is the only way to fail, whatever its other members are and
however deep problems are within it: the text can be told exactly when each text that is the type of
the problem or of one within it can be taken apart as a URL, and otherwise it fails as one of them
does. So it can be told whenever no type has brackets or characters that are mistaken for delimiters.
The text of a refusal is that of its problem, and it can always be told without one. -/
theorem text_is_told_iff (p : Problem) (hweb : p.IsOfWeb) :
    ((∃ s, p.text = .ok s) ↔
      p.baseUrl = none ∨ ∀ t, p.HasType t → ∃ parts, Url.split t = .ok parts) ∧
    (∀ d, p.text = .error d → ∃ t, p.HasType t ∧ Url.split t = .error d) ∧
    ((∀ t, p.HasType t → ∀ c ∈ t.toList, Url.isHarmless c = true) → ∃ s, p.text = .ok s) ∧
    (∀ x : Rejection, x.problem = some p →
      x.text = p.text ∧ (Fault.rejected x).message? = p.text.toOption) ∧
    ∀ x : Rejection, x.problem = none → ∃ s, x.text = .ok s := by
  refine ⟨exists_text_iff hweb, fun d hd => (hasType_of_text hweb hd).2, fun hharmless => ?_,
    fun x hx => ?_, fun x => x.exists_text⟩
  · exact (exists_text_iff hweb).2 (.inr fun t ht => Url.split_of_harmless (hharmless t ht))
  · have htext : x.text = p.text := by rw [Rejection.text, hx]
    exact ⟨htext, congrArg Except.toOption htext⟩

/-- A type whose bracket is not closed, two levels down, leaves a problem and its refusal without a
text. -/
theorem text_is_told_iff_brackets :
    let p : Problem := ⟨[("type", .string "urn:ietf:params:acme:error:compound"),
      ("subproblems", .array [.null, .object [("subproblems",
        .array [.object [("type", .string "http://[")]])]])], some "https://acme.test/x"⟩
    p.IsOfWeb ∧ p.HasType "http://[" ∧ (¬ ∃ s, p.text = .ok s) ∧
      (Fault.rejected ⟨.plain, some p, some 400, none⟩).message? = none := by
  intro p
  have hweb : p.IsOfWeb := by
    rintro u ⟨⟩
    exact ⟨_, rfl, .inr rfl⟩
  have htype : p.HasType "http://[" := by
    refine hasType_iff.2 (.inr ⟨⟨[("subproblems", _)], some "https://acme.test/x"⟩,
      mem_inner.2 ⟨rfl, _, rfl, List.mem_cons_of_mem _ List.mem_cons_self⟩, ?_⟩)
    exact hasType_iff.2 (.inr ⟨⟨[("type", .string "http://[")], some "https://acme.test/x"⟩,
      mem_inner.2 ⟨rfl, _, rfl, List.mem_cons_self⟩, hasType_iff.2 (.inl rfl)⟩)
  obtain ⟨htold, -, -, hrefusal, -⟩ := text_is_told_iff p hweb
  have hnone : ¬ ∃ s, p.text = .ok s := by
    rw [htold]
    rintro (h | h)
    · cases h
    · obtain ⟨parts, hparts⟩ := h _ htype
      cases hparts
  refine ⟨hweb, htype, hnone, (hrefusal _ rfl).2.trans ?_⟩
  cases htext : p.text with
  | error d => rfl
  | ok s => exact absurd ⟨s, htext⟩ hnone

end Problem

end AcmeClient
