import AcmeClient.Proofs.Listings
import AcmeClient.Proofs.Loaded

/-!
# Challenges by type

An authorization lists its challenges. Each entry of the list is a document with a type, and the type
decides which variant of challenges reads it:

* `Json.typeText?` — the type in an entry;
* `Members.Places` — the location that a document gives to a challenge;
* `Resource.IsChallengeOf` and `Resource.challengeOf_eq_ok` — the challenge that an entry describes is
  what is made of it;
* `Resource.challengeOf_of_typeText?` — an entry without a type breaks the protocol;
* `Resource.firstOfType_eq` — a challenge is found by the type in its document;
* `Resource.challenges_follow_types` — all challenges of an authorization, and the search for one.
-/

namespace AcmeClient

/-! ### What an entry says -/

/-- The type in an entry: that of an object with a text for it. -/
def Json.typeText? : Json → Option String
  | .object ms => (Members.get ms "type").string?
  | _ => none

/-- Whether a location is the one that a document gives to a challenge: the absolute URL that it names,
or none when it has neither of the two members. One that is `null` counts as missing. -/
inductive Members.Places (ms : Members) : Option String → Prop where
  | named {u : String} : ms.NamesUrl u → isAbsolute u = .ok true → Places ms (some u)
  | unnamed : ms.get "url" = .null → ms.get "uri" = .null → Places ms none

namespace Resource

/-- Whether a resource is the challenge that an entry describes: its document is the entry, its variant
the one for the type, and it is placed where the document says. -/
structure IsChallengeOf (registry : Registry) (j : Json) (c : Resource) : Prop where
  body : j = .object c.body
  variant : ∃ t, j.typeText? = some t ∧ c.kind = .challenge ((registry.get? t).getD .plain)
  placed : c.body.Places c.location
  retryAfter : c.retryAfter = none

end Resource

/-! ### Reading an entry -/

theorem Json.string?_eq_some {j : Json} {s : String} : j.string? = some s ↔ j = .string s := by
  cases j <;> simp [Json.string?]

theorem Json.typeText?_eq_some {j : Json} {t : String} :
    j.typeText? = some t ↔ ∃ ms, j = .object ms ∧ Members.get ms "type" = .string t := by
  cases j <;> simp [Json.typeText?, Json.string?_eq_some]

theorem Field.required_eq_ok {f g : Field} : f.required = .ok g ↔ f.value ≠ .null ∧ g = f := by
  cases hv : f.value <;> simp [required, isPresent, hv, Json.isNull, eq_comm]

namespace ResourceKind

variable {ms : Members}

theorem typeIn_eq_ok {t : String} : typeIn ms = .ok t ↔ ms.get "type" = .string t := by
  rw [typeIn, bind_eq_ok]
  constructor
  · rintro ⟨text, htext, h⟩
    obtain ⟨-, rfl⟩ | ⟨s, hs, rfl⟩ := Field.string?_eq_ok.1 htext
    · cases h
    · cases h
      exact hs
  · intro h
    exact ⟨some t, Field.string?_eq_ok.2 (.inr ⟨t, h, rfl⟩), rfl⟩

/-- The URL of a challenge is read where the document places it. -/
theorem challengeUrl_eq_ok {location : Option String} :
    challengeUrl ms = .ok location ↔ ms.Places location := by
  constructor
  · intro h
    cases location with
    | some u => exact .named ((challengeUrl_eq_some h u).1 rfl) (isAbsolute_of_challengeUrl h)
    | none =>
      obtain ⟨first, hfirst, h⟩ := bind_eq_ok.1 h
      obtain ⟨hnull, rfl⟩ | ⟨u, -, -, rfl⟩ := Field.url?_eq_ok.1 hfirst
      · obtain ⟨hnull', -⟩ | ⟨u, -, -, hu⟩ := Field.url?_eq_ok.1 h
        · exact .unnamed hnull hnull'
        · cases hu
      · cases h
  · rintro (⟨hnames, hu⟩ | ⟨hurl, huri⟩)
    · exact challengeUrl_of_namesUrl hnames hu
    · have hfirst : (ms.field "url").url? = .ok none := Field.url?_eq_ok.2 (.inl ⟨hurl, rfl⟩)
      rw [challengeUrl, hfirst]
      exact Field.url?_eq_ok.2 (.inl ⟨huri, rfl⟩)

/-- The variant for a type accepts a document with the type. -/
theorem check_variant {t : String} (registry : Registry) (ht : typeIn ms = .ok t) :
    (ResourceKind.challenge ((registry.get? t).getD .plain)).check ms = .ok () := by
  cases hv : registry.get? t with
  | none => simp [check, ht, Variant.plain]
  | some v => simp [check, ht, Registry.typ_of_get? hv]

end ResourceKind

namespace Resource

variable {registry : Registry} {f : Field} {c : Resource}

/-- A document with a type is made a challenge of the variant for the type, if it places it. -/
theorem fromDocument_of_typeIn {ms : Members} {t : String} (registry : Registry)
    (ht : ResourceKind.typeIn ms = .ok t) :
    fromDocument (.challenge .plain) registry ms = (ResourceKind.challengeUrl ms).map fun location =>
      ⟨.challenge ((registry.get? t).getD .plain), location, ms, none⟩ := by
  have hcheck := ResourceKind.check_variant registry ht
  have hkind : (ResourceKind.challenge .plain).forDocument registry ms
      = .ok (.challenge ((registry.get? t).getD .plain)) := by
    rw [ResourceKind.forDocument, ht]
    rfl
  generalize (registry.get? t).getD .plain = v at *
  have hmade : fromDocument (.challenge .plain) registry ms
      = (⟨.challenge v, none, [], none⟩ : Resource).load ms := by
    rw [fromDocument, hkind]
    rfl
  have hurlFor : urlFor ⟨.challenge v, none, [], none⟩ ms = ResourceKind.challengeUrl ms := rfl
  rw [hmade, load, hurlFor]
  cases hurl : ResourceKind.challengeUrl ms with
  | error e => rfl
  | ok url =>
    cases url with
    | none => simp [hcheck, Except.map]
    | some u =>
      have hbind := bindTo_of_isAbsolute (r := ⟨.challenge v, none, ms, none⟩) rfl
        (isAbsolute_of_challengeUrl hurl)
      simp [hcheck, hbind, Except.map]

/-- An entry with a type is made a challenge when its document places it. -/
theorem challengeOf_of_object {ms : Members} {t : String} (registry : Registry)
    (hf : f.value = .object ms) (ht : ms.get "type" = .string t) :
    challengeOf registry f = (ResourceKind.challengeUrl ms).map fun location =>
      ⟨.challenge ((registry.get? t).getD .plain), location, ms, none⟩ := by
  have hthere : f.required = .ok f := Field.required_eq_ok.2 ⟨by simp [hf], rfl⟩
  have hobject : f.object? = .ok (some ms) := Field.object?_eq_ok.2 (.inr ⟨ms, hf, rfl⟩)
  have htype : (ms.field "type").required = .ok (ms.field "type") :=
    Field.required_eq_ok.2 ⟨by simp [Members.field, ht], rfl⟩
  simp [challengeOf, hthere, hobject, htype,
    fromDocument_of_typeIn registry (ResourceKind.typeIn_eq_ok.2 ht)]

/-- A document whose type is no text is made no challenge. -/
theorem typeIn_of_string? {ms : Members} (h : (ms.get "type").string? = none)
    (hthere : ms.get "type" ≠ .null) :
    ResourceKind.typeIn ms = .error (.protocol (.field "type" .string (ms.get "type") none)) := by
  cases htype : ms.get "type" with
  | null => exact absurd htype hthere
  | string s =>
    rw [htype] at h
    cases h
  | _ => simp [ResourceKind.typeIn, Members.field, Field.string?, Field.refuse, htype]

/-- An entry that is no object with a text for its type breaks the protocol. -/
theorem challengeOf_of_typeText? (registry : Registry) (h : f.value.typeText? = none) :
    ∃ d, challengeOf registry f = .error (.protocol d) := by
  by_cases hnull : f.value = .null
  · exact ⟨.missing f.path, by
      simp [challengeOf, Field.required, Field.isPresent, hnull, Json.isNull]⟩
  have hthere : f.required = .ok f := Field.required_eq_ok.2 ⟨hnull, rfl⟩
  cases hf : f.value with
  | null => exact absurd hf hnull
  | object members =>
    obtain ⟨ms, rfl⟩ : ∃ ms : Members, ms = members := ⟨_, rfl⟩
    rw [hf] at h
    have hobject : f.object? = .ok (some ms) := Field.object?_eq_ok.2 (.inr ⟨ms, hf, rfl⟩)
    by_cases htype : ms.get "type" = .null
    · have hfield : (ms.field "type").required = .error (.protocol (.missing "type")) := by
        simp [Members.field, Field.required, Field.isPresent, htype, Json.isNull]
      exact ⟨.missing "type", by simp [challengeOf, hthere, hobject, hfield]⟩
    · have hfield : (ms.field "type").required = .ok (ms.field "type") :=
        Field.required_eq_ok.2 ⟨htype, rfl⟩
      exact ⟨.field "type" .string (ms.get "type") none, by
        simp [challengeOf, hthere, hobject, hfield, fromDocument, ResourceKind.forDocument,
          typeIn_of_string? h htype]⟩
  | _ =>
    exact ⟨.field f.path .object f.value none, by
      simp [challengeOf, hthere, Field.object?, Field.refuse, hf]⟩

/-- The challenge that an entry describes is what is made of the entry. -/
theorem challengeOf_eq_ok : challengeOf registry f = .ok c ↔ IsChallengeOf registry f.value c := by
  cases htext : f.value.typeText? with
  | none =>
    obtain ⟨d, hd⟩ := challengeOf_of_typeText? registry htext
    rw [hd]
    refine ⟨nofun, fun h => ?_⟩
    obtain ⟨t, ht, -⟩ := h.variant
    rw [htext] at ht
    cases ht
  | some t =>
    obtain ⟨ms, hms, ht⟩ := Json.typeText?_eq_some.1 htext
    rw [challengeOf_of_object registry hms ht, map_eq_ok]
    constructor
    · rintro ⟨location, hlocation, rfl⟩
      exact ⟨hms, ⟨t, htext, rfl⟩, ResourceKind.challengeUrl_eq_ok.1 hlocation, rfl⟩
    · rintro ⟨hbody, ⟨t', ht', hkind⟩, hplaced, hretry⟩
      obtain ⟨kind, location, body, retryAfter⟩ := c
      obtain rfl : ms = body := Json.object.inj (hms.symm.trans hbody)
      obtain rfl : t = t' := Option.some.inj (htext.symm.trans ht')
      obtain rfl := hkind
      obtain rfl := hretry
      exact ⟨location, ResourceKind.challengeUrl_eq_ok.2 hplaced, rfl⟩

/-! ### Reading the list -/

/-- The challenges are read when each entry describes one. -/
theorem challenges_eq_ok {r : Resource} {cs : List Resource} :
    r.challenges registry = .ok cs ↔
      ((r.field "challenges").value = .null ∧ cs = []) ∨
        ∃ items, (r.field "challenges").value = .array items ∧
          List.Forall₂ (IsChallengeOf registry) items cs := by
  have hentries : ∀ items, (r.field "challenges").value = .array items →
      ((r.field "challenges").entries.mapM (challengeOf registry) = .ok cs ↔
        List.Forall₂ (IsChallengeOf registry) items cs) := by
    intro items hitems
    simp only [mapM_eq_ok, challengeOf_eq_ok]
    rw [← Field.map_value_entries hitems, List.forall₂_map_left_iff]
  rw [challenges, bind_eq_ok]
  constructor
  · rintro ⟨fields, hfields, h⟩
    obtain ⟨rfl, hnull | ⟨items, hitems⟩⟩ := Field.array_eq_ok.1 hfields
    · rw [Field.entries, hnull] at h
      cases h
      exact .inl ⟨hnull, rfl⟩
    · exact .inr ⟨items, hitems, (hentries items hitems).1 h⟩
  · rintro (⟨hnull, rfl⟩ | ⟨items, hitems, h⟩)
    · refine ⟨_, Field.array_eq_ok.2 ⟨rfl, .inl hnull⟩, ?_⟩
      rw [Field.entries, hnull]
      rfl
    · exact ⟨_, Field.array_eq_ok.2 ⟨rfl, .inr ⟨items, hitems⟩⟩, (hentries items hitems).2 h⟩

/-- An entry without a type breaks the protocol when all entries before it describe challenges. -/
theorem challenges_of_typeText? {r : Resource} {before after : List Json} {j : Json}
    (hitems : (r.field "challenges").value = .array (before ++ j :: after))
    (hbefore : ∀ x ∈ before, ∃ c, IsChallengeOf registry x c) (hj : j.typeText? = none) :
    ∃ d, r.challenges registry = .error (.protocol d) := by
  have hvalues := Field.map_value_entries hitems
  obtain ⟨front, rest, hentries, rfl, hrest⟩ := List.map_eq_append_iff.1 hvalues
  obtain ⟨entry, back, rfl, rfl, rfl⟩ := List.map_eq_cons_iff.1 hrest
  obtain ⟨d, hd⟩ := challengeOf_of_typeText? registry hj
  have hfront : ∀ g ∈ front, ∃ c, challengeOf registry g = .ok c := fun g hg =>
    (hbefore g.value (List.mem_map_of_mem hg)).imp fun c => challengeOf_eq_ok.2
  have harray : (r.field "challenges").array = .ok (r.field "challenges").entries :=
    Field.array_eq_ok.2 ⟨rfl, .inr ⟨_, hitems⟩⟩
  exact ⟨d, by rw [challenges, harray, ok_bind, hentries, mapM_of_error hfront hd]⟩

/-! ### The search for a type -/

/-- A challenge has the type in its document, unless that is empty; then it has none that is not. -/
theorem challengeType_of_isChallengeOf {j : Json} (h : IsChallengeOf registry j c) {t : String}
    (hne : t ≠ "") :
    ∃ typ, c.challengeType = .ok typ ∧ (typ = some t ↔ j.typeText? = some t) := by
  obtain ⟨s, hs, hkind⟩ := h.variant
  have hbody := h.body
  subst hbody
  obtain ⟨ms, hms, htype⟩ := Json.typeText?_eq_some.1 hs
  obtain rfl := Json.object.inj hms
  have hstring : (c.field "type").string? = .ok (some s) :=
    Field.string?_eq_ok.2 (.inr ⟨s, htype, rfl⟩)
  refine ⟨if s = "" then c.variant?.bind Variant.typ else some s, ?_, ?_⟩
  · rw [challengeType, hstring]
    rfl
  · rw [hs]
    split
    · rename_i hempty
      subst hempty
      -- the variant for the empty type has that type, and a plain one has none
      have hvariant : c.variant?.bind Variant.typ = ((registry.get? "").getD .plain).typ := by
        rw [variant?, hkind]
        rfl
      rw [hvariant]
      cases hv : registry.get? "" with
      | none => simp [Variant.plain, Ne.symm hne]
      | some v => simp [Registry.typ_of_get? hv]
    · rfl

/-- The first challenge of a type is the first one with the type in its document. -/
theorem firstOfType_eq {entries : List Json} {cs : List Resource}
    (h : List.Forall₂ (IsChallengeOf registry) entries cs) {t : String} (hne : t ≠ "") :
    firstOfType (some t) cs = .ok (cs.find? fun c => (Json.object c.body).typeText? = some t) := by
  induction h with
  | nil => rfl
  | cons hc _ ih =>
    obtain ⟨typ, htyp, hiff⟩ := challengeType_of_isChallengeOf hc hne
    rw [hc.body] at hiff
    rw [firstOfType, htyp, ok_bind, ih, List.find?_cons]
    by_cases h : typ = some t
    · simp [h, hiff.1 h]
    · simp [h, mt hiff.2 h]

/-- No challenge has a type in its document when no entry has it. -/
theorem find?_typeText?_eq_none {entries : List Json} {cs : List Resource}
    (h : List.Forall₂ (IsChallengeOf registry) entries cs) (t : String) :
    (cs.find? fun c => (Json.object c.body).typeText? = some t) = none ↔
      ∀ j ∈ entries, j.typeText? ≠ some t := by
  rw [List.find?_eq_none]
  simp only [decide_eq_true_eq]
  induction h with
  | nil => simp
  | cons hc _ ih => rw [List.forall_mem_cons, List.forall_mem_cons, ih, hc.body]

/-- **Challenges follow their types.** The challenges of an authorization are read exactly when each entry
of the list describes one, and then they are one for each entry, in order: the entry is the document of
its challenge, the variant is the latest one registered for the type or else plain, and the location is
the URL that the document names, with none exactly when it has neither member for it. A search for a type
that is not empty, by its name or by a variant for it, gives the first challenge with that type in its
document, and none exactly when no entry has it. When an entry is no object with a text for its type and
all before it describe challenges, reading and every search break the protocol. -/
theorem challenges_follow_types (r : Resource) (registry : Registry) :
    (∀ cs, r.challenges registry = .ok cs ↔
      ((r.field "challenges").value = .null ∧ cs = []) ∨
        ∃ items, (r.field "challenges").value = .array items ∧
          List.Forall₂ (IsChallengeOf registry) items cs) ∧
    (∀ cs t typ, r.challenges registry = .ok cs → t ≠ "" →
      (typ = some t ∨ ∃ v ∈ registry.variants, v.typ = some t ∧ typ = v.typ) →
      r.findChallenge registry typ
          = .ok (cs.find? fun c => (Json.object c.body).typeText? = some t) ∧
        (r.findChallenge registry typ = .ok none ↔
          ∀ entry ∈ (r.field "challenges").entries, entry.value.typeText? ≠ some t)) ∧
    ∀ before j after, (r.field "challenges").value = .array (before ++ j :: after) →
      (∀ x ∈ before, ∃ c, IsChallengeOf registry x c) → j.typeText? = none →
      ∃ d, r.challenges registry = .error (.protocol d) ∧
        ∀ typ, r.findChallenge registry typ = .error (.protocol d) := by
  refine ⟨fun cs => challenges_eq_ok, fun cs t typ hcs hne htyp => ?_,
    fun before j after hitems hbefore hj => ?_⟩
  · obtain rfl : typ = some t := by
      obtain rfl | ⟨v, -, hv, rfl⟩ := htyp
      · rfl
      · exact hv
    have hforall : List.Forall₂ (IsChallengeOf registry)
        ((r.field "challenges").entries.map Field.value) cs := by
      obtain ⟨hnull, rfl⟩ | ⟨items, hitems, hforall⟩ := challenges_eq_ok.1 hcs
      · rw [Field.entries, hnull]
        exact .nil
      · rwa [Field.map_value_entries hitems]
    have hfind : r.findChallenge registry (some t)
        = .ok (cs.find? fun c => (Json.object c.body).typeText? = some t) := by
      rw [findChallenge, hcs, ok_bind, firstOfType_eq hforall hne]
    refine ⟨hfind, ?_⟩
    rw [hfind, Except.ok.injEq, find?_typeText?_eq_none hforall, List.forall_mem_map]
  · obtain ⟨d, hd⟩ := challenges_of_typeText? hitems hbefore hj
    exact ⟨d, hd, fun typ => by rw [findChallenge, hd, error_bind]⟩

/-- Two challenges of one type and an empty type: the first of the type is found, and the plain one
takes the older name of its URL. A third entry without a type leaves no challenges to find. -/
theorem challenges_follow_types_duplicate :
    let dns : Members := [("type", .string "dns-01")]
    let first : Members :=
      [("type", .string "x-01"), ("uri", .string "https://acme.test/1"), ("url", .null)]
    let second : Members := [("type", .string "x-01"), ("url", .string "https://acme.test/2")]
    let empty : Members := [("type", .string "")]
    let listing (items : List Json) : Resource :=
      ⟨.authorization, none, [("challenges", .array items)], none⟩
    let plain : Resource := ⟨.challenge .plain, some "https://acme.test/1", first, none⟩
    (listing [.object empty, .object dns, .object first, .object second]).findChallenge .standard
        (some "x-01") = .ok (some plain) ∧
      ∃ d, (listing [.object dns, .object [("url", .string "https://acme.test/3")]]).findChallenge
        .standard (some "dns-01") = .error (.protocol d) := by
  intro dns first second empty listing plain
  have habsolute : ∀ u ∈ ["https://acme.test/1", "https://acme.test/2"], isAbsolute u = .ok true := by
    intro u hu
    simp only [List.mem_cons, List.not_mem_nil, or_false] at hu
    obtain rfl | rfl := hu
    · exact eq_ok_of_toOption (by decide +kernel)
    · exact eq_ok_of_toOption (by decide +kernel)
  have hdns : IsChallengeOf .standard (.object dns) ⟨.challenge .dns, none, dns, none⟩ :=
    ⟨rfl, ⟨_, rfl, rfl⟩, .unnamed rfl rfl, rfl⟩
  have hcs := ((challenges_follow_types (listing [.object empty, .object dns, .object first,
    .object second]) .standard).1 [⟨.challenge .plain, none, empty, none⟩,
      ⟨.challenge .dns, none, dns, none⟩, plain,
      ⟨.challenge .plain, some "https://acme.test/2", second, none⟩]).2
    (.inr ⟨_, rfl, .cons ⟨rfl, ⟨_, rfl, rfl⟩, .unnamed rfl rfl, rfl⟩ (.cons hdns
      (.cons ⟨rfl, ⟨_, rfl, rfl⟩, .named (.inr ⟨rfl, rfl⟩) (habsolute _ (by simp)), rfl⟩
        (.cons ⟨rfl, ⟨_, rfl, rfl⟩, .named (.inl rfl) (habsolute _ (by simp)), rfl⟩ .nil)))⟩)
  refine ⟨((challenges_follow_types _ _).2.1 _ "x-01" (some "x-01") hcs (by decide) (.inl rfl)).1, ?_⟩
  obtain ⟨d, -, hd⟩ := (challenges_follow_types (listing [.object dns,
    .object [("url", .string "https://acme.test/3")]]) .standard).2.2 [.object dns] _ [] rfl
    (fun x hx => ⟨_, List.mem_singleton.1 hx ▸ hdns⟩) rfl
  exact ⟨d, hd (some "dns-01")⟩

end Resource

end AcmeClient
