import AcmeClient.Proofs.Accessors
import AcmeClient.Proofs.Identity
import AcmeClient.Resource.Certificate

/-!
# Where resources are placed

A resource is made at a location that is given, or without one. A challenge without a location takes
the URL that its document names:

* `IsAcceptable` and `BindsOnce` — locations that pass, and what may become of one;
* `Members.NamesUrl` — the URL that a document names, by one of two names;
* `Resource.load_location` — what a document makes of the location;
* `Resource.IsPlacedBy` — the location of a resource that was just made.
-/

namespace AcmeClient

/-! ### Locations that are given -/

/-- Whether a location is none or passes as one that is given. -/
def IsAcceptable (location : Option String) : Prop :=
  ∀ u, location = some u → checkUrl (.string u) "location" = .ok u

/-- Whether a location stays, or is found where there was none. -/
def BindsOnce (old new : Option String) : Prop :=
  new = old ∨ old = none ∧ IsAcceptable new

theorem BindsOnce.stays {old new : Option String} {u : String} (h : BindsOnce old new)
    (hold : old = some u) : new = some u := by
  rcases h with rfl | ⟨hnone, -⟩
  · exact hold
  · rw [hnone] at hold
    cases hold

theorem BindsOnce.isAcceptable {old new : Option String} (h : BindsOnce old new)
    (hold : IsAcceptable old) : IsAcceptable new := by
  rcases h with rfl | ⟨-, hnew⟩
  · exact hold
  · exact hnew

theorem isAcceptable_some {u : String} :
    IsAcceptable (some u) ↔ checkUrl (.string u) "location" = .ok u := by
  constructor
  · exact fun h => h u rfl
  · rintro h v ⟨⟩
    exact h

/-- What is bound is a URL that is given, and the one that there was. -/
theorem of_bound {kind : String} {old : Option String} {location : Json} {u : String}
    (h : bound kind old location = .ok u) : location = .string u ∧ BindsOnce old (some u) := by
  obtain ⟨v, hcheck, hold⟩ := bind_eq_ok.1 h
  obtain ⟨rfl, -⟩ := checkUrl_eq_ok.1 hcheck
  cases old with
  | none =>
    cases hold
    exact ⟨rfl, .inr ⟨rfl, isAcceptable_some.2 hcheck⟩⟩
  | some o =>
    dsimp only at hold
    split at hold
    · rename_i ho
      cases hold
      exact ⟨rfl, .inl (congrArg some ho.symm)⟩
    · cases hold

/-! ### Locations that documents name -/

/-- Whether a document names a URL: by the one name, or by the other where the first is missing. -/
def Members.NamesUrl (ms : Members) (u : String) : Prop :=
  ms.get "url" = .string u ∨ ms.get "url" = .null ∧ ms.get "uri" = .string u

def ResourceKind.IsChallenge (k : ResourceKind) : Prop :=
  ∃ v, k = .challenge v

/-- The URL of a challenge is the one that its document names. -/
theorem ResourceKind.challengeUrl_eq_some {ms : Members} {url : Option String}
    (h : challengeUrl ms = .ok url) (u : String) : url = some u ↔ ms.NamesUrl u := by
  obtain ⟨first, hfirst, h⟩ := bind_eq_ok.1 h
  obtain ⟨hnull, rfl⟩ | ⟨v, hv, -, rfl⟩ := Field.url?_eq_ok.1 hfirst
  · have hvalue : ms.get "url" = .null := hnull
    obtain ⟨hnull', rfl⟩ | ⟨v, hv, -, rfl⟩ := Field.url?_eq_ok.1 h
    · have hvalue' : ms.get "uri" = .null := hnull'
      simp [Members.NamesUrl, hvalue, hvalue']
    · have hvalue' : ms.get "uri" = .string v := hv
      simp [Members.NamesUrl, hvalue, hvalue']
  · have hvalue : ms.get "url" = .string v := hv
    cases h
    simp [Members.NamesUrl, hvalue]

/-- A document that names an absolute URL gives it to a challenge. -/
theorem ResourceKind.challengeUrl_of_namesUrl {ms : Members} {u : String} (h : ms.NamesUrl u)
    (hu : isAbsolute u = .ok true) : challengeUrl ms = .ok (some u) := by
  have hurl : ∀ f : Field, f.value = .string u → f.url? = .ok (some u) := fun f hf =>
    Field.url?_eq_ok.2 (.inr ⟨u, hf, hu, rfl⟩)
  obtain hfirst | ⟨hnone, hsecond⟩ := h
  · rw [challengeUrl, hurl (ms.field "url") hfirst]
    rfl
  · have hmissing : (ms.field "url").url? = .ok none := Field.url?_eq_ok.2 (.inl ⟨hnone, rfl⟩)
    rw [challengeUrl, hmissing, ok_bind, hurl (ms.field "uri") hsecond]

namespace Resource

variable {r r₁ : Resource} {ms : Members}

/-- The location of a resource with a document is the one that the document gives, or else the one
that there was. -/
theorem load_location (h : r.load ms = .ok r₁) :
    ∃ url, r.urlFor ms = .ok url ∧ r₁.location = url.or r.location := by
  obtain ⟨url, hurl, h⟩ := bind_eq_ok.1 h
  obtain ⟨_, -, h⟩ := bind_eq_ok.1 h
  refine ⟨url, hurl, ?_⟩
  cases url with
  | none =>
    cases h
    rfl
  | some u =>
    obtain ⟨hlocation, habsolute⟩ := location_of_urlFor hurl
    have hbind := bindTo_of_isAbsolute (r := { r with body := ms }) hlocation habsolute
    cases hbind.symm.trans h
    rfl

/-- A document binds once. -/
theorem bindsOnce_load (h : r.load ms = .ok r₁) : BindsOnce r.location r₁.location := by
  obtain ⟨url, hurl, hlocation⟩ := load_location h
  cases url with
  | none => exact .inl hlocation
  | some u =>
    obtain ⟨hnone, habsolute⟩ := location_of_urlFor hurl
    refine .inr ⟨hnone, ?_⟩
    rw [hlocation]
    exact isAcceptable_some.2 (checkUrl_eq_ok.2 ⟨rfl, habsolute⟩)

/-- A resource without a location takes the URL that the document of a challenge names. -/
theorem location_of_load_unplaced (hr : r.location = none) (h : r.load ms = .ok r₁) (u : String) :
    r₁.location = some u ↔ r.kind.IsChallenge ∧ ms.NamesUrl u := by
  obtain ⟨url, hurl, hlocation⟩ := load_location h
  rw [hr, Option.or_none] at hlocation
  rw [hlocation]
  obtain ⟨kind, location, body, retryAfter⟩ := r
  obtain rfl : location = none := hr
  cases kind with
  | challenge v =>
    rw [ResourceKind.challengeUrl_eq_some hurl]
    exact ⟨fun hnames => ⟨⟨v, rfl⟩, hnames⟩, And.right⟩
  | document | account | order | authorization =>
    cases hurl
    constructor
    · intro hu
      cases hu
    · rintro ⟨⟨v, hv⟩, -⟩
      cases hv

/-- A challenge without a location takes every document that names an absolute URL and that its kind
does not refuse. -/
theorem load_of_namesUrl {u : String} (hr : r.location = none) (hkind : r.kind.IsChallenge)
    (hnames : ms.NamesUrl u) (hu : isAbsolute u = .ok true) :
    r.load ms = (r.kind.check ms).map fun _ => { r with location := some u, body := ms } := by
  obtain ⟨kind, location, body, retryAfter⟩ := r
  obtain rfl : location = none := hr
  obtain ⟨v, rfl⟩ := hkind
  have hurl : urlFor ⟨.challenge v, none, body, retryAfter⟩ ms = .ok (some u) :=
    ResourceKind.challengeUrl_of_namesUrl hnames hu
  have hbind := bindTo_of_isAbsolute (r := ⟨.challenge v, none, ms, retryAfter⟩) rfl hu
  cases hc : (ResourceKind.challenge v).check ms with
  | error e => simp [load, hurl, hc, Except.map]
  | ok _ => simp [load, hurl, hc, hbind, Except.map]

/-- The location of a resource that is made: a URL that is given, or without one the URL that the
document of a challenge names. -/
structure IsPlacedBy (made : Resource) (kind : ResourceKind) (location : Json)
    (body : Option Members) : Prop where
  given : location ≠ .null → ∃ u, location = .string u ∧ made.location = some u
  named : location = .null → ∀ u, made.location = some u ↔
    kind.IsChallenge ∧ ∃ ms, body = some ms ∧ ms.NamesUrl u

variable {kind : ResourceKind} {location : Json} {body : Option Members} {made : Resource}

/-- A resource that is placed is loaded with the document that is given, if there is one. -/
theorem loaded_of_body {placed : Resource}
    (h : (match body with | some ms => placed.load ms | none => pure placed) = .ok made) :
    body = none ∧ made = placed ∨ ∃ ms, body = some ms ∧ placed.load ms = .ok made := by
  cases body with
  | none =>
    cases h
    exact .inl ⟨rfl, rfl⟩
  | some ms => exact .inr ⟨ms, rfl, h⟩

/-- A resource is placed first, and loaded after that. -/
theorem make_cases (h : make kind location body = .ok made) :
    ∃ placed : Resource, placed.kind = kind ∧
      (location = .null ∧ placed.location = none ∨
        ∃ u, location = .string u ∧ placed.location = some u ∧ IsAcceptable (some u)) ∧
      (body = none ∧ made = placed ∨ ∃ ms, body = some ms ∧ placed.load ms = .ok made) := by
  cases location with
  | null => exact ⟨⟨kind, none, [], none⟩, rfl, .inl ⟨rfl, rfl⟩, loaded_of_body h⟩
  | _ =>
    obtain ⟨placed, hplaced, hload⟩ := bind_eq_ok.1 h
    obtain ⟨u, hbound, hplaced⟩ := bind_eq_ok.1 hplaced
    cases hplaced
    obtain ⟨hu, hbinds⟩ := of_bound hbound
    exact ⟨_, rfl, .inr ⟨u, hu, rfl, hbinds.isAcceptable nofun⟩, loaded_of_body hload⟩

theorem isPlacedBy_of_make (h : make kind location body = .ok made) :
    made.IsPlacedBy kind location body := by
  obtain ⟨placed, rfl, hlocation, hbody⟩ := make_cases h
  refine ⟨fun hgiven => ?_, fun hnull u => ?_⟩
  · obtain ⟨hnull, -⟩ | ⟨u, hu, hplaced, -⟩ := hlocation
    · exact absurd hnull hgiven
    · refine ⟨u, hu, ?_⟩
      obtain ⟨-, rfl⟩ | ⟨ms, -, hload⟩ := hbody
      · exact hplaced
      · exact location_of_load hplaced hload
  · obtain ⟨-, hplaced⟩ | ⟨v, hv, -⟩ := hlocation
    · obtain ⟨rfl, rfl⟩ | ⟨ms, rfl, hload⟩ := hbody
      · simp [hplaced]
      · simp [location_of_load_unplaced hplaced hload]
    · rw [hnull] at hv
      cases hv

theorem isAcceptable_of_make (h : make kind location body = .ok made) :
    IsAcceptable made.location := by
  obtain ⟨placed, -, hlocation, hbody⟩ := make_cases h
  have hplaced : IsAcceptable placed.location := by
    obtain ⟨-, hnone⟩ | ⟨u, -, hu, haccept⟩ := hlocation
    · rw [hnone]
      exact nofun
    · rw [hu]
      exact haccept
  obtain ⟨-, rfl⟩ | ⟨ms, -, hload⟩ := hbody
  · exact hplaced
  · exact (bindsOnce_load hload).isAcceptable hplaced

end Resource

namespace CertificateResource

theorem isAcceptable_of_make {location : Json} {made : CertificateResource}
    (h : make location = .ok made) : IsAcceptable made.location := by
  cases location with
  | null =>
    cases h
    exact nofun
  | _ =>
    obtain ⟨u, hbound, hmade⟩ := bind_eq_ok.1 h
    cases hmade
    exact (of_bound hbound).2.isAcceptable nofun

end CertificateResource

namespace BareResource

theorem isAcceptable_of_make {location : Json} {made : BareResource}
    (h : make location = .ok made) : IsAcceptable made.location := by
  cases location with
  | null =>
    cases h
    exact nofun
  | _ =>
    obtain ⟨u, hbound, hmade⟩ := bind_eq_ok.1 h
    cases hmade
    exact (of_bound hbound).2.isAcceptable nofun

end BareResource

end AcmeClient
