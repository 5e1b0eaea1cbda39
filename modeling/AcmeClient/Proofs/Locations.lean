import AcmeClient.Proofs.Destinations
import AcmeClient.Proofs.Placement

/-!
# Locations are kept

A resource without a location gets one later: it is given one, or it is a challenge and takes a
document that names one. From then on the location stays, and requests for the resource go there:

* `Occasion` — an operation, with the client that does it;
* `Resource.step_cases` — what an operation may make of a resource;
* `KeepsLocation` — a location is acceptable, and stays once there is one;
* `Resource.FollowsLocation` — how a location is found, and where requests go from then on;
* `locations_are_kept` — all of this, for every resource and after any operations.
-/

namespace AcmeClient

open Act

/-! ### Operations one after the other -/

/-- An operation, the client that does it, and what surrounds the client. Anything may become of the
client from one occasion to the next. -/
structure Occasion (ω : Type) where
  environment : Environment
  client : Client
  operation : ω

namespace Loading

/-- What leaves the state as it is leaves the resource. -/
theorem leaves_of_stays {α : Type} {x : Loading α} (hx : Stays x) : x.Leaves Prod.snd :=
  fun env s => (congrArg Prod.snd (hx env s)).symm

theorem leaves_respond (b : DraftBook) : (do let _ ← respond b : Loading Unit).Leaves Prod.snd :=
  leaves_of_stays (stays_bind (stays_respond b) fun _ _ _ => rfl)

theorem leaves_orders (limit : Nat) :
    (do let _ ← orders limit : Loading Unit).Leaves Prod.snd := by
  have horders : (orders limit).Leaves Prod.snd := by
    refine leaves_bind (leaves_of_stays stays_resource) fun r => ?_
    exact leaves_bind (moves_lift Eq.refl _) fun url => moves_onFirst_snd Eq.refl _
  exact leaves_bind horders fun _ _ _ => rfl

theorem leaves_changeKey (newKey : Key) : (changeKey newKey).Leaves Prod.snd :=
  leaves_bind (leaves_of_stays stays_requireLocation) fun _ => moves_onFirst_snd Eq.refl _

end Loading

namespace Resource

def outcome (r : Resource) (o : Occasion ResourceOperation) :
    Except Fault Unit × (Client × Resource) :=
  o.operation.act.run o.environment (o.client, r)

def step (r : Resource) (o : Occasion ResourceOperation) : Resource :=
  (r.outcome o).2.2

def after (r : Resource) (os : List (Occasion ResourceOperation)) : Resource :=
  os.foldl step r

/-- An operation leaves a resource as it was, or the resource takes a document or a location. -/
theorem step_cases (r : Resource) (o : Occasion ResourceOperation) :
    r.step o = r ∨
      (∃ l ms r₁ t, o.operation = .load l ∧ r.load ms = .ok r₁ ∧
        r.step o = { r₁ with retryAfter := t }) ∨
      ∃ location, o.operation = .bindTo location ∧ r.bindTo location = .ok (r.step o) := by
  obtain ⟨env, c, operation⟩ := o
  cases operation with
  | load l =>
    obtain ⟨e, c', hrun⟩ | ⟨ms, r₁, t, hload, hrun⟩ := l.loads env c r
    · exact .inl (congrArg (fun x => x.2.2) hrun)
    · exact .inr (.inl ⟨l, ms, r₁, t, rfl, hload, hrun⟩)
  | bindTo location =>
    have hrun : r.step ⟨env, c, .bindTo location⟩
        = ((Loading.bindTo location).run env (c, r)).2.2 := rfl
    cases hbind : r.bindTo location with
    | error e =>
      refine .inl ?_
      rw [hrun]
      simp [Loading.bindTo, Loading.resource, run_bind, hbind]
    | ok placed =>
      refine .inr (.inr ⟨location, rfl, ?_⟩)
      rw [hrun]
      simp [Loading.bindTo, Loading.resource, run_bind, hbind]
  | respond b => exact .inl (Loading.leaves_respond b env (c, r)).symm
  | orders limit => exact .inl (Loading.leaves_orders limit env (c, r)).symm
  | changeKey newKey => exact .inl (Loading.leaves_changeKey newKey env (c, r)).symm

/-- A location that is given is bound once. -/
theorem location_of_bindTo {r placed : Resource} {location : Json}
    (h : r.bindTo location = .ok placed) :
    ∃ u, location = .string u ∧ placed.location = some u ∧ BindsOnce r.location (some u) := by
  obtain ⟨u, hbound, hplaced⟩ := bind_eq_ok.1 h
  cases hplaced
  obtain ⟨hu, hbinds⟩ := of_bound hbound
  exact ⟨u, hu, rfl, hbinds⟩

theorem bindsOnce_step (r : Resource) (o : Occasion ResourceOperation) :
    BindsOnce r.location (r.step o).location := by
  obtain hsame | ⟨l, ms, r₁, t, -, hload, hstep⟩ | ⟨location, -, hbind⟩ := r.step_cases o
  · exact .inl (congrArg Resource.location hsame)
  · rw [hstep]
    show BindsOnce r.location r₁.location
    exact bindsOnce_load hload
  · obtain ⟨u, -, hplaced, hbinds⟩ := location_of_bindTo hbind
    rw [hplaced]
    exact hbinds

end Resource

namespace CertificateResource

def step (r : CertificateResource) (o : Occasion CertificateOperation) : CertificateResource :=
  (o.operation.act.run o.environment (o.client, r)).2.2

end CertificateResource

namespace Holding

variable {α : Type}

abbrev place (s : Client × CertificateResource) : Option String :=
  s.2.location

theorem leaves_onFirst (x : Act Client α) : (onFirst x : Holding α).Leaves place :=
  fun env s => congrArg CertificateResource.location (moves_onFirst_snd Eq.refl x env s)

theorem leaves_download : download.Leaves place :=
  leaves_bind (fun _ _ => rfl) fun _ => leaves_bind (moves_lift Eq.refl _) fun _ =>
    leaves_bind (leaves_onFirst _) fun _ _ _ => rfl

theorem leaves_ensure : ensure.Leaves place := by
  refine leaves_bind (fun _ _ => rfl) fun r => ?_
  split
  · exact leaves_download
  · exact fun _ _ => rfl

theorem leaves_chain : chain.Leaves place :=
  leaves_bind leaves_ensure fun _ _ _ => rfl

theorem leaves_leaf : leaf.Leaves place := by
  refine leaves_bind leaves_chain fun certificates => ?_
  split
  · exact fun _ _ => rfl
  · exact fun _ _ => rfl

theorem leaves_alternates : alternates.Leaves place :=
  leaves_bind leaves_ensure fun _ _ _ => rfl

theorem leaves_alternateCertificates : alternateCertificates.Leaves place :=
  leaves_bind leaves_alternates fun urls => leaves_mapM (fun _ => moves_lift Eq.refl _) urls

theorem leaves_revoke (reason : Json) : (revoke reason).Leaves place :=
  leaves_bind leaves_leaf fun _ => leaves_onFirst _

/-- An act whose result is left out leaves the place as it does with it. -/
theorem leaves_discard {x : Holding α} (hx : x.Leaves place) :
    (do let _ ← x : Holding Unit).Leaves place :=
  leaves_bind hx fun _ _ _ => rfl

end Holding

namespace CertificateResource

theorem bindsOnce_step (r : CertificateResource) (o : Occasion CertificateOperation) :
    BindsOnce r.location (r.step o).location := by
  obtain ⟨env, c, operation⟩ := o
  have hleaves : ∀ {x : Holding Unit}, x.Leaves Holding.place →
      BindsOnce r.location (x.run env (c, r)).2.2.location :=
    fun hx => .inl (hx env (c, r)).symm
  cases operation with
  | bindTo location =>
    show BindsOnce r.location ((Holding.bindTo location).run env (c, r)).2.2.location
    cases hbound : bound kindName r.location location with
    | error e =>
      simp [Holding.bindTo, Holding.resource, run_bind, bindTo, hbound, BindsOnce]
    | ok u =>
      obtain ⟨-, hbinds⟩ := of_bound hbound
      simpa [Holding.bindTo, Holding.resource, run_bind, bindTo, hbound] using hbinds
  | download => exact hleaves Holding.leaves_download
  | chain => exact hleaves (Holding.leaves_discard Holding.leaves_chain)
  | leaf => exact hleaves (Holding.leaves_discard Holding.leaves_leaf)
  | alternates => exact hleaves (Holding.leaves_discard Holding.leaves_alternates)
  | alternateCertificates =>
    exact hleaves (Holding.leaves_discard Holding.leaves_alternateCertificates)
  | writtenChain =>
    exact hleaves (Holding.leaves_discard (leaves_bind Holding.leaves_chain fun _ _ _ => rfl))
  | revoke reason => exact hleaves (Holding.leaves_revoke reason)

end CertificateResource

namespace BareResource

/-- What is left of a bare resource that is given a location. -/
def step (r : BareResource) (location : Json) : BareResource :=
  (r.bindTo location).toOption.getD r

theorem bindsOnce_step (r : BareResource) (location : Json) :
    BindsOnce r.location (r.step location).location := by
  cases hbound : bound kindName r.location location with
  | error e => simp [step, bindTo, hbound, BindsOnce, Except.toOption]
  | ok u => simpa [step, bindTo, hbound, Except.toOption] using (of_bound hbound).2

end BareResource

/-! ### What is kept -/

/-- Whether the location of something is acceptable, and stays through all steps once there is
one. -/
structure KeepsLocation {ρ ω : Type} (location : ρ → Option String) (step : ρ → ω → ρ) (r : ρ) :
    Prop where
  accepted : IsAcceptable (location r)
  stays : ∀ u, location r = some u → ∀ os : List ω, location (os.foldl step r) = some u

/-- Where each step binds once, the location is kept after any steps. -/
theorem keepsLocation_after {ρ ω : Type} {location : ρ → Option String} {step : ρ → ω → ρ}
    (hstep : ∀ r o, BindsOnce (location r) (location (step r o))) {r : ρ}
    (hr : IsAcceptable (location r)) (os : List ω) :
    KeepsLocation location step (os.foldl step r) := by
  refine ⟨?_, fun u hu more => ?_⟩
  · exact List.foldlRecOn os step hr fun r' hr' o _ => (hstep r' o).isAcceptable hr'
  · exact List.foldlRecOn more step hu fun r' hr' o _ => (hstep r' o).stays hr'

/-- How a resource without a location finds one: it is given, or the resource is a challenge and takes
a document that names it. And what becomes of one that has a location: documents do not move it,
whatever URL they name, and requests for it go there, whatever is done in between. -/
structure Resource.FollowsLocation (r : Resource) : Prop where
  given : r.location = none → ∀ o u, (r.step o).location = some u →
    o.operation = .bindTo (.string u) ∨
      (∃ l, o.operation = .load l) ∧ r.kind.IsChallenge ∧ (r.step o).body.NamesUrl u
  taken : r.location = none → r.kind.IsChallenge → ∀ o l, o.operation = .load l →
    (∃ e c, r.outcome o = (.error e, (c, r))) ∨
      ∀ u, (r.step o).location = some u ↔ (r.step o).body.NamesUrl u
  binds : r.location = none → r.kind.IsChallenge → ∀ ms u, ms.NamesUrl u →
    checkUrl (.string u) "location" = .ok u → r.kind.check ms = .ok () →
    ∀ env c, r.outcome ⟨env, c, .load (.unmarshall ms)⟩
      = (.ok (), (c, { r with location := some u, body := ms }))
  rests : r.location = none → ∀ o l, o.operation = .load l → l.asksThere = true →
    ∃ e, r.outcome o = (.error e, (o.client, r))
  overlooks : ∀ u, r.location = some u → ∀ ms, r.kind.check ms = .ok () →
    ∀ env c, r.outcome ⟨env, c, .load (.unmarshall ms)⟩ = (.ok (), (c, { r with body := ms }))
  goes : ∀ u, r.location = some u → ∀ os o l, o.operation = .load l → l.asksThere = true →
    Loading.Arrives u o.client (r.after os) ((r.after os).outcome o)

/-- A document that a resource takes is taken whatever the client is like. -/
theorem Resource.outcome_unmarshall {r r₁ : Resource} {ms : Members} (h : r.load ms = .ok r₁)
    (env : Environment) (c : Client) :
    r.outcome ⟨env, c, .load (.unmarshall ms)⟩ = (.ok (), (c, r₁)) := by
  show (Loading.unmarshall ms).run env (c, r) = _
  rw [Loading.run_unmarshall, h]

theorem Resource.followsLocation (r : Resource) : r.FollowsLocation where
  given hr o u hu := by
    obtain hsame | ⟨l, ms, r₁, t, ho, hload, hstep⟩ | ⟨location, ho, hbind⟩ := r.step_cases o
    · rw [hsame, hr] at hu
      cases hu
    · have hbody : (r.step o).body = ms := by
        rw [hstep]
        exact (load_eq_ok hload).2.1
      rw [hstep] at hu
      rw [hbody]
      exact .inr ⟨⟨l, ho⟩, (location_of_load_unplaced hr hload u).1 hu⟩
    · obtain ⟨v, rfl, hplaced, -⟩ := location_of_bindTo hbind
      obtain rfl : v = u := Option.some.inj (hplaced.symm.trans hu)
      exact .inl ho
  taken hr hchallenge o l ho := by
    obtain ⟨env, c, operation⟩ := o
    obtain rfl : operation = .load l := ho
    obtain ⟨e, c', hrun⟩ | ⟨ms, r₁, t, hload, hrun⟩ := l.loads env c r
    · exact .inl ⟨e, c', hrun⟩
    · refine .inr fun u => ?_
      have hstep : r.step ⟨env, c, .load l⟩ = { r₁ with retryAfter := t } := hrun
      have hbody : r₁.body = ms := (load_eq_ok hload).2.1
      rw [hstep, hbody]
      exact (location_of_load_unplaced hr hload u).trans (and_iff_right hchallenge)
  binds hr hchallenge ms u hnames hcheck hkind := by
    refine outcome_unmarshall ?_
    rw [load_of_namesUrl hr hchallenge hnames (checkUrl_eq_ok.1 hcheck).2, hkind]
    rfl
  rests hr o l ho hasks := by
    obtain ⟨env, c, operation⟩ := o
    obtain rfl : operation = .load l := ho
    exact LoadingOperation.rests env c hasks hr
  overlooks u hr ms hkind := by
    refine outcome_unmarshall ?_
    rw [load_of_located hr, hkind]
    rfl
  goes u hr os o l ho hasks := by
    obtain ⟨env, c, operation⟩ := o
    obtain rfl : operation = .load l := ho
    have hstays : (r.after os).location = some u :=
      List.foldlRecOn os step hr fun r' hr' o _ => (r'.bindsOnce_step o).stays hr'
    exact LoadingOperation.arrives env c hasks hstays

/-- **Locations are kept.** A resource is made at the location that is given, or as a challenge
without one at the URL that its document names. After any operations, whatever the clients and
servers are like and whichever operations fail, its location is none or acceptable, and from then on
it stays; only a challenge without a location takes it from a document, and what asks for a resource
goes to its location. Certificates, and resources of which only the location is known, keep it in
the same way. -/
theorem locations_are_kept :
    (∀ kind location body made t, Resource.make kind location body = .ok made →
      made.IsPlacedBy kind location body ∧
        ∀ os : List (Occasion ResourceOperation),
          let r := Resource.after { made with retryAfter := t } os
          KeepsLocation Resource.location Resource.step r ∧ r.FollowsLocation) ∧
    (∀ location made, CertificateResource.make location = .ok made →
      ∀ os : List (Occasion CertificateOperation),
        KeepsLocation CertificateResource.location CertificateResource.step
          (os.foldl CertificateResource.step made)) ∧
    ∀ location made, BareResource.make location = .ok made → ∀ locations : List Json,
      KeepsLocation BareResource.location BareResource.step
        (locations.foldl BareResource.step made) := by
  refine ⟨fun kind location body made t h => ⟨Resource.isPlacedBy_of_make h, fun os => ⟨?_, ?_⟩⟩,
    fun location made h => ?_, fun location made h => ?_⟩
  · have haccept : IsAcceptable made.location := Resource.isAcceptable_of_make h
    exact keepsLocation_after (r := { made with retryAfter := t }) Resource.bindsOnce_step haccept os
  · exact Resource.followsLocation _
  · exact keepsLocation_after CertificateResource.bindsOnce_step
      (CertificateResource.isAcceptable_of_make h)
  · exact keepsLocation_after BareResource.bindsOnce_step (BareResource.isAcceptable_of_make h)

/-- A challenge without a location takes two documents that name different URLs; a certificate and a
bare resource are given another location. -/
theorem locations_are_kept_challenge :
    let env : Environment := ⟨Client.directoryServer, fun _ => ⟨0, some 0⟩⟩
    let c := Client.ofSession .sample
    let named (name u : String) : Members := [("type", .string "x"), (name, .string u)]
    let r := Resource.after ⟨.challenge .plain, none, [], none⟩
      [⟨env, c, .load (.unmarshall (named "uri" "https://acme.test/1"))⟩,
        ⟨env, c, .load (.unmarshall (named "url" "https://acme.test/2"))⟩]
    Resource.make (.challenge .plain) .null none = .ok ⟨.challenge .plain, none, [], none⟩ ∧
      KeepsLocation Resource.location Resource.step r ∧ r.FollowsLocation ∧
      r.location = some "https://acme.test/1" ∧
      (r.body.get "url").string? = some "https://acme.test/2" ∧
    (∃ made, CertificateResource.make (.string "https://acme.test/1") = .ok made ∧
      KeepsLocation CertificateResource.location CertificateResource.step
        (made.step ⟨env, c, .bindTo (.string "https://acme.test/2")⟩)) ∧
    BareResource.make (.string "https://acme.test/1") = .ok ⟨some "https://acme.test/1"⟩ ∧
      KeepsLocation BareResource.location BareResource.step
        (BareResource.step ⟨some "https://acme.test/1"⟩ (.string "https://acme.test/2")) := by
  intro env c named r
  obtain ⟨hresource, hcertificate, hbare⟩ := locations_are_kept
  obtain ⟨-, hafter⟩ := hresource (.challenge .plain) .null none _ none rfl
  have hlocation : r.location = some "https://acme.test/1" := by decide +kernel
  have hbody : (r.body.get "url").string? = some "https://acme.test/2" := by decide +kernel
  have hbareMade : BareResource.make (.string "https://acme.test/1")
      = .ok ⟨some "https://acme.test/1"⟩ := eq_ok_of_toOption (by decide +kernel)
  have hsome : (CertificateResource.make (.string "https://acme.test/1")).toOption.isSome = true := by
    decide +kernel
  refine ⟨rfl, (hafter _).1, (hafter _).2, hlocation, hbody, ?_, hbareMade, ?_⟩
  · rcases hmade : CertificateResource.make (.string "https://acme.test/1") with e | made
    · rw [hmade] at hsome
      cases hsome
    · exact ⟨made, rfl, hcertificate _ made hmade [_]⟩
  · exact hbare _ _ hbareMade [.string "https://acme.test/2"]

end AcmeClient
