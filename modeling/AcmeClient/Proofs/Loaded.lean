import AcmeClient.Proofs.Identity

/-!
# Two ways to load a resource

A resource is loaded when it is bound to its location, or by an update after it was made for that
location. Both ways ask the same questions and judge the answer alike:

* `ResourceKind.check_forDocument` — the kind for a document refuses it as the kind asked for does;
* `Client.LoadsAlike` — what the two ways have in common, and in what they differ;
* `Client.bind_agrees_with_update` — they load alike, whatever the session and the server are like.
-/

namespace AcmeClient

open Act Calendar

namespace Registry

/-- The variant for a type accepts that type only. -/
theorem typ_of_get? {registry : Registry} {t : String} {w : Variant}
    (h : registry.get? t = some w) : w.typ = some t := by
  have hfound := List.find?_some h
  exact of_decide_eq_true hfound

end Registry

namespace ResourceKind

variable {k : ResourceKind} {registry : Registry} {ms : Members}

/-- A challenge of any type refuses a document only if it has no type. -/
theorem check_challenge_of_any {v : Variant} (hv : v.typ = none) :
    (ResourceKind.challenge v).check ms = (typeIn ms).map fun _ => () := by
  rw [check, hv]
  cases typeIn ms <;> rfl

/-- The kind for a document refuses it, or is not found, just as the kind asked for refuses it. -/
theorem check_forDocument (k : ResourceKind) (registry : Registry) (ms : Members) :
    (k.forDocument registry ms >>= fun actual => actual.check ms) = k.check ms := by
  cases k with
  | document | account | order | authorization => rfl
  | challenge v =>
    cases ht : typeIn ms with
    | error e => simp [forDocument, check, ht]
    | ok t =>
      cases hv : v.typ with
      | some expected => simp [forDocument, ht, hv]
      | none =>
        rw [check_challenge_of_any hv, ht]
        cases hw : registry.get? t with
        | none =>
          simp only [forDocument, ht, hv, hw, ok_bind, ok_eq_pure, Option.isSome_none,
            Bool.false_eq_true, if_false, Option.getD_none]
          rw [check_challenge_of_any hv, ht]
        | some w =>
          simp [forDocument, check, ht, hv, hw, Registry.typ_of_get? hw]
          rfl

/-- The kind for a document is the kind asked for, unless any type of challenge was. -/
theorem forDocument_eq_self {actual : ResourceKind} (hk : ∀ v, k = .challenge v → v.typ.isSome)
    (h : k.forDocument registry ms = .ok actual) : actual = k := by
  cases k with
  | document | account | order | authorization => exact (Except.ok.inj h).symm
  | challenge v =>
    obtain ⟨t, -, h⟩ := bind_eq_ok.1 h
    rw [if_pos (hk v rfl)] at h
    exact (Except.ok.inj h).symm

/-- Where any type of challenge was asked for, the type of the document finds the variant. -/
theorem forDocument_of_any {v : Variant} {actual : ResourceKind} (hv : v.typ = none)
    (h : (ResourceKind.challenge v).forDocument registry ms = .ok actual) :
    ∃ t, typeIn ms = .ok t ∧ actual = .challenge ((registry.get? t).getD v) := by
  obtain ⟨t, ht, h⟩ := bind_eq_ok.1 h
  rw [hv] at h
  exact ⟨t, ht, (Except.ok.inj h).symm⟩

end ResourceKind

namespace Resource

variable {u : String}

/-- A resource is made from a document as it is made for the location and takes the document. -/
theorem make_loaded (kind : ResourceKind) (hu : isAbsolute u = .ok true) (ms : Members) :
    make kind (.string u) (some ms) = (kind.check ms).map fun _ => ⟨kind, some u, ms, none⟩ := by
  have hbind := bindTo_of_isAbsolute (r := ⟨kind, none, [], none⟩) rfl hu
  have hload : make kind (.string u) (some ms) = (⟨kind, some u, [], none⟩ : Resource).load ms := by
    simp only [make, hbind, ok_bind]
  rw [hload, load_of_located rfl]

end Resource

namespace Client

variable {env : Environment} {c : Client} {kind : ResourceKind} {registry : Registry}
  {location : Json} {u : String}

/-- Binding goes on as long as nothing fails, and keeps when to come back. -/
theorem run_bindResource (hu : checkUrl location "location" = .ok u) :
    (bind kind registry location).run env c =
      match (fetched u).run env c with
      | (.error e, c') => (.error e, c')
      | (.ok (ms, t), c') =>
        (kind.forDocument registry ms >>= fun actual =>
          (actual.check ms).map fun _ => ⟨actual, some u, ms, t⟩, c') := by
  have habsolute : isAbsolute u = .ok true := (checkUrl_eq_ok.1 hu).2
  rw [bind, hu, run_bind_of_ok env (run_lift env (.ok u) c), run_bind]
  rcases (fetched u).run env c with ⟨e | ⟨ms, t⟩, c'⟩
  · rfl
  · dsimp only
    rw [run_bind, run_lift]
    cases kind.forDocument registry ms with
    | error e => rfl
    | ok actual =>
      dsimp only
      rw [run_bind, run_lift, Resource.make_loaded actual habsolute, ok_bind]
      cases actual.check ms <;> rfl

/-- An update of a resource that was made for a location, which was not loaded yet. -/
theorem run_updateFresh (kind : ResourceKind) (u : String) :
    Loading.update.run env (c, ⟨kind, some u, [], none⟩) =
      match (fetched u).run env c with
      | (.error e, c') => (.error e, (c', ⟨kind, some u, [], none⟩))
      | (.ok (ms, t), c') =>
        match kind.check ms with
        | .error e => (.error e, (c', ⟨kind, some u, [], none⟩))
        | .ok _ => (Loading.updated ⟨kind, some u, ms, t⟩, (c', ⟨kind, some u, ms, t⟩)) := by
  rw [Loading.run_update rfl]
  rcases (fetched u).run env c with ⟨e | ⟨ms, t⟩, c'⟩
  · rfl
  · dsimp only
    rw [Resource.load_of_located rfl]
    cases kind.check ms <;> rfl

/-- Whether loading a resource of a kind from a URL comes to the same when it is bound as when it is
made and updated. The same requests are sent and the same session is left; the same faults come up,
unless an update asks to come back; and the resource has the same location, document and instant. It
is of the kind asked for, or of the variant for its type where any challenge was asked for. -/
structure LoadsAlike (kind : ResourceKind) (registry : Registry) (u : String)
    (bound : Except Fault Resource × Client) (updated : Except Fault Unit × (Client × Resource)) :
    Prop where
  client : bound.2 = updated.2.1
  fails_iff : ∀ e, bound.1 = .error e ↔ updated.1 = .error e ∧ e.IsPrompt
  location : ∀ r, bound.1 = .ok r → r.location = some u
  loads : ∀ r, bound.1 = .ok r →
    updated.2.2 = { r with kind } ∧ updated.1 = Loading.updated updated.2.2
  ofKind : ∀ r, bound.1 = .ok r → (∀ v, kind = .challenge v → v.typ.isSome) → r.kind = kind
  ofVariant : ∀ r v, bound.1 = .ok r → kind = .challenge v → v.typ = none →
    ∃ t, ResourceKind.typeIn r.body = .ok t ∧ r.kind = .challenge ((registry.get? t).getD v)

/-- Both ways end with the same fault if it comes up at once. -/
theorem loadsAlike_of_isPrompt {e : Fault} (he : e.IsPrompt) (c : Client) (r : Resource) :
    LoadsAlike kind registry u (.error e, c) (.error e, (c, r)) where
  client := rfl
  fails_iff e' := by
    constructor
    · intro h
      cases h
      exact ⟨rfl, he⟩
    · rintro ⟨h, -⟩
      cases h
      rfl
  location _ h := by cases h
  loads _ h := by cases h
  ofKind _ h := by cases h
  ofVariant _ _ h := by cases h

/-- Both ways end with a resource of the kind for its document. -/
theorem loadsAlike_of_forDocument {actual : ResourceKind} {ms : Members}
    (h : kind.forDocument registry ms = .ok actual) (c : Client) (t : Option Instant) :
    LoadsAlike kind registry u (.ok ⟨actual, some u, ms, t⟩, c)
      (Loading.updated ⟨kind, some u, ms, t⟩, (c, ⟨kind, some u, ms, t⟩)) where
  client := rfl
  fails_iff e := by
    refine ⟨nofun, ?_⟩
    rintro ⟨hupdated, he⟩
    obtain ⟨t, -, rfl⟩ := Loading.updated_eq_error.1 hupdated
    exact he.elim
  location r hr := by
    cases hr
    rfl
  loads r hr := by
    cases hr
    exact ⟨rfl, rfl⟩
  ofKind r hr hkind := by
    cases hr
    exact ResourceKind.forDocument_eq_self hkind h
  ofVariant r v hr hv htyp := by
    cases hr
    subst hv
    exact ResourceKind.forDocument_of_any htyp h

/-- **Binding and updating agree.** Whatever the session, the server and the clock are like: to bind
a resource to a location comes to the same as to make it for that location and to update it. -/
theorem bind_agrees_with_update (env : Environment) (c : Client) (kind : ResourceKind)
    (registry : Registry) (hu : checkUrl location "location" = .ok u) :
    ∃ r, Resource.make kind location none = .ok r ∧
      LoadsAlike kind registry u ((bind kind registry location).run env c)
        (Loading.update.run env (c, r)) := by
  obtain ⟨rfl, habsolute⟩ := checkUrl_eq_ok.1 hu
  refine ⟨_, Resource.make_of_isAbsolute kind habsolute, ?_⟩
  rw [run_bindResource hu, run_updateFresh]
  rcases hfetched : (fetched u).run env c with ⟨e | ⟨ms, t⟩, c'⟩
  · have he : e.IsPrompt := (isPrompt_fetched u).run env c e (congrArg Prod.fst hfetched)
    exact loadsAlike_of_isPrompt he c' _
  · have hcheck := ResourceKind.check_forDocument kind registry ms
    dsimp only
    cases hactual : kind.forDocument registry ms with
    | error e =>
      rw [hactual, error_bind] at hcheck
      rw [← hcheck]
      exact loadsAlike_of_isPrompt (prompt_check kind ms e hcheck.symm) c' _
    | ok actual =>
      rw [hactual, ok_bind] at hcheck
      rw [ok_bind, hcheck]
      cases hkind : kind.check ms with
      | error e => exact loadsAlike_of_isPrompt (prompt_check kind ms e hkind) c' _
      | ok _ => exact loadsAlike_of_forDocument hactual c' t

/-- A server with one challenge, which is to be asked for again after five seconds. -/
def challengeServer : Server := fun _ =>
  .response ⟨200, none, ⟨[("Retry-After", "5")]⟩,
    Text.Utf8.encode "\x7b\"type\": \"http-01\"\x7d"⟩

/-- A challenge of any type is loaded as one that a web server answers; an update of it asks to come
back. -/
theorem bind_agrees_with_update_http :
    let env : Environment := ⟨challengeServer, fun _ => ⟨0, some 0⟩⟩
    let c := Client.ofSession { Session.sample with kid := none }
    let u := "https://acme.test/chall/1"
    let bound := (bind (.challenge .plain) .standard (.string u)).run env c
    checkUrl (.string u) "location" = .ok u ∧
      (∃ r, Resource.make (.challenge .plain) (.string u) none = .ok r ∧
        LoadsAlike (.challenge .plain) .standard u bound (Loading.update.run env (c, r))) ∧
      bound.1.toOption.map (fun r => (r.kind, r.retryAfter.isSome))
        = some (.challenge .http, true) ∧ bound.2.sent.length = 1 := by
  intro env c u bound
  have hu : checkUrl (.string u) "location" = .ok u := eq_ok_of_toOption (by decide +kernel)
  refine ⟨hu, bind_agrees_with_update env c (.challenge .plain) .standard hu, ?_, ?_⟩
  · decide +kernel
  · decide +kernel

end Client

end AcmeClient
