import AcmeClient.Proofs.Discipline
import AcmeClient.Resource.Order
import AcmeClient.Resource.Account

/-!
# Acts that only read

What is read from an answer leaves the session and the requests as they are; at most the clock is
read, and the connection keeps an instant:

* `Act.IsReading` — all steps of an act leave the session and the requests alone;
* `isReading_bind`, `isReading_lift`, … — how such acts are composed;
* `isReading_accept`, `isReading_readJson`, `isReading_retryAfter`, … — the readings of an answer;
* `follows_of_isReading` — they follow every discipline that does not mind.
-/

namespace AcmeClient

/-- Steps that leave the session and the requests alone. -/
def Discipline.reading : Discipline Unit Client :=
  ⟨fun _ _ => True, fun _ _ c _ c' => c'.session = c.session ∧ c'.sent = c.sent⟩

namespace Act

variable {γ σ τ α β : Type} {client : σ → Client}

/-- Whether all steps of an act leave the session and the requests alone. -/
def IsReading (client : σ → Client) (x : Act σ α) : Prop :=
  x.Follows (Discipline.reading.onto client) (fun _ _ => True) ()

theorem isReading_pure (a : α) : (pure a : Act σ α).IsReading client :=
  follows_pure trivial

theorem isReading_throw (e : Fault) : (throw e : Act σ α).IsReading client :=
  follows_throw e

theorem isReading_lift (r : Except Fault α) : (liftM r : Act σ α).IsReading client :=
  follows_lift r fun _ _ => trivial

theorem isReading_once {f : σ → σ} {r : Environment → σ → Except Fault α}
    (h : ∀ s, (client (f s)).session = (client s).session ∧ (client (f s)).sent = (client s).sent) :
    (once f r).IsReading client :=
  follows_once fun _ s _ => ⟨(), h s, fun _ _ => trivial⟩

theorem isReading_bind {x : Act σ α} {y : α → Act σ β} (hx : x.IsReading client)
    (hy : ∀ a, (y a).IsReading client) : (x >>= y).IsReading client :=
  follows_bind hx fun a _ _ => hy a

theorem isReading_onFirst {x : Act Client α} (hx : x.IsReading id) :
    (onFirst x : Act (Client × τ) α).IsReading Prod.fst :=
  follows_onFirst hx

theorem isReading_get : (get : Act σ σ).IsReading client :=
  isReading_once fun _ => ⟨rfl, rfl⟩

theorem isReading_modify {f : σ → σ}
    (h : ∀ s, (client (f s)).session = (client s).session ∧ (client (f s)).sent = (client s).sent) :
    (modify f : Act σ PUnit).IsReading client :=
  isReading_once h

theorem isReading_mapM {f : α → Act σ β} (hf : ∀ a, (f a).IsReading client) (xs : List α) :
    (xs.mapM f).IsReading client := by
  induction xs with
  | nil => exact isReading_pure []
  | cons x xs ih =>
    rw [List.mapM_cons]
    exact isReading_bind (hf x) fun b => isReading_bind ih fun bs => isReading_pure (b :: bs)

/-- Reading follows every discipline that does not mind. -/
theorem follows_of_isReading {d : Discipline γ Client}
    (hd : ∀ env g c c', c'.session = c.session → c'.sent = c.sent → d.allows env g c g c')
    {x : Act σ α} (hx : x.IsReading client) (g : γ) :
    x.Follows (d.onto client) (fun _ g' => g' = g) g := by
  induction x with
  | done r => exact follows_done.2 fun _ _ => rfl
  | step f k ih =>
    rw [follows_step]
    intro env s _
    obtain ⟨_, hstep, hrest⟩ := follows_step.1 hx env s trivial
    exact ⟨g, hd env g _ _ hstep.1 hstep.2, ih env s hrest⟩

/-- A run that only reads leaves the session and the requests as they are. -/
theorem run_of_isReading {x : Act σ α} (hx : x.IsReading client) (env : Environment) (s : σ) :
    (client (x.run env s).2).session = (client s).session ∧
      (client (x.run env s).2).sent = (client s).sent := by
  induction x generalizing s with
  | done r => exact ⟨rfl, rfl⟩
  | step f k ih =>
    obtain ⟨_, hstep, hrest⟩ := follows_step.1 hx env s trivial
    obtain ⟨h1, h2⟩ := ih env s hrest (f s)
    exact ⟨h1.trans hstep.1, h2.trans hstep.2⟩

end Act

open Act

theorem Client.isReading_getSession : Client.getSession.IsReading id :=
  isReading_once fun _ => ⟨rfl, rfl⟩

theorem Client.isReading_now : Client.now.IsReading id :=
  isReading_once fun _ => ⟨rfl, rfl⟩

namespace Exchange

theorem isReading_connection : connection.IsReading Prod.fst :=
  isReading_bind isReading_get fun _ => isReading_pure _

theorem isReading_held : held.IsReading Prod.fst :=
  isReading_bind isReading_connection fun _ => isReading_lift _

theorem isReading_close : close.IsReading Prod.fst :=
  isReading_modify fun _ => ⟨rfl, rfl⟩

theorem isReading_readProblem : readProblem.IsReading Prod.fst :=
  isReading_bind isReading_connection fun _ =>
    isReading_bind (isReading_lift _) fun _ => isReading_pure _

theorem isReading_links (relation : String) : (links relation).IsReading Prod.fst := by
  refine isReading_bind isReading_connection fun c => ?_
  refine isReading_bind (isReading_lift _) fun r => ?_
  split
  · exact isReading_pure _
  · exact isReading_mapM (fun _ => isReading_lift _) _

theorem isReading_refusalInstant (r : Response) : (refusalInstant r).IsReading Prod.fst := by
  unfold refusalInstant
  split
  · exact isReading_pure _
  · refine isReading_bind (isReading_onFirst Client.isReading_now) fun now => ?_
    split
    · exact isReading_pure _
    · exact isReading_pure _
    · exact isReading_throw _

theorem isReading_rejectionKind (r : Response) (code : Option String) :
    (rejectionKind r code).IsReading Prod.fst := by
  unfold rejectionKind
  split
  · exact isReading_bind (isReading_refusalInstant r) fun _ => isReading_pure _
  · exact isReading_pure _
  · exact isReading_bind (isReading_links _) fun _ => isReading_pure _
  · exact isReading_pure _

theorem isReading_rejection (r : Response) : (rejection r).IsReading Prod.fst := by
  refine isReading_bind isReading_readProblem fun p => ?_
  split
  · exact isReading_pure _
  · refine isReading_bind (isReading_lift _) fun code => ?_
    exact isReading_bind (isReading_rejectionKind r code) fun _ => isReading_pure _

theorem isReading_accept (codes : List Int) : (accept codes).IsReading Prod.fst := by
  refine isReading_bind isReading_held fun r => ?_
  split
  · exact isReading_pure _
  · exact isReading_bind (isReading_rejection r) fun _ => isReading_throw _

theorem isReading_readJson : readJson.IsReading Prod.fst := by
  refine isReading_bind isReading_connection fun c => ?_
  refine isReading_bind (isReading_lift _) fun r => ?_
  by_cases h : r.content.isEmpty
  · simp only [h, if_true]
    refine isReading_bind (isReading_throw _) fun _ => ?_
    split
    · exact isReading_pure _
    · exact isReading_throw _
  · rw [if_neg h]
    split
    · exact isReading_pure _
    · exact isReading_throw _

theorem isReading_readCertificates : readCertificates.IsReading Prod.fst :=
  isReading_bind isReading_held fun _ => isReading_lift _

theorem isReading_retryAfter : retryAfter.IsReading Prod.fst := by
  refine isReading_bind isReading_connection fun c => ?_
  refine isReading_bind (isReading_lift _) fun r => ?_
  split
  · exact isReading_pure _
  · split
    · exact isReading_pure _
    · refine isReading_bind (isReading_onFirst Client.isReading_now) fun now => ?_
      refine isReading_bind (isReading_lift _) fun t => ?_
      refine isReading_bind (isReading_modify fun _ => ⟨rfl, rfl⟩) fun _ => ?_
      exact isReading_pure _

theorem isReading_refuseEarly (message : String) : (refuseEarly message).IsReading Prod.fst := by
  refine isReading_bind isReading_retryAfter fun t => ?_
  split
  · exact isReading_throw _
  · exact isReading_pure _

theorem isReading_location : location.IsReading Prod.fst := by
  refine isReading_bind isReading_connection fun c => ?_
  refine isReading_bind (isReading_lift _) fun r => ?_
  split
  · exact isReading_pure _
  · exact isReading_bind (isReading_lift _) fun _ => isReading_pure _

theorem isReading_nonce : nonce.IsReading Prod.fst :=
  isReading_bind isReading_held fun _ => isReading_pure _

theorem isReading_refusesNonce : refusesNonce.IsReading Prod.fst := by
  refine isReading_bind isReading_readProblem fun p => ?_
  split
  · exact isReading_pure _
  · exact isReading_bind (isReading_lift _) fun _ => isReading_pure _

theorem isReading_answer : answer.IsReading Prod.fst :=
  isReading_bind isReading_readJson fun _ =>
    isReading_bind isReading_retryAfter fun _ => isReading_pure _

theorem isReading_created (kind : ResourceKind) (name : String) :
    (created kind name).IsReading Prod.fst := by
  refine isReading_bind isReading_location fun l => ?_
  split
  · exact isReading_throw _
  · exact isReading_bind isReading_readJson fun _ => isReading_lift _

end Exchange

namespace Loading

theorem isReading_resource : resource.IsReading Prod.fst :=
  isReading_bind isReading_get fun _ => isReading_pure _

theorem isReading_requireLocation : requireLocation.IsReading Prod.fst :=
  isReading_bind isReading_resource fun _ => isReading_lift _

theorem isReading_bindTo (location : Json) : (bindTo location).IsReading Prod.fst :=
  isReading_bind isReading_resource fun _ =>
    isReading_bind (isReading_lift _) fun _ => isReading_modify fun _ => ⟨rfl, rfl⟩

theorem isReading_unmarshall (ms : Members) : (unmarshall ms).IsReading Prod.fst := by
  refine isReading_bind isReading_resource fun r => ?_
  refine isReading_bind (isReading_lift _) fun url => ?_
  refine isReading_bind (isReading_lift _) fun _ => ?_
  refine isReading_bind (isReading_modify fun _ => ⟨rfl, rfl⟩) fun _ => ?_
  split
  · exact isReading_bindTo _
  · exact isReading_pure _

theorem isReading_adopt (ms : Members) (t : Option Calendar.Instant) :
    (adopt ms t).IsReading Prod.fst :=
  isReading_bind (isReading_unmarshall ms) fun _ => isReading_modify fun _ => ⟨rfl, rfl⟩

theorem isReading_respond (b : DraftBook) : (respond b).IsReading Prod.fst :=
  isReading_bind isReading_resource fun _ =>
    isReading_bind
      (isReading_bind (isReading_onFirst Client.isReading_getSession) fun _ => isReading_pure _)
      fun _ => isReading_lift _

end Loading

namespace Holding

theorem isReading_resource : resource.IsReading Prod.fst :=
  isReading_bind isReading_get fun _ => isReading_pure _

theorem isReading_bindTo (location : Json) : (bindTo location).IsReading Prod.fst :=
  isReading_bind isReading_resource fun _ =>
    isReading_bind (isReading_lift _) fun _ => isReading_modify fun _ => ⟨rfl, rfl⟩

end Holding

end AcmeClient
