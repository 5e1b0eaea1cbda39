import AcmeClient.Proofs.AllOrNothing
import AcmeClient.Proofs.KnownDirectory

/-!
# Where requests go

Before a request is signed, the directory may have to be fetched and a nonce asked for. Apart from
these errands, a request goes to the URL that it is for:

* `Request.IsErrand` — the request for the directory, and those for nonces;
* `Client.HeadsFor` and `Client.Reaches` — what was sent are errands and requests to a URL, and at
  least one of these;
* `Act.GoesTo` — an act that reaches a URL when it succeeds, and heads for it when it fails;
* `goesTo_fetched`, `goesTo_posted` — asking for a document, and sending claims;
* `Loading.Adopts` — how an act ends that asks for a document and takes it;
* `LoadingOperation.loads` and `LoadingOperation.arrives` — what becomes of the resource, and where
  the requests for it go.
-/

namespace AcmeClient

open Act

/-- Whether a request asks for the directory of a session, or for a nonce. -/
def Request.IsErrand (q : Request) (s : Session) : Prop :=
  q = s.directoryRequest ∨ q.method = .head

namespace Client

/-- Whether a client kept its profile and sent some requests, all of them to a URL but for
errands. -/
structure Sends (u : String) (new : List Request) (c c' : Client) : Prop where
  profile : c.SameProfile c'
  sent : c'.sent = c.sent ++ new
  goes : ∀ q ∈ new, q.url = u ∨ q.IsErrand c.session

/-- Whether a client sent nothing to another place than a URL, but for errands. -/
def HeadsFor (u : String) (c c' : Client) : Prop :=
  ∃ new, c.Sends u new c'

/-- Whether a client also sent a request to the URL. -/
def Reaches (u : String) (c c' : Client) : Prop :=
  ∃ new, c.Sends u new c' ∧ ∃ q ∈ new, q.url = u

variable {u : String} {c c' c₁ c₂ c₃ : Client} {new new' : List Request}

/-- Clients of one profile ask for the directory in the same way. -/
theorem SameProfile.isErrand {q : Request} (h : c.SameProfile c') (hq : q.IsErrand c'.session) :
    q.IsErrand c.session := by
  have hrequest : c'.session.profile.directoryRequest = c.session.profile.directoryRequest :=
    congrArg Session.directoryRequest h
  exact hq.imp_left fun hdirectory => hdirectory.trans hrequest

theorem Sends.trans (h : Sends u new c₁ c₂) (h' : Sends u new' c₂ c₃) :
    Sends u (new ++ new') c₁ c₃ := by
  refine ⟨h.profile.trans h'.profile, by rw [h'.sent, h.sent, List.append_assoc], fun q hq => ?_⟩
  rcases List.mem_append.1 hq with hq | hq
  · exact h.goes q hq
  · exact (h'.goes q hq).imp_right h.profile.isErrand

theorem Sends.one {q : Request} (hsession : c'.session = c.session) (hsent : c'.sent = c.sent ++ [q])
    (hq : q.url = u ∨ q.IsErrand c.session) : Sends u [q] c c' :=
  ⟨.of_session hsession, hsent, List.forall_mem_singleton.2 hq⟩

theorem HeadsFor.of_sent (h : c.SameProfile c') (hsent : c'.sent = c.sent) : HeadsFor u c c' :=
  ⟨[], h, by rw [hsent, List.append_nil], nofun⟩

theorem HeadsFor.of_quiet (c c' : Client) (hsession : c'.session = c.session)
    (hsent : c'.sent = c.sent) : HeadsFor u c c' :=
  .of_sent (.of_session hsession) hsent

theorem HeadsFor.refl (c : Client) : HeadsFor u c c :=
  .of_quiet c c rfl rfl

theorem HeadsFor.trans (c₁ c₂ c₃ : Client) :
    HeadsFor u c₁ c₂ → HeadsFor u c₂ c₃ → HeadsFor u c₁ c₃
  | ⟨_, h⟩, ⟨_, h'⟩ => ⟨_, h.trans h'⟩

theorem HeadsFor.reaches : HeadsFor u c₁ c₂ → Reaches u c₂ c₃ → Reaches u c₁ c₃
  | ⟨_, h⟩, ⟨_, h', q, hq, hu⟩ => ⟨_, h.trans h', q, List.mem_append_right _ hq, hu⟩

theorem Reaches.headsFor : Reaches u c c' → HeadsFor u c c'
  | ⟨_, h, _⟩ => ⟨_, h⟩

theorem Reaches.on : Reaches u c₁ c₂ → HeadsFor u c₂ c₃ → Reaches u c₁ c₃
  | ⟨_, h, q, hq, hu⟩, ⟨_, h'⟩ => ⟨_, h.trans h', q, List.mem_append_left _ hq, hu⟩

end Client

/-! ### Acts that go to a URL -/

namespace Act

variable {σ α β : Type} {u : String} {v : σ → Client}

/-- Whether an act reaches a URL when it succeeds, and heads for it when it fails. -/
def GoesTo (u : String) (v : σ → Client) (x : Act σ α) : Prop :=
  ∀ env s,
    match x.run env s with
    | (.ok _, t) => (v s).Reaches u (v t)
    | (.error _, t) => (v s).HeadsFor u (v t)

/-- An act that goes to a URL heads for it in any case. -/
theorem GoesTo.moves {x : Act σ α} (hx : x.GoesTo u v) : x.Moves (Client.HeadsFor u) v := by
  intro env s
  have hs := hx env s
  rcases hrun : x.run env s with ⟨e | a, t⟩
  · rw [hrun] at hs
    exact hs
  · rw [hrun] at hs
    exact hs.headsFor

theorem goesTo_throw (e : Fault) : (throw e : Act σ α).GoesTo u v :=
  fun _ s => .refl (v s)

/-- What goes to a URL may be done in the end. -/
theorem goesTo_bind {x : Act σ α} {y : α → Act σ β} (hx : x.Moves (Client.HeadsFor u) v)
    (hy : ∀ a, (y a).GoesTo u v) : (x >>= y).GoesTo u v := by
  intro env s
  have hfirst := hx env s
  rw [run_bind]
  rcases hrun : x.run env s with ⟨e | a, t⟩
  · rw [hrun] at hfirst
    exact hfirst
  · rw [hrun] at hfirst
    have hrest := hy a env t
    dsimp only
    rcases hrun' : (y a).run env t with ⟨e | b, t'⟩
    · rw [hrun'] at hrest
      exact hfirst.trans _ _ _ hrest
    · rw [hrun'] at hrest
      exact hfirst.reaches hrest

/-- It may also be done at the start. -/
theorem goesTo_first {x : Act σ α} {y : α → Act σ β} (hx : x.GoesTo u v)
    (hy : ∀ a, (y a).Moves (Client.HeadsFor u) v) : (x >>= y).GoesTo u v := by
  intro env s
  have hfirst := hx env s
  rw [run_bind]
  rcases hrun : x.run env s with ⟨e | a, t⟩
  · rw [hrun] at hfirst
    exact hfirst
  · rw [hrun] at hfirst
    have hrest := hfirst.on (hy a env t)
    dsimp only
    rcases hrun' : (y a).run env t with ⟨e | b, t'⟩
    · rw [hrun'] at hrest
      exact hrest.headsFor
    · rw [hrun'] at hrest
      exact hrest

/-- What is there for the time of an act does not matter. -/
theorem goesTo_within {τ : Type} {x : Act (σ × τ) α} (t : τ)
    (hx : x.GoesTo u fun s => v s.1) : (within t x).GoesTo u v := by
  intro env s
  have hrun := hx env (s, t)
  rw [run_within]
  rcases hresult : x.run env (s, t) with ⟨e | a, s'⟩
  · rw [hresult] at hrun
    exact hrun
  · rw [hresult] at hrun
    exact hrun

/-- Reading does not go anywhere. -/
theorem headsFor_of_isReading {x : Act σ α} (hx : x.IsReading v) :
    x.Moves (Client.HeadsFor u) v :=
  moves_of_isReading Client.HeadsFor.of_quiet hx

end Act

/-! ### Errands -/

namespace Exchange

variable {u url : String}

theorem headsFor_keepNonce (r : Response) (isRequired : Bool) :
    (keepNonce r isRequired).Moves (Client.HeadsFor u) Prod.fst :=
  moves_keepNonce .refl (fun _ _ => .of_sent rfl rfl) r isRequired

/-- A request for a nonce is an errand. -/
theorem headsFor_sendHead (url : String) (headers : List (String × String))
    (body : Option Signed) : (send .head url headers body).Moves (Client.HeadsFor u) Prod.fst := by
  intro env s
  rw [run_send env s rfl]
  cases env.server _ with
  | failure text => exact ⟨_, .one rfl rfl (.inr (.inr rfl))⟩
  | response r => exact ⟨_, .one rfl rfl (.inr (.inr rfl))⟩

theorem headsFor_session :
    (onFirst Client.getSession : Exchange Session).Moves (Client.HeadsFor u) Prod.fst :=
  headsFor_of_isReading (isReading_onFirst Client.isReading_getSession)

theorem headsFor_fetchNonce (url : String) :
    (fetchNonce url).Moves (Client.HeadsFor u) Prod.fst := by
  refine moves_bind Client.HeadsFor.trans headsFor_session fun session => ?_
  refine moves_bind Client.HeadsFor.trans (headsFor_sendHead url _ _) fun r => ?_
  refine moves_bind Client.HeadsFor.trans (headsFor_of_isReading (isReading_accept _)) fun _ => ?_
  split
  · exact moves_lift .refl _
  · exact moves_lift .refl (.error _)

end Exchange

namespace Client

variable {u : String}

/-- A URL in the directory may take the request for the directory. -/
theorem headsFor_endpointUrl (name : String) :
    (endpointUrl name).Moves (HeadsFor u) id := by
  intro env c
  show c.HeadsFor u ((endpointUrl name).run env c).2
  cases hc : c.session.directory with
  | none =>
    have hfetches := fetches_directory env hc
    refine ⟨[c.session.directoryRequest], (inquires_endpointUrl env c name).profile, ?_, ?_⟩
    · rw [hfetches.endpointUrl]
      exact hfetches.sent
    · exact List.forall_mem_singleton.2 (.inr (.inl rfl))
  | some d =>
    rw [(knowsDirectory env hc).endpointUrl]
    exact .refl c

/-- A nonce may take the request for the directory and one for the nonce. -/
theorem headsFor_takeNonce : takeNonce.Moves (HeadsFor u) id := by
  have htake : takePooled.Moves (HeadsFor u) id := fun _ _ => .of_sent rfl rfl
  refine moves_bind HeadsFor.trans htake fun pooled => ?_
  split
  · exact moves_lift .refl (.ok _)
  · refine moves_within _ (moves_bind HeadsFor.trans ?_ fun url => ?_)
    · exact moves_onFirst (headsFor_endpointUrl _)
    · exact Exchange.headsFor_fetchNonce url

end Client

/-! ### Requests for a URL -/

namespace Exchange

variable {url : String}

/-- A request that is answered has gone to its URL. -/
theorem goesTo_send (method : Method) (headers : List (String × String)) (body : Option Signed) :
    (send method url headers body).GoesTo url Prod.fst := by
  intro env s
  rw [run_send env s rfl]
  cases env.server _ with
  | failure text => exact ⟨_, .one rfl rfl (.inl rfl)⟩
  | response r => exact ⟨_, .one rfl rfl (.inl rfl), _, List.mem_singleton_self _, rfl⟩

theorem goesTo_sendPlain (url wanted : String) : (sendPlain url wanted).GoesTo url Prod.fst := by
  refine goesTo_bind headsFor_session fun session => ?_
  refine goesTo_first (goesTo_send _ _ _) fun r => ?_
  exact moves_bind Client.HeadsFor.trans (headsFor_keepNonce r false) fun _ => moves_lift .refl _

theorem goesTo_postOnce (url : String) (claims : Claims) (signing : Signing) (wanted : String) :
    (postOnce url claims signing wanted).GoesTo url Prod.fst := by
  refine goesTo_bind headsFor_session fun session => ?_
  split
  · exact goesTo_throw _
  · refine goesTo_bind (moves_lift .refl _) fun payload => ?_
    refine goesTo_bind (moves_onFirst Client.headsFor_takeNonce) fun nonce => ?_
    refine goesTo_bind (moves_lift .refl _) fun signed => ?_
    refine goesTo_bind headsFor_session fun session' => ?_
    refine goesTo_first (goesTo_send _ _ _) fun r => ?_
    exact moves_bind Client.HeadsFor.trans (headsFor_keepNonce r r.isOk) fun _ => moves_lift .refl _

/-- The second attempt goes to the same URL. -/
theorem goesTo_sendSigned (url : String) (claims : Claims) (signing : Signing) (wanted : String) :
    (sendSigned url claims signing wanted).GoesTo url Prod.fst := by
  refine goesTo_first (goesTo_postOnce url claims signing wanted) fun status => ?_
  split
  · refine moves_bind Client.HeadsFor.trans (headsFor_of_isReading isReading_refusesNonce)
      fun refused => ?_
    cases refused with
    | true => exact (goesTo_postOnce url claims signing wanted).moves
    | false => exact moves_lift .refl (.ok _)
  · exact moves_lift .refl (.ok _)

theorem goesTo_fetch (url wanted : String) : (fetch url wanted).GoesTo url Prod.fst := by
  refine goesTo_bind headsFor_session fun session => ?_
  split
  · exact goesTo_sendSigned url .nothing .session wanted
  · exact goesTo_sendPlain url wanted

end Exchange

namespace Client

variable {url : String}

/-- The answer is read where it is. -/
theorem goesTo_taken {x : Exchange Int} (hx : x.GoesTo url Prod.fst) (codes : List Int) :
    (connected do
      let _ ← x
      let _ ← Exchange.accept codes
      Exchange.answer : Act Client (Members × Option Calendar.Instant)).GoesTo url id := by
  refine goesTo_within _ (goesTo_first hx fun _ => headsFor_of_isReading ?_)
  exact isReading_bind (Exchange.isReading_accept codes) fun _ => Exchange.isReading_answer

theorem goesTo_fetched (url : String) : (fetched url).GoesTo url id :=
  goesTo_taken (Exchange.goesTo_fetch url Exchange.jsonType) [200, 202]

theorem goesTo_posted (url : String) (claims : Claims) (codes : List Int) :
    (posted url claims codes).GoesTo url id :=
  goesTo_taken (Exchange.goesTo_sendSigned url claims .session Exchange.jsonType) codes

end Client

/-! ### Loading operations -/

namespace Loading

/-- How an act ends that asks for a document and takes it: nothing comes of the asking, or the
resource refuses the document, or it takes it. -/
inductive Adopts (ask : Act Client (Members × Option Calendar.Instant)) (env : Environment)
    (c : Client) (r : Resource) : Except Fault Unit × (Client × Resource) → Prop where
  | lost {e : Fault} {c' : Client} : ask.run env c = (.error e, c') →
      Adopts ask env c r (.error e, (c', r))
  | refused {ms : Members} {t : Option Calendar.Instant} {e : Fault} {c' : Client} :
      ask.run env c = (.ok (ms, t), c') → r.load ms = .error e →
      Adopts ask env c r (.error e, (c', r))
  | taken {ms : Members} {t : Option Calendar.Instant} {result : Except Fault Unit} {c' : Client}
      {r₁ : Resource} : ask.run env c = (.ok (ms, t), c') → r.load ms = .ok r₁ →
      Adopts ask env c r (result, (c', { r₁ with retryAfter := t }))

variable {env : Environment} {c : Client} {r : Resource} {u : String}

/-- What asks for a document and takes it may look at the resource in the end. -/
theorem adopts_of_run {ask : Act Client (Members × Option Calendar.Instant)} {x : Loading Unit}
    {f : Resource → Except Fault Unit}
    (h : x.run env (c, r) =
      match ask.run env c with
      | (.error e, c') => (.error e, (c', r))
      | (.ok (ms, t), c') =>
        match r.load ms with
        | .error e => (.error e, (c', r))
        | .ok r₁ => (f { r₁ with retryAfter := t }, (c', { r₁ with retryAfter := t }))) :
    Adopts ask env c r (x.run env (c, r)) := by
  rw [h]
  rcases hask : ask.run env c with ⟨e | ⟨ms, t⟩, c'⟩
  · exact .lost hask
  · dsimp only
    cases hload : r.load ms with
    | error e => exact .refused hask hload
    | ok r₁ => exact .taken hask hload

theorem adopts_update (hr : r.IsAt u) :
    Adopts (Client.fetched u) env c r (update.run env (c, r)) :=
  adopts_of_run (f := updated) (run_update hr)

theorem adopts_post (claims : Claims) (codes : List Int) :
    Adopts (Client.posted u claims codes) env c r ((post u claims codes).run env (c, r)) :=
  adopts_of_run (f := fun _ => .ok ()) (run_post env c r u claims codes)

/-- Whether what an operation comes to is a failure that leaves the resource as it was, or a document
that the resource takes. -/
def Loads (r : Resource) (outcome : Except Fault Unit × (Client × Resource)) : Prop :=
  (∃ e c', outcome = (.error e, (c', r))) ∨
    ∃ ms r₁ t, r.load ms = .ok r₁ ∧ outcome.2.2 = { r₁ with retryAfter := t }

theorem Adopts.loads {ask : Act Client (Members × Option Calendar.Instant)}
    {outcome : Except Fault Unit × (Client × Resource)} (h : Adopts ask env c r outcome) :
    Loads r outcome := by
  cases h with
  | lost _ => exact .inl ⟨_, _, rfl⟩
  | refused _ _ => exact .inl ⟨_, _, rfl⟩
  | taken _ hload => exact .inr ⟨_, _, _, hload, rfl⟩

/-- Whether what an operation comes to is a failure that leaves the resource as it was, after
requests for a URL or none, or an answer to a request for it. -/
def Arrives (u : String) (c : Client) (r : Resource)
    (outcome : Except Fault Unit × (Client × Resource)) : Prop :=
  (∃ e c', outcome = (.error e, (c', r)) ∧ c.HeadsFor u c') ∨ c.Reaches u outcome.2.1

theorem Adopts.arrives {ask : Act Client (Members × Option Calendar.Instant)}
    {outcome : Except Fault Unit × (Client × Resource)} (h : Adopts ask env c r outcome)
    (hask : ask.GoesTo u id) : Arrives u c r outcome := by
  have hgoes := hask env c
  cases h with
  | lost hrun =>
    rw [hrun] at hgoes
    exact .inl ⟨_, _, rfl, hgoes⟩
  | refused hrun _ =>
    rw [hrun] at hgoes
    exact .inl ⟨_, _, rfl, hgoes.headsFor⟩
  | taken hrun _ =>
    rw [hrun] at hgoes
    exact .inr hgoes

variable {suits : Resource → String → Prop} {x : Loading Unit}

theorem PostsTo.loads (hx : PostsTo suits x) : Loads r (x.run env (c, r)) := by
  obtain ⟨e, hrun⟩ | ⟨url, claims, codes, -, hrun⟩ := hx env c r
  · exact .inl ⟨e, c, hrun⟩
  · rw [hrun]
    exact (adopts_post claims codes).loads

theorem PostsTo.arrives (hx : PostsTo Resource.IsAt x) (hr : r.IsAt u) :
    Arrives u c r (x.run env (c, r)) := by
  obtain ⟨e, hrun⟩ | ⟨url, claims, codes, hurl, hrun⟩ := hx env c r
  · exact .inl ⟨e, c, hrun, .refl c⟩
  · rw [hrun]
    obtain rfl : url = u := Option.some.inj (hurl.symm.trans hr)
    exact (adopts_post claims codes).arrives (Client.goesTo_posted url claims codes)

/-- Nothing is sent for a resource without a location. -/
theorem PostsTo.rests (hx : PostsTo Resource.IsAt x) (hr : r.location = none) :
    ∃ e, x.run env (c, r) = (.error e, (c, r)) := by
  obtain hfails | ⟨url, claims, codes, hurl, -⟩ := hx env c r
  · exact hfails
  · cases hurl.symm.trans hr

end Loading

namespace LoadingOperation

/-- Whether an operation asks for a resource at its location. -/
def asksThere : LoadingOperation → Bool
  | .update | .trigger | .deactivate | .modify _ => true
  | .unmarshall _ | .finalize _ => false

variable (o : LoadingOperation) (env : Environment) (c : Client) {r : Resource}

/-- A loading operation loads, or fails and leaves the resource as it was. -/
theorem loads (r : Resource) : Loading.Loads r (o.act.run env (c, r)) := by
  cases o with
  | unmarshall ms =>
    show Loading.Loads r ((Loading.unmarshall ms).run env (c, r))
    rw [Loading.run_unmarshall]
    cases hload : r.load ms with
    | error e => exact .inl ⟨e, c, rfl⟩
    | ok r₁ => exact .inr ⟨ms, r₁, r₁.retryAfter, hload, rfl⟩
  | update =>
    cases hr : r.location with
    | none => exact .inl ⟨_, c, Loading.run_update_unplaced hr⟩
    | some u => exact (Loading.adopts_update hr).loads
  | trigger => exact Loading.postsTo_trigger.loads
  | finalize form => exact (Loading.postsTo_finalize form).loads
  | deactivate => exact Loading.postsTo_deactivate.loads
  | modify contact => exact (Loading.postsTo_modifyContacts contact).loads

variable {o}

/-- What asks for a resource at its location goes there. -/
theorem arrives {u : String} (ho : o.asksThere = true) (hr : r.location = some u) :
    Loading.Arrives u c r (o.act.run env (c, r)) := by
  cases o with
  | unmarshall | finalize => cases ho
  | update => exact (Loading.adopts_update hr).arrives (Client.goesTo_fetched u)
  | trigger => exact Loading.postsTo_trigger.arrives hr
  | deactivate => exact Loading.postsTo_deactivate.arrives hr
  | modify contact => exact (Loading.postsTo_modifyContacts contact).arrives hr

/-- Without a location it fails, and nothing is done. -/
theorem rests (ho : o.asksThere = true) (hr : r.location = none) :
    ∃ e, o.act.run env (c, r) = (.error e, (c, r)) := by
  cases o with
  | unmarshall | finalize => cases ho
  | update => exact ⟨_, Loading.run_update_unplaced hr⟩
  | trigger => exact Loading.postsTo_trigger.rests hr
  | deactivate => exact Loading.postsTo_deactivate.rests hr
  | modify contact => exact (Loading.postsTo_modifyContacts contact).rests hr

end LoadingOperation

end AcmeClient
