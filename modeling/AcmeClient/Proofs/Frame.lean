import AcmeClient.Proofs.Operations

/-!
# What requests leave alone

A request takes nonces out of the pool and its answer puts one in, and the directory is kept once it
was fetched. The rest of a session is its profile: the server, the key and the account, and the
options of the transport. No request changes it, whether it succeeds or fails:

* `Session.profile` — a session without its nonces and its directory;
* `Client.Inquires` — only requests that are not signed are sent, and the profile stays;
* `Discipline.related` and `Act.related_run` — acts whose steps are all related, and their runs;
* `Client.Admits`, with `serves` and `covers` — requests and operations are related as the steps of
  requests are;
* `Client.inquires_takeNonce` and `Client.inquires_endpointUrl` — the taking of a nonce and the
  directory send nothing that is signed;
* `Discipline.serves_profile` — requests of all sorts leave the profile alone;
* `Act.Moves` — where whole runs of an act lead, with nothing else in between.
-/

namespace AcmeClient

open Act

/-- A session without its nonces and its directory. -/
def Session.profile (s : Session) : Session :=
  { s with nonces := .empty, directory := none }

namespace Client

/-- Whether two clients have sessions of one profile. -/
def SameProfile (c c' : Client) : Prop :=
  c'.session.profile = c.session.profile

/-- Whether a client kept its profile and sent nothing that is signed. -/
structure Inquires (c c' : Client) : Prop where
  profile : c.SameProfile c'
  sent : ∃ new, c'.sent = c.sent ++ new ∧ ∀ r ∈ new, r.method ≠ .post

theorem SameProfile.refl (c : Client) : c.SameProfile c := rfl

theorem SameProfile.trans {c₁ c₂ c₃ : Client} (h : c₁.SameProfile c₂) (h' : c₂.SameProfile c₃) :
    c₁.SameProfile c₃ :=
  Eq.trans h' h

theorem SameProfile.of_session {c c' : Client} (h : c'.session = c.session) : c.SameProfile c' :=
  congrArg Session.profile h

theorem Inquires.of_sent {c c' : Client} (h : c.SameProfile c') (hs : c'.sent = c.sent) :
    c.Inquires c' :=
  ⟨h, [], by rw [hs, List.append_nil], nofun⟩

theorem Inquires.refl (c : Client) : c.Inquires c :=
  .of_sent (.refl c) rfl

theorem Inquires.trans {c₁ c₂ c₃ : Client} (h : c₁.Inquires c₂) (h' : c₂.Inquires c₃) :
    c₁.Inquires c₃ := by
  obtain ⟨new, hs, hnew⟩ := h.sent
  obtain ⟨new', hs', hnew'⟩ := h'.sent
  refine ⟨h.profile.trans h'.profile, new ++ new', by rw [hs', hs, List.append_assoc], ?_⟩
  intro r hr
  rcases List.mem_append.1 hr with hr | hr
  · exact hnew r hr
  · exact hnew' r hr

end Client

/-! ### Acts whose steps are related -/

/-- Steps that are all related in some way. -/
def Discipline.related (R : Client → Client → Prop) : Discipline Unit Client :=
  ⟨fun _ _ => True, fun _ _ c _ c' => R c c'⟩

/-- There is only one account to keep. -/
abbrev Anyhow (_ : Unit) : Prop :=
  True

variable {σ τ α β : Type} {client : σ → Client} {R R' : Client → Client → Prop}

/-- Whether all steps of an act are related. -/
abbrev Act.Relates (R : Client → Client → Prop) (client : σ → Client) (x : Act σ α) : Prop :=
  x.Keeps (Discipline.related R) Anyhow client

namespace Act

theorem relates_once {f : σ → σ} {r : Environment → σ → Except Fault α}
    (h : ∀ s, R (client s) (client (f s))) : (once f r).Relates R client :=
  fun g _ => follows_once fun _ s _ => ⟨g, h s, fun _ _ => rfl⟩

/-- A run, whether it succeeds or fails, is related as its steps are. -/
theorem related_run (hrefl : ∀ c, R c c) (htrans : ∀ {c₁ c₂ c₃}, R c₁ c₂ → R c₂ c₃ → R c₁ c₃)
    {x : Act σ α} {Q : α → Unit → Prop} (hx : x.Follows ((Discipline.related R).onto client) Q ())
    (env : Environment) (s : σ) : R (client s) (client (x.run env s).2) := by
  induction x generalizing s with
  | done r => exact hrefl _
  | step f k ih =>
    obtain ⟨_, hstep, hrest⟩ := follows_step.1 hx env s trivial
    exact htrans hstep (ih env s hrest (f s))

theorem Relates.run (hrefl : ∀ c, R c c) (htrans : ∀ {c₁ c₂ c₃}, R c₁ c₂ → R c₂ c₃ → R c₁ c₃)
    {x : Act σ α} (hx : x.Relates R client) (env : Environment) (s : σ) :
    R (client s) (client (x.run env s).2) :=
  related_run hrefl htrans (hx () trivial) env s

end Act

/-! ### The steps of requests -/

/-- Whether the steps that requests take are related: reading, sending what is not signed, adding to
the pool, taking out of it, and keeping a directory. -/
structure Client.Admits (R : Client → Client → Prop) : Prop where
  reading : ∀ c c', c'.session = c.session → c'.sent = c.sent → R c c'
  asking : ∀ c c' r, r.method ≠ .post → c'.session = c.session → c'.sent = c.sent ++ [r] → R c c'
  adding : ∀ (c : Client) token,
    R c { c with session := { c.session with nonces := c.session.nonces.add token } }
  taking : ∀ c : Client,
    R c { c with session := { c.session with nonces := c.session.nonces.take.2 } }
  learning : ∀ (c : Client) directory, R c { c with session := { c.session with directory } }

namespace Client.Admits

open Exchange

variable (hR : Admits R)
include hR

theorem relates_of_isReading {x : Act σ α} (hx : x.IsReading client) : x.Relates R client :=
  fun g _ => follows_of_isReading (d := Discipline.related R)
    (fun _ _ c c' hs hr => hR.reading c c' hs hr) hx g

theorem relates_session : (onFirst getSession : Exchange Session).Relates R Prod.fst :=
  hR.relates_of_isReading (isReading_onFirst isReading_getSession)

/-- Sending relates as its one step does that puts the request on the wire. -/
theorem relates_send {method : Method} {url : String} {headers : List (String × String)}
    {body : Option Signed}
    (hsend : ∀ c c' r, r.method = method → c'.session = c.session → c'.sent = c.sent ++ [r] →
      R c c') :
    (send method url headers body).Relates R Prod.fst := by
  refine keeps_bind (hR.relates_of_isReading isReading_close) fun _ => ?_
  refine keeps_bind hR.relates_session fun session => ?_
  refine keeps_bind (keeps_onFirst (relates_once fun c => hsend c _ _ rfl rfl rfl)) fun reply => ?_
  cases reply with
  | failure text => exact keeps_throw _
  | response r =>
    exact keeps_bind (hR.relates_of_isReading (isReading_modify fun _ => ⟨rfl, rfl⟩)) fun _ =>
      keeps_pure _

theorem relates_sendUnsigned {method : Method} (hm : method ≠ .post) (url : String)
    (headers : List (String × String)) (body : Option Signed) :
    (send method url headers body).Relates R Prod.fst :=
  hR.relates_send fun c c' r hr hs hsent => hR.asking c c' r (hr ▸ hm) hs hsent

theorem relates_keepNonce (r : Response) (isRequired : Bool) :
    (keepNonce r isRequired).Relates R Prod.fst := by
  unfold keepNonce
  split
  · refine keeps_onFirst (keeps_bind (keeps_lift _) fun token => ?_)
    exact relates_once fun c => hR.adding c token
  · cases isRequired with
    | true => exact keeps_throw _
    | false => exact keeps_pure _

theorem relates_sendPlain (url wanted : String) : (sendPlain url wanted).Relates R Prod.fst :=
  keeps_bind hR.relates_session fun _ =>
    keeps_bind (hR.relates_sendUnsigned (by decide) _ _ _) fun r =>
      keeps_bind (hR.relates_keepNonce r false) fun _ => keeps_pure _

theorem relates_fetchNonce (url : String) : (fetchNonce url).Relates R Prod.fst := by
  refine keeps_bind hR.relates_session fun _ => ?_
  refine keeps_bind (hR.relates_sendUnsigned (by decide) _ _ _) fun r => ?_
  refine keeps_bind (hR.relates_of_isReading (isReading_accept _)) fun _ => ?_
  split
  · exact keeps_lift _
  · exact keeps_throw _

/-- What the directory takes is related. -/
theorem permits : (Discipline.related R).Permits Anyhow where
  reading _ _ c c' hs hr := hR.reading c c' hs hr
  learning directory := relates_once fun c => hR.learning c directory
  asking := hR.relates_sendPlain

theorem relates_endpointUrl (name : String) : (endpointUrl name).Relates R id :=
  hR.permits.keeps_endpointUrl name

theorem relates_takeNonce : takeNonce.Relates R id := by
  refine keeps_bind (relates_once fun c => hR.taking c) fun t => ?_
  split
  · exact keeps_pure _
  · exact keeps_within _
      (keeps_bind (keeps_onFirst (hR.relates_endpointUrl _)) fun _ => hR.relates_fetchNonce _)

/-- A signed request takes one more step, which sends it. -/
theorem relates_postOnce
    (hsend : ∀ c c' r, c'.session = c.session → c'.sent = c.sent ++ [r] → R c c') (url : String)
    (claims : Claims) (signing : Signing) (wanted : String) :
    (postOnce url claims signing wanted).Relates R Prod.fst := by
  refine keeps_bind hR.relates_session fun session => ?_
  split
  · exact keeps_throw _
  · refine keeps_bind (keeps_lift _) fun payload => ?_
    refine keeps_bind (keeps_onFirst hR.relates_takeNonce) fun nonce => ?_
    refine keeps_bind (keeps_lift _) fun signed => ?_
    refine keeps_bind hR.relates_session fun session' => ?_
    refine keeps_bind (hR.relates_send fun c c' r _ hs hr => hsend c c' r hs hr) fun r => ?_
    exact keeps_bind (hR.relates_keepNonce r r.isOk) fun _ => keeps_pure _

/-- What requests of all sorts take is related. -/
theorem serves (hsend : ∀ c c' r, c'.session = c.session → c'.sent = c.sent ++ [r] → R c c') :
    (Discipline.related R).Serves Anyhow where
  toPermits := hR.permits
  taking _ hg := hR.relates_takeNonce.follows hg
  fetching url _ hg := (hR.relates_fetchNonce url).follows hg
  posting := hR.relates_postOnce hsend

/-- What all operations take is related. -/
theorem covers (hsend : ∀ c c' r, c'.session = c.session → c'.sent = c.sent ++ [r] → R c c')
    (hchange : ∀ f : Session → Session, (∀ s, (f s).nonces = s.nonces) →
      ∀ c : Client, R c { c with session := f c.session }) :
    (Discipline.related R).Covers Anyhow where
  toServes := hR.serves hsend
  changing f hf _ hg := by
    have hmodify : (modifySession f).Relates R id := relates_once fun c => hchange f hf c
    exact hmodify.follows hg

end Client.Admits

/-! ### Asking without signing -/

namespace Client

/-- What only asks sends nothing that is signed. -/
theorem admits_inquires : Admits Inquires where
  reading _ _ hs hr := .of_sent (.of_session hs) hr
  asking c c' r hm hs hsent := by
    refine ⟨.of_session hs, [r], hsent, fun q hq => ?_⟩
    rw [List.mem_singleton.1 hq]
    exact hm
  adding _ _ := .of_sent rfl rfl
  taking _ := .of_sent rfl rfl
  learning _ _ := .of_sent rfl rfl

theorem inquires_takeNonce (env : Environment) (c : Client) :
    c.Inquires (takeNonce.run env c).2 :=
  admits_inquires.relates_takeNonce.run Inquires.refl Inquires.trans env c

theorem inquires_endpointUrl (env : Environment) (c : Client) (name : String) :
    c.Inquires ((endpointUrl name).run env c).2 :=
  (admits_inquires.relates_endpointUrl name).run Inquires.refl Inquires.trans env c

end Client

/-! ### The profile -/

theorem Client.admits_profile : Admits SameProfile where
  reading _ _ hs _ := .of_session hs
  asking _ _ _ _ hs _ := .of_session hs
  adding _ _ := rfl
  taking _ := rfl
  learning _ _ := rfl

/-- A signed request leaves the profile alone. -/
theorem Exchange.relates_postOnce (url : String) (claims : Claims) (signing : Signing)
    (wanted : String) :
    (postOnce url claims signing wanted).Relates Client.SameProfile Prod.fst :=
  Client.admits_profile.relates_postOnce (fun _ _ _ hs _ => .of_session hs) url claims signing
    wanted

/-- Requests of all sorts leave the profile alone. -/
theorem Discipline.serves_profile : (Discipline.related Client.SameProfile).Serves Anyhow :=
  Client.admits_profile.serves fun _ _ _ hs _ => .of_session hs

/-! ### Whole runs -/

namespace Act

variable {ρ : Type} {v : σ → ρ} {R S T : ρ → ρ → Prop} {x : Act σ α}

/-- Whether every run of an act leads from what is seen of a state to something that is related to
it, whether the run succeeds or fails. -/
def Moves (R : ρ → ρ → Prop) (v : σ → ρ) (x : Act σ α) : Prop :=
  ∀ env s, R (v s) (v (x.run env s).2)

theorem moves_lift (hrefl : ∀ c, R c c) (r : Except Fault α) :
    (liftM r : Act σ α).Moves R v :=
  fun _ s => hrefl (v s)

/-- A composed act leads where its first part leads, or on from there. -/
theorem leads_bind {y : α → Act σ β} {env : Environment} {s : σ}
    (hx : R (v s) (v (x.run env s).2)) (hy : ∀ a, (y a).Moves S v)
    (hstop : ∀ c c', R c c' → T c c') (hgo : ∀ c₁ c₂ c₃, R c₁ c₂ → S c₂ c₃ → T c₁ c₃) :
    T (v s) (v ((x >>= y).run env s).2) := by
  rw [run_bind]
  rcases hrun : x.run env s with ⟨e | a, t⟩
  · rw [hrun] at hx
    exact hstop _ _ hx
  · rw [hrun] at hx
    exact hgo _ _ _ hx (hy a env t)

theorem moves_bind (htrans : ∀ c₁ c₂ c₃, R c₁ c₂ → R c₂ c₃ → R c₁ c₃) {y : α → Act σ β}
    (hx : x.Moves R v) (hy : ∀ a, (y a).Moves R v) : (x >>= y).Moves R v :=
  fun env s => leads_bind (hx env s) hy (fun _ _ h => h) htrans

/-- Whether an act leaves what is seen of a state as it is. -/
abbrev Leaves (v : σ → ρ) (x : Act σ α) : Prop :=
  x.Moves Eq v

theorem leaves_bind {y : α → Act σ β} (hx : x.Leaves v) (hy : ∀ a, (y a).Leaves v) :
    (x >>= y).Leaves v :=
  moves_bind (R := Eq) (fun _ _ _ => Eq.trans) hx hy

theorem leaves_mapM {f : α → Act σ β} (hf : ∀ a, (f a).Leaves v) (xs : List α) :
    (xs.mapM f).Leaves v := by
  induction xs with
  | nil => exact fun _ _ => rfl
  | cons x xs ih =>
    rw [List.mapM_cons]
    exact leaves_bind (hf x) fun b => leaves_bind ih fun bs _ _ => rfl

/-- What is done after a failure leads on. -/
theorem moves_tryCatch (htrans : ∀ c₁ c₂ c₃, R c₁ c₂ → R c₂ c₃ → R c₁ c₃)
    {y : Fault → Act σ α} (hx : x.Moves R v) (hy : ∀ e, (y e).Moves R v) :
    (tryCatch x y).Moves R v := by
  intro env s
  have hfirst := hx env s
  rw [run_tryCatch]
  rcases hrun : x.run env s with ⟨e | a, t⟩
  · rw [hrun] at hfirst
    exact htrans _ _ _ hfirst (hy e env t)
  · rw [hrun] at hfirst
    exact hfirst

theorem moves_onFirst {x : Act σ α} {v : σ → ρ} (hx : x.Moves R v) :
    (onFirst x : Act (σ × τ) α).Moves R fun s => v s.1 := by
  intro env s
  rw [run_onFirst]
  exact hx env s.1

/-- What is done on the first half leaves the second one alone. -/
theorem moves_onFirst_snd {R : τ → τ → Prop} (hrefl : ∀ t, R t t) (x : Act σ α) :
    (onFirst x : Act (σ × τ) α).Moves R Prod.snd := by
  intro env s
  rw [run_onFirst]
  exact hrefl s.2

theorem moves_within {x : Act (σ × τ) α} {v : σ → ρ} (t : τ)
    (hx : x.Moves R fun s => v s.1) : (within t x).Moves R v := by
  intro env s
  rw [run_within]
  exact hx env (s, t)

theorem moves_of_isReading {R : Client → Client → Prop}
    (hquiet : ∀ c c', c'.session = c.session → c'.sent = c.sent → R c c')
    (hx : x.IsReading client) : x.Moves R client := by
  intro env s
  obtain ⟨hsession, hsent⟩ := run_of_isReading hx env s
  exact hquiet _ _ hsession hsent

end Act

/-- Keeping a nonce leads where adding one to the pool leads. -/
theorem Exchange.moves_keepNonce (hrefl : ∀ c, R c c)
    (hadd : ∀ c pool, R c { c with session := { c.session with nonces := pool } })
    (r : Response) (isRequired : Bool) : (keepNonce r isRequired).Moves R Prod.fst := by
  intro env s
  unfold keepNonce
  cases r.headers.get? nonceHeader with
  | none => cases isRequired <;> exact hrefl _
  | some text =>
    show R s.1 ((onFirst (Client.offerNonce text) : Exchange Unit).run env s).2.1
    rw [run_onFirst, Client.offerNonce, run_bind, run_lift]
    cases decodeHeaderNonce text with
    | error e => exact hrefl _
    | ok token => exact hadd _ _

end AcmeClient
