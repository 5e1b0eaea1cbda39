import AcmeClient.Operation
import AcmeClient.Proofs.Answers
import AcmeClient.Proofs.FieldValues
import AcmeClient.Proofs.Prompt

/-!
# Documents are taken as a whole

An operation that takes a document into a resource takes it with all that goes with it, or leaves
the resource as it was:

* `run_unmarshall` — a document is taken in one go, for the URL that it names can always be bound;
* `Resource.Takes` — a resource with what the last answer of the server gives;
* `Loading.IsTransaction` — an act that fails and changes nothing, or takes the last answer;
* `Loading.PostsTo` — an act that fails and changes nothing, or sends claims and takes the answer;
* `Loading.Applies` — an update whose answer is taken;
* `LoadingOperation.all_or_nothing` — what all loading operations have in common, and when an update
  asks to come back.
-/

namespace AcmeClient

open Act Calendar

/-! ### The URL that a document names -/

theorem isAbsolute_of_url? {f : Field} {u : String} (h : f.url? = .ok (some u)) :
    isAbsolute u = .ok true := by
  obtain ⟨-, hnone⟩ | ⟨v, -, habsolute, hv⟩ := Field.url?_eq_ok.1 h
  · cases hnone
  · cases hv
    exact habsolute

theorem isAbsolute_of_challengeUrl {ms : Members} {u : String}
    (h : ResourceKind.challengeUrl ms = .ok (some u)) : isAbsolute u = .ok true := by
  obtain ⟨first, hfirst, h⟩ := bind_eq_ok.1 h
  cases first with
  | none => exact isAbsolute_of_url? h
  | some v =>
    cases h
    exact isAbsolute_of_url? hfirst

namespace Resource

variable {r r' : Resource} {ms : Members} {u : String}

/-- A document names a URL only to a challenge without a location, and the URL can be bound. -/
theorem location_of_urlFor (h : r.urlFor ms = .ok (some u)) :
    r.location = none ∧ isAbsolute u = .ok true := by
  obtain ⟨kind, location, body, retryAfter⟩ := r
  cases location with
  | some l => cases kind <;> cases h
  | none =>
    cases kind with
    | challenge v => exact ⟨rfl, isAbsolute_of_challengeUrl h⟩
    | _ => cases h

/-- An absolute URL can be bound to a resource without a location. -/
theorem bindTo_of_isAbsolute (hr : r.location = none) (hu : isAbsolute u = .ok true) :
    r.bindTo (.string u) = .ok { r with location := some u } := by
  simp [bindTo, bound, checkUrl, hr, hu]

/-- A resource with a document is of the same kind, and what it says of coming back is as before. -/
theorem load_eq_ok (h : r.load ms = .ok r') :
    r'.kind = r.kind ∧ r'.body = ms ∧ r'.retryAfter = r.retryAfter := by
  cases hu : r.urlFor ms with
  | error e => simp [load, hu] at h
  | ok url =>
    cases hc : r.kind.check ms with
    | error e => simp [load, hu, hc] at h
    | ok _ =>
      cases url with
      | none =>
        simp only [load, hu, hc, ok_bind, ok_eq_pure, Except.ok.injEq] at h
        rw [← h]
        exact ⟨rfl, rfl, rfl⟩
      | some u =>
        obtain ⟨hlocation, habsolute⟩ := location_of_urlFor hu
        have hbind := bindTo_of_isAbsolute (r := { r with body := ms }) hlocation habsolute
        simp only [load, hu, hc, ok_bind, hbind, Except.ok.injEq] at h
        rw [← h]
        exact ⟨rfl, rfl, rfl⟩

end Resource

namespace Loading

variable {env : Environment} {c c' : Client} {r r' : Resource}

/-! ### Taking a document -/

/-- A document is taken in one go: a resource that refuses it stays as it is. -/
theorem run_unmarshall (env : Environment) (c : Client) (r : Resource) (ms : Members) :
    (unmarshall ms).run env (c, r) =
      match r.load ms with
      | .ok r₁ => (.ok (), (c, r₁))
      | .error e => (.error e, (c, r)) := by
  cases hu : r.urlFor ms with
  | error e =>
    simp [unmarshall, resource, run_bind, hu, Resource.load]
  | ok url =>
    cases hc : r.kind.check ms with
    | error e =>
      simp [unmarshall, resource, run_bind, hu, hc, Resource.load]
    | ok _ =>
      cases url with
      | none =>
        simp [unmarshall, resource, run_bind, hu, hc, Resource.load]
      | some u =>
        obtain ⟨hlocation, habsolute⟩ := Resource.location_of_urlFor hu
        have hbind := Resource.bindTo_of_isAbsolute (r := { r with body := ms }) hlocation habsolute
        simp [unmarshall, resource, bindTo, run_bind, hu, hc, hbind, Resource.load]

theorem run_adopt (env : Environment) (c : Client) (r : Resource) (ms : Members)
    (t : Option Instant) :
    (adopt ms t).run env (c, r) =
      match r.load ms with
      | .ok r₁ => (.ok (), (c, { r₁ with retryAfter := t }))
      | .error e => (.error e, (c, r)) := by
  rw [adopt, run_bind, run_unmarshall]
  cases r.load ms with
  | error e => rfl
  | ok r₁ => rfl

end Loading

def Resource.IsAt (r : Resource) (url : String) : Prop :=
  r.location = some url

/-- Whether a resource is what the last answer of the server gives. -/
def Resource.Takes (env : Environment) (c : Client) (r : Resource) : Prop :=
  ∃ codes url response, c.Received env codes url response r.body r.retryAfter

namespace Loading

/-! ### Transactions -/

/-- Whether an act fails and leaves the resource as it was, or takes what the last answer gives. -/
def IsTransaction (x : Loading Unit) : Prop :=
  ∀ env c r,
    match x.run env (c, r) with
    | (.ok (), c', r') => r'.Takes env c'
    | (.error _, _, r') => r' = r

/-- Whether an act leaves the state as it is. -/
def Stays {α : Type} (x : Loading α) : Prop :=
  ∀ env s, (x.run env s).2 = s

theorem stays_lift {α : Type} (x : Except Fault α) : Stays (liftM x) :=
  fun _ _ => rfl

theorem stays_bind {α β : Type} {x : Loading α} {y : α → Loading β} (hx : Stays x)
    (hy : ∀ a, Stays (y a)) : Stays (x >>= y) := by
  intro env s
  have hs := hx env s
  rw [run_bind]
  cases hrun : x.run env s with
  | mk result t =>
    rw [hrun] at hs
    cases result with
    | error e => exact hs
    | ok a => exact (hy a env t).trans hs

theorem stays_resource : Stays resource :=
  fun _ _ => rfl

theorem stays_requireLocation : Stays requireLocation :=
  stays_bind stays_resource fun _ => stays_lift _

theorem stays_respond (b : DraftBook) : Stays (respond b) :=
  stays_bind stays_resource fun _ => stays_bind (fun _ _ => rfl) fun _ => stays_lift _

/-- Whether an act fails and leaves everything as it is, or sends claims to a URL that suits the
resource. -/
def PostsTo (suits : Resource → String → Prop) (x : Loading Unit) : Prop :=
  ∀ env c r, (∃ e, x.run env (c, r) = (.error e, (c, r))) ∨
    ∃ url claims codes, suits r url ∧ x.run env (c, r) = (post url claims codes).run env (c, r)

variable {suits : Resource → String → Prop}

theorem postsTo_throw (e : Fault) : PostsTo suits (throw e) :=
  fun _ _ _ => .inl ⟨e, rfl⟩

/-- What leads to claims that are sent may fail, too. -/
theorem postsTo_bind {α : Type} {x : Loading α} {y : α → Loading Unit} (hx : Stays x)
    (hy : ∀ a, PostsTo suits (y a)) : PostsTo suits (x >>= y) := by
  intro env c r
  have hs := hx env (c, r)
  rw [run_bind]
  rcases hrun : x.run env (c, r) with ⟨e | a, s⟩
  · rw [hrun] at hs
    exact .inl ⟨e, congrArg (Prod.mk _) hs⟩
  · rw [hrun] at hs
    obtain rfl : s = (c, r) := hs
    exact hy a env c r

theorem postsTo_postHere (claims : Claims) (codes : List Int) :
    PostsTo Resource.IsAt (postHere claims codes) := by
  intro env c r
  have hrequire : requireLocation.run env (c, r) = (locationOf r.kind.name r.location, (c, r)) :=
    rfl
  rw [postHere, run_bind, hrequire]
  cases hr : r.location with
  | none => exact .inl ⟨_, rfl⟩
  | some url => exact .inr ⟨url, claims, codes, hr, rfl⟩

theorem postsTo_trigger : PostsTo Resource.IsAt trigger :=
  postsTo_bind (stays_respond _) fun _ => postsTo_postHere _ _

theorem postsTo_finalize (form : X509.Request.Form) :
    PostsTo (fun _ _ => True) (finalize form) := by
  refine postsTo_bind (stays_lift _) fun der =>
    postsTo_bind stays_resource fun r => postsTo_bind (stays_lift _) fun url => ?_
  split
  · exact postsTo_throw _
  · exact fun _ _ _ => .inr ⟨_, _, _, trivial, rfl⟩

theorem postsTo_deactivate : PostsTo Resource.IsAt deactivate :=
  postsTo_bind (stays_lift _) fun _ => postsTo_postHere _ _

theorem postsTo_modifyContacts (contact : Value) :
    PostsTo Resource.IsAt (modifyContacts contact) :=
  postsTo_bind (stays_lift _) fun _ => postsTo_bind (stays_lift _) fun _ => postsTo_postHere _ _

/-- Claims are sent, and the document of the answer is taken or not. -/
theorem run_post (env : Environment) (c : Client) (r : Resource) (url : String) (claims : Claims)
    (codes : List Int) :
    (post url claims codes).run env (c, r) =
      match (Client.posted url claims codes).run env c with
      | (.error e, c') => (.error e, (c', r))
      | (.ok (ms, t), c') =>
        match r.load ms with
        | .error e => (.error e, (c', r))
        | .ok r₁ => (.ok (), (c', { r₁ with retryAfter := t })) := by
  rw [post, run_bind, run_onFirst]
  rcases (Client.posted url claims codes).run env c with ⟨e | ⟨ms, t⟩, c'⟩
  · rfl
  · show (adopt ms t).run env (c', r) = _
    rw [run_adopt]
    dsimp only
    cases r.load ms with
    | error e => rfl
    | ok r₁ => rfl

theorem isTransaction_post (url : String) (claims : Claims) (codes : List Int) :
    IsTransaction (post url claims codes) := by
  intro env c r
  rw [run_post]
  rcases hposted : (Client.posted url claims codes).run env c with ⟨e | ⟨ms, t⟩, c'⟩
  · rfl
  · obtain ⟨response, hreceived⟩ := Client.received_of_run Exchange.holds_sendSigned hposted
    dsimp only
    cases hload : r.load ms with
    | error e => rfl
    | ok r₁ =>
      obtain ⟨-, rfl, -⟩ := Resource.load_eq_ok hload
      exact ⟨codes, url, response, hreceived⟩

theorem isTransaction_of_postsTo {x : Loading Unit} (hx : PostsTo suits x) : IsTransaction x := by
  intro env c r
  rcases hx env c r with ⟨e, hrun⟩ | ⟨url, claims, codes, -, hrun⟩
  · rw [hrun]
  · rw [hrun]
    exact isTransaction_post url claims codes env c r

theorem isTransaction_trigger : IsTransaction trigger :=
  isTransaction_of_postsTo postsTo_trigger

theorem isTransaction_finalize (form : X509.Request.Form) : IsTransaction (finalize form) :=
  isTransaction_of_postsTo (postsTo_finalize form)

theorem isTransaction_deactivate : IsTransaction deactivate :=
  isTransaction_of_postsTo postsTo_deactivate

theorem isTransaction_modifyContacts (contact : Value) : IsTransaction (modifyContacts contact) :=
  isTransaction_of_postsTo (postsTo_modifyContacts contact)

/-! ### Updates -/

/-- Whether an update takes an answer: the answer comes with one of the two statuses, and the
resource accepts the document in it. -/
def Applies (env : Environment) (c : Client) (r : Resource) (response : Response)
    (r' : Resource) : Prop :=
  ∃ url status c₁ ms t r₁, r.location = some url ∧
    (Exchange.fetch url Exchange.jsonType).run env (c, .idle)
      = (.ok status, (c₁, ⟨some response, some url, none⟩)) ∧
    response.Gives [200, 202] (env.clock c₁.readings) ms t ∧
    r.load ms = .ok r₁ ∧ r' = { r₁ with retryAfter := t }

/-- The fault of an update that is to be repeated. -/
def notCompleted (r : Resource) (t : Instant) : Fault :=
  .retryAfter (r.kind.name ++ " is not completed yet") t

/-- The result of an update that took an answer. -/
def updated (r : Resource) : Except Fault Unit :=
  match r.retryAfter with
  | some t => .error (notCompleted r t)
  | none => .ok ()

theorem updated_eq_error {e : Fault} :
    updated r = .error e ↔ ∃ t, r.retryAfter = some t ∧ e = notCompleted r t := by
  cases hr : r.retryAfter with
  | none => simp [updated, hr]
  | some t => simp [updated, hr, eq_comm]

/-- An update goes on as long as nothing fails, and takes the document before it looks when to come
back. -/
theorem run_update {url : String} (hlocation : r.location = some url) :
    update.run env (c, r) =
      match (Client.fetched url).run env c with
      | (.error e, c') => (.error e, (c', r))
      | (.ok (ms, t), c') =>
        match r.load ms with
        | .error e => (.error e, (c', r))
        | .ok r₁ => (updated { r₁ with retryAfter := t }, (c', { r₁ with retryAfter := t })) := by
  have hrequire : requireLocation.run env (c, r) = (.ok url, (c, r)) := by
    show (locationOf r.kind.name r.location, (c, r)) = _
    rw [hlocation]
    rfl
  rw [update, run_bind_of_ok env hrequire, run_bind, run_onFirst]
  cases (Client.fetched url).run env c with
  | mk result c' =>
    cases result with
    | error e => rfl
    | ok answer =>
      obtain ⟨ms, t⟩ := answer
      show (adopt ms t >>= fun _ => _ : Loading Unit).run env (c', r) = _
      rw [run_bind, run_adopt]
      cases hload : r.load ms with
      | error e => simp only [hload]
      | ok r₁ =>
        simp only [hload]
        cases t <;> rfl

/-- There is nothing to update without a location. -/
theorem run_update_unplaced (hlocation : r.location = none) :
    update.run env (c, r) = (.error (.usage (.unbound r.kind.name)), (c, r)) := by
  have hrequire : requireLocation.run env (c, r)
      = (.error (.usage (.unbound r.kind.name)), (c, r)) := by
    show (locationOf r.kind.name r.location, (c, r)) = _
    rw [hlocation]
    rfl
  rw [update, run_bind_of_error env hrequire]

/-- An update that takes an answer fails exactly when the answer says when to come back. -/
theorem run_update_of_applies {response : Response} (h : Applies env c r response r') :
    ∃ c', update.run env (c, r) = (updated r', (c', r')) ∧ r'.Takes env c' ∧
      r'.retryAfter.isSome = (response.headers.get? Exchange.retryHeader).isSome := by
  obtain ⟨url, status, c₁, ms, t, r₁, hlocation, hfetch, hgives, hload, rfl⟩ := h
  have hfetched : (Client.fetched url).run env c = (.ok (ms, t), c₁.advised response) :=
    (Client.run_taken_eq_ok Exchange.holds_fetch).2 ⟨status, c₁, response, hfetch, hgives, rfl⟩
  obtain ⟨q, hreceived⟩ := Client.received_of_run Exchange.holds_fetch hfetched
  refine ⟨c₁.advised response, ?_, ?_, Response.isSome_advice hgives.advice⟩
  · rw [run_update hlocation, hfetched]
    simp only [hload]
  · obtain ⟨-, rfl, -⟩ := Resource.load_eq_ok hload
    exact ⟨_, url, q, hreceived⟩

/-- An update that takes no answer fails at once and leaves the resource as it was. -/
theorem run_update_cases (env : Environment) (c : Client) (r : Resource) :
    (∃ e c', update.run env (c, r) = (.error e, (c', r)) ∧ e.IsPrompt) ∨
      ∃ response r', Applies env c r response r' := by
  cases hlocation : r.location with
  | none => exact .inl ⟨_, c, run_update_unplaced hlocation, trivial⟩
  | some url =>
    rw [run_update hlocation]
    cases hfetched : (Client.fetched url).run env c with
    | mk result c' =>
      cases result with
      | error e =>
        refine .inl ⟨e, c', rfl, ?_⟩
        exact (Client.isPrompt_fetched url).run env c e (congrArg Prod.fst hfetched)
      | ok answer =>
        obtain ⟨ms, t⟩ := answer
        cases hload : r.load ms with
        | error e => exact .inl ⟨e, c', by simp only [hload], prompt_load r ms e hload⟩
        | ok r₁ =>
          obtain ⟨status, c₁, response, hfetch, hgives, -⟩ :=
            (Client.run_taken_eq_ok Exchange.holds_fetch).1 hfetched
          exact .inr ⟨response, _, url, status, c₁, ms, t, r₁, hlocation, hfetch, hgives, hload,
            rfl⟩

end Loading

/-! ### All loading operations -/

/-- What a loading operation makes of a resource. -/
structure LoadingOperation.IsAtomic (o : LoadingOperation) (env : Environment) (c : Client)
    (r : Resource) (result : Except Fault Unit) (c' : Client) (r' : Resource) : Prop where
  fails : ∀ e, result = .error e → (o = .update → e.IsPrompt) → r' = r
  asksBack : ∀ message t, o = .update → result = .error (.retryAfter message t) →
    r'.Takes env c' ∧ r'.retryAfter = some t
  succeeds : result = .ok () → r'.Takes env c' ∨ ∃ ms, o = .unmarshall ms ∧ r'.body = ms
  asksBack_iff : o = .update → ((∃ message t, result = .error (.retryAfter message t)) ↔
    ∃ response, Loading.Applies env c r response r' ∧
      (response.headers.get? Exchange.retryHeader).isSome)

namespace LoadingOperation

variable {env : Environment} {c c' : Client} {r r' : Resource} {result : Except Fault Unit}

/-- An operation other than an update is atomic when it is a transaction. -/
theorem isAtomic_of_isTransaction {o : LoadingOperation} (h : Loading.IsTransaction o.act)
    (ho : o ≠ .update) (hrun : o.act.run env (c, r) = (result, (c', r'))) :
    o.IsAtomic env c r result c' r' := by
  have hcase := h env c r
  rw [hrun] at hcase
  refine ⟨?_, fun _ _ hu => absurd hu ho, ?_, fun hu => absurd hu ho⟩
  · rintro e rfl -
    exact hcase
  · rintro rfl
    exact .inl hcase

theorem isAtomic_unmarshall {ms : Members}
    (hrun : (Loading.unmarshall ms).run env (c, r) = (result, (c', r'))) :
    (unmarshall ms).IsAtomic env c r result c' r' := by
  rw [Loading.run_unmarshall] at hrun
  cases hload : r.load ms with
  | error e =>
    rw [hload] at hrun
    cases hrun
    exact ⟨fun _ _ _ => rfl, nofun, nofun, nofun⟩
  | ok r₁ =>
    rw [hload] at hrun
    cases hrun
    refine ⟨?_, nofun, fun _ => .inr ⟨ms, rfl, (Resource.load_eq_ok hload).2.1⟩, nofun⟩
    intro e he
    cases he

/-- What an update comes to when it takes an answer. -/
theorem update_eq_of_applies {response : Response} {r₁ : Resource}
    (h : Loading.Applies env c r response r₁)
    (hrun : Loading.update.run env (c, r) = (result, (c', r'))) :
    r₁ = r' ∧ result = Loading.updated r' ∧ r'.Takes env c' ∧
      r'.retryAfter.isSome = (response.headers.get? Exchange.retryHeader).isSome := by
  obtain ⟨c₁, hrun', htakes, hsome⟩ := Loading.run_update_of_applies h
  rw [hrun] at hrun'
  cases hrun'
  exact ⟨rfl, rfl, htakes, hsome⟩

/-- An update that fails at once is atomic when it leaves the resource as it was. -/
theorem isAtomic_update_of_isPrompt {e : Fault} (he : e.IsPrompt)
    (hrun : Loading.update.run env (c, r) = (.error e, (c', r))) :
    update.IsAtomic env c r (.error e) c' r := by
  refine ⟨fun _ _ _ => rfl, ?_, nofun, fun _ => ⟨?_, ?_⟩⟩
  · rintro message t - h
    cases h
    exact he.elim
  · rintro ⟨message, t, h⟩
    cases h
    exact he.elim
  · -- an answer that is taken ends in another result
    rintro ⟨response, h, -⟩
    obtain ⟨-, hresult, -, -⟩ := update_eq_of_applies h hrun
    obtain ⟨t, -, rfl⟩ := Loading.updated_eq_error.1 hresult.symm
    exact he.elim

/-- An update that takes an answer is atomic. -/
theorem isAtomic_update_of_applies {response : Response} (h : Loading.Applies env c r response r')
    (hrun : Loading.update.run env (c, r) = (Loading.updated r', (c', r'))) :
    update.IsAtomic env c r (Loading.updated r') c' r' := by
  obtain ⟨-, -, htakes, hsome⟩ := update_eq_of_applies h hrun
  refine ⟨?_, ?_, fun _ => .inl htakes, fun _ => ⟨?_, ?_⟩⟩
  · intro e he hprompt
    obtain ⟨t, -, rfl⟩ := Loading.updated_eq_error.1 he
    exact (hprompt rfl).elim
  · intro message t _ he
    obtain ⟨u, hu, hfault⟩ := Loading.updated_eq_error.1 he
    cases hfault
    exact ⟨htakes, hu⟩
  · rintro ⟨message, t, he⟩
    obtain ⟨u, hu, -⟩ := Loading.updated_eq_error.1 he
    refine ⟨response, h, ?_⟩
    rw [← hsome, hu]
    rfl
  · rintro ⟨q, hq, hheader⟩
    obtain ⟨-, -, -, hsome⟩ := update_eq_of_applies hq hrun
    rw [hheader] at hsome
    obtain ⟨t, ht⟩ := Option.isSome_iff_exists.1 hsome
    exact ⟨_, t, Loading.updated_eq_error.2 ⟨t, ht, rfl⟩⟩

theorem isAtomic_update (hrun : Loading.update.run env (c, r) = (result, (c', r'))) :
    update.IsAtomic env c r result c' r' := by
  rcases Loading.run_update_cases env c r with ⟨e, c₁, hrun', he⟩ | ⟨response, r₁, h⟩
  · rw [hrun] at hrun'
    cases hrun'
    exact isAtomic_update_of_isPrompt he hrun
  · obtain ⟨rfl, rfl, -, -⟩ := update_eq_of_applies h hrun
    exact isAtomic_update_of_applies h hrun

/-- **All or nothing.** Whatever the session, the server and the clock are like: an operation that
takes a document into a resource fails and leaves the resource as it was, or the resource is what
the last answer gives. Only an update may do both: it takes an answer that says when to come back,
and fails with that instant. -/
theorem all_or_nothing (o : LoadingOperation) (env : Environment) (c : Client) (r : Resource) :
    o.IsAtomic env c r (o.act.run env (c, r)).1 (o.act.run env (c, r)).2.1
      (o.act.run env (c, r)).2.2 := by
  have hrun : o.act.run env (c, r) = (_, (_, _)) := rfl
  cases o with
  | unmarshall ms => exact isAtomic_unmarshall hrun
  | update => exact isAtomic_update hrun
  | trigger => exact isAtomic_of_isTransaction Loading.isTransaction_trigger nofun hrun
  | finalize form =>
    exact isAtomic_of_isTransaction (Loading.isTransaction_finalize form) nofun hrun
  | deactivate => exact isAtomic_of_isTransaction Loading.isTransaction_deactivate nofun hrun
  | modify contact =>
    exact isAtomic_of_isTransaction (Loading.isTransaction_modifyContacts contact) nofun hrun

end LoadingOperation

end AcmeClient
