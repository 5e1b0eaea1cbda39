import AcmeClient.Proofs.Answers
import AcmeClient.Proofs.Operations
import AcmeClient.Proofs.Problems

/-!
# Refusals by the server

An answer whose status is not accepted is refused with what the server explains. The explanation is
read from the answer itself, so reading it may fail with another fault:

* `Response.IsTellable` — answers from which the refusal can be told;
* `Rejection.Tells` — refusals that say what the answer says;
* `Exchange.accept_refuses` — an answer is refused with what it says exactly when that can be told.
-/

namespace AcmeClient

open Act Calendar

/-! ### What is told -/

/-- The codes of problems that make kinds of refusals of their own, and the names of these kinds. -/
def refusalNames : List (String × String) :=
  [("rateLimited", "RateLimited"), ("unauthorized", "Unauthorized"),
    ("userActionRequired", "UserActionRequired")]

/-- Whether what an answer says of coming back does not lead out of the calendar. -/
def Response.IsInRange (r : Response) (now : Instant) : Prop :=
  ∀ value d, r.headers.get? Exchange.retryHeader = some value →
    RetryAfter.parse value now ≠ .error (.outOfRange d)

/-- Whether all links of an answer with a relation can be resolved. -/
def Response.IsLinked (r : Response) (url : Option String) (relation : String) : Prop :=
  ∀ value, r.headers.get? "Link" = some value → ∀ reference ∈ Link.related relation value,
    ∃ u, Url.join (url.getD "") reference = .ok u

/-- Whether the refusal in an answer can be told: the problem has a type that can be told, and so
can be what the headers say for this type. -/
def Response.IsTellable (r : Response) (url : Option String) (now : Instant) : Prop :=
  ∀ p, Exchange.problemIn r url = some p → p.IsTyped ∧
    (p.IsOf "rateLimited" → r.IsInRange now) ∧
    (p.IsOf "userActionRequired" → r.IsLinked url "terms-of-service")

/-- Whether a refusal says what an answer says. -/
structure Rejection.Tells (x : Rejection) (r : Response) (url : Option String) : Prop where
  status : x.status = some r.status
  problem_none : x.problem = none ↔ ∀ ms, (Body.octets r.content).document = .ok ms →
    (ms.get "type").string? = none ∧ (ms.get "detail").string? = none
  problem_some : ∀ p, x.problem = some p →
    (Body.octets r.content).document = .ok p.members ∧ p.baseUrl = url
  plain : x.problem = none → x.kind = .plain
  named : ∀ p, x.problem = some p → ∀ q ∈ refusalNames, (x.kind.name = q.2 ↔ p.IsOf q.1)
  other : ∀ p, x.problem = some p → (x.kind = .plain ↔ ∀ q ∈ refusalNames, ¬ p.IsOf q.1)

namespace Exchange

variable {env : Environment} {c : Client} {connection : Connection} {r : Response}

/-- There is no problem in a body that is no document or has neither a type nor a detail. -/
theorem problemIn_eq_none_iff (r : Response) (url : Option String) :
    problemIn r url = none ↔ ∀ ms, (Body.octets r.content).document = .ok ms →
      (ms.get "type").string? = none ∧ (ms.get "detail").string? = none := by
  cases hd : (Body.octets r.content).document with
  | error d => simp [problemIn, hd]
  | ok ms => simp [problemIn, hd, isProblem]

theorem problemIn_eq_some {url : Option String} {p : Problem} (h : problemIn r url = some p) :
    (Body.octets r.content).document = .ok p.members ∧ p.baseUrl = url := by
  cases hd : (Body.octets r.content).document with
  | error d => simp [problemIn, hd] at h
  | ok ms =>
    simp only [problemIn, hd, Option.ite_none_right_eq_some, Option.some.injEq] at h
    obtain ⟨-, rfl⟩ := h
    exact ⟨rfl, rfl⟩

/-! ### Reading what is told -/

theorem resolve_eq_ok_iff {reference : String} :
    (∃ u, connection.resolve reference = .ok u) ↔
      ∃ u, Url.join (connection.url.getD "") reference = .ok u := by
  rw [Connection.resolve, wellSplit]
  cases Url.join (connection.url.getD "") reference with
  | error d => simp
  | ok u => simp

/-- Links are read when they can be resolved; what goes wrong otherwise is no refusal. -/
theorem links_cases (env : Environment) (c : Client) (hheld : connection.response = some r)
    (relation : String) :
    (∃ urls, (links relation).run env (c, connection) = (.ok urls, (c, connection)) ∧
      r.IsLinked connection.url relation) ∨
    (∃ e, (links relation).run env (c, connection) = (.error e, (c, connection)) ∧
      ¬ r.IsLinked connection.url relation ∧ ∀ x, e ≠ .rejected x) := by
  rw [run_links env c hheld, Response.links]
  cases hl : r.headers.get? "Link" with
  | none =>
    refine .inl ⟨[], rfl, ?_⟩
    intro value hvalue
    rw [hl] at hvalue
    cases hvalue
  | some value =>
    dsimp only
    rcases mapM_cases connection.resolve (Link.related relation value) with
      ⟨urls, hurls, hall⟩ | ⟨reference, hmem, e, he, hfail⟩
    · refine .inl ⟨urls, congrArg (·, (c, connection)) hurls, ?_⟩
      intro value' hvalue reference hmem
      rw [hl] at hvalue
      cases hvalue
      exact resolve_eq_ok_iff.1 (hall reference hmem)
    · refine .inr ⟨e, congrArg (·, (c, connection)) hfail, ?_, ?_⟩
      · intro hlinked
        obtain ⟨u, hu⟩ := resolve_eq_ok_iff.2 (hlinked value hl reference hmem)
        rw [he] at hu
        cases hu
      · rintro x rfl
        rw [Connection.resolve, wellSplit] at he
        cases hj : Url.join (connection.url.getD "") reference <;> rw [hj] at he <;> cases he

/-- A value that names no instant breaks the protocol or leads out of the calendar. -/
theorem parse_cases (value : String) (now : Instant) :
    (∃ t, RetryAfter.parse value now = .ok t) ∨
      (∃ d, RetryAfter.parse value now = .error (.protocol d)) ∨
      ∃ d, RetryAfter.parse value now = .error (.outOfRange d) := by
  simp only [RetryAfter.parse]
  cases Text.readInt? (Text.strip value) with
  | none =>
    cases hf : HttpDate.fields? (Text.strip value) with
    | none => simp [RetryAfter.ofDate, hf, RetryAfter.refuse]
    | some fields =>
      cases ht : fields.toInstant with
      | error d => simp [RetryAfter.ofDate, hf, ht, RetryAfter.refuse]
      | ok t => simp [RetryAfter.ofDate, hf, ht]
  | some seconds =>
    by_cases hneg : seconds < 0
    · simp [hneg, RetryAfter.refuse]
    · cases hl : now.later seconds with
      | error d => simp [hneg, hl]
      | ok t => simp [hneg, hl]

/-- What a header says of coming back is kept or passed over, unless it leads out of the calendar;
then what goes wrong is no refusal. -/
theorem refusalInstant_cases (env : Environment) (c : Client) (connection : Connection)
    (r : Response) :
    (∃ t c', (refusalInstant r).run env (c, connection) = (.ok t, (c', connection)) ∧
      r.IsInRange (env.clock c.readings)) ∨
    (∃ e c', (refusalInstant r).run env (c, connection) = (.error e, (c', connection)) ∧
      ¬ r.IsInRange (env.clock c.readings) ∧ ∀ x, e ≠ .rejected x) := by
  cases hr : r.headers.get? retryHeader with
  | none =>
    refine .inl ⟨none, c, by simp [refusalInstant, hr], ?_⟩
    intro value d hvalue
    rw [hr] at hvalue
    cases hvalue
  | some value =>
    have hrange : (∀ d, RetryAfter.parse value (env.clock c.readings) ≠ .error (.outOfRange d)) →
        r.IsInRange (env.clock c.readings) := by
      intro h value' d hvalue
      rw [hr] at hvalue
      cases hvalue
      exact h d
    rcases parse_cases value (env.clock c.readings) with ⟨t, hp⟩ | ⟨d, hp⟩ | ⟨d, hp⟩
    · refine .inl ⟨some t, { c with readings := c.readings + 1 }, ?_, hrange (by simp [hp])⟩
      simp [refusalInstant, hr, run_bind, Client.now, hp]
    · refine .inl ⟨none, { c with readings := c.readings + 1 }, ?_, hrange (by simp [hp])⟩
      simp [refusalInstant, hr, run_bind, Client.now, hp]
    · refine .inr ⟨.outOfRange d, { c with readings := c.readings + 1 }, ?_, ?_, by simp⟩
      · simp [refusalInstant, hr, run_bind, Client.now, hp]
      · exact fun h => h value d hr hp

/-- Whether what the headers say for a code can be told. -/
def IsKindTellable (r : Response) (url : Option String) (now : Instant) (code : Option String) :
    Prop :=
  (code = some "rateLimited" → r.IsInRange now) ∧
    (code = some "userActionRequired" → r.IsLinked url "terms-of-service")

/-- The kind of a refusal goes by the code, and is found when what the headers say for it can be
told; what goes wrong otherwise is no refusal. -/
theorem rejectionKind_cases (env : Environment) (c : Client)
    (hheld : connection.response = some r) (code : Option String) :
    (∃ kind c', (rejectionKind r code).run env (c, connection) = (.ok kind, (c', connection)) ∧
      IsKindTellable r connection.url (env.clock c.readings) code ∧
      (∀ q ∈ refusalNames, (kind.name = q.2 ↔ code = some q.1)) ∧
      (kind = .plain ↔ ∀ q ∈ refusalNames, code ≠ some q.1)) ∨
    (∃ e c', (rejectionKind r code).run env (c, connection) = (.error e, (c', connection)) ∧
      ¬ IsKindTellable r connection.url (env.clock c.readings) code ∧ ∀ x, e ≠ .rejected x) := by
  unfold rejectionKind
  split
  · rcases refusalInstant_cases env c connection r with ⟨t, c', hrun, hrange⟩ | ⟨e, c', hrun, hne, hx⟩
    · refine .inl ⟨.rateLimited t, c', ?_, ⟨fun _ => hrange, by simp⟩, ?_⟩
      · rw [run_bind, hrun]
        rfl
      · simp [refusalNames, RejectionKind.name]
    · refine .inr ⟨e, c', ?_, fun h => hne (h.1 rfl), hx⟩
      rw [run_bind, hrun]
  · refine .inl ⟨.unauthorized, c, rfl, ⟨by simp, by simp⟩, ?_⟩
    simp [refusalNames, RejectionKind.name]
  · rcases links_cases env c hheld "terms-of-service" with ⟨urls, hrun, hlinked⟩ | ⟨e, hrun, hne, hx⟩
    · refine .inl ⟨.userActionRequired urls.head?, c, ?_, ⟨by simp, fun _ => hlinked⟩, ?_⟩
      · rw [run_bind, hrun]
        rfl
      · simp [refusalNames, RejectionKind.name]
    · refine .inr ⟨e, c, ?_, fun h => hne (h.2 rfl), hx⟩
      rw [run_bind, hrun]
  · rename_i h₁ h₂ h₃
    refine .inl ⟨.plain, c, rfl, ⟨fun h => absurd h h₁, fun h => absurd h h₃⟩, ?_⟩
    have hnone : ¬ code = some "rateLimited" ∧ ¬ code = some "unauthorized" ∧
        ¬ code = some "userActionRequired" := ⟨h₁, h₂, h₃⟩
    simpa [refusalNames, RejectionKind.name] using hnone

/-- With a problem in an answer, a refusal can be told when its type and what goes by its code
can. -/
theorem isTellable_iff {url : Option String} {now : Instant} {p : Problem} {code : Option String}
    (hp : problemIn r url = some p)
    (hof : ∀ c, ProblemCode.isKnown c = true → (code = some c ↔ p.IsOf c)) :
    r.IsTellable url now ↔ p.IsTyped ∧ IsKindTellable r url now code := by
  have hrate := hof "rateLimited" (by decide)
  have hterms := hof "userActionRequired" (by decide)
  simp [Response.IsTellable, IsKindTellable, hp, hrate, hterms]

/-- A refusal without a problem tells that there is none. -/
theorem tells_of_none {url : Option String} (hp : problemIn r url = none) (text : Option String) :
    (⟨.plain, none, some r.status, text⟩ : Rejection).Tells r url where
  status := rfl
  problem_none := ⟨fun _ => (problemIn_eq_none_iff r url).1 hp, fun _ => rfl⟩
  problem_some := nofun
  plain := fun _ => rfl
  named := nofun
  other := nofun

/-- A refusal with the problem of an answer tells what the answer says when its kind goes by the
code. -/
theorem tells_of_some {url : Option String} {p : Problem} {code : Option String}
    {kind : RejectionKind} (hp : problemIn r url = some p)
    (hof : ∀ c, ProblemCode.isKnown c = true → (code = some c ↔ p.IsOf c))
    (hnamed : ∀ q ∈ refusalNames, (kind.name = q.2 ↔ code = some q.1))
    (hplain : kind = .plain ↔ ∀ q ∈ refusalNames, code ≠ some q.1) (text : Option String) :
    (⟨kind, some p, some r.status, text⟩ : Rejection).Tells r url := by
  have hknown : ∀ q ∈ refusalNames, (code = some q.1 ↔ p.IsOf q.1) := by
    intro q hq
    have hall : ∀ q ∈ refusalNames, ProblemCode.isKnown q.1 = true := by decide
    exact hof q.1 (hall q hq)
  refine ⟨rfl, ?_, ?_, nofun, ?_, ?_⟩
  · rw [← problemIn_eq_none_iff r url, hp]
  · rintro _ ⟨⟩
    exact problemIn_eq_some hp
  · rintro _ ⟨⟩ q hq
    rw [← hknown q hq]
    exact hnamed q hq
  · rintro _ ⟨⟩
    rw [hplain]
    refine forall_congr' fun q => forall_congr' fun hq => ?_
    rw [Ne, hknown q hq]

/-- The refusal in an answer with a problem is made of the code of the problem and the kind for the
code. -/
theorem run_rejection (env : Environment) (c : Client) (hheld : connection.response = some r)
    {p : Problem} (hp : problemIn r connection.url = some p) :
    (rejection r).run env (c, connection)
      = (liftM p.code? >>= fun code => rejectionKind r code >>= fun kind =>
          pure ⟨kind, some p, some r.status, none⟩ : Exchange Rejection).run env (c, connection) := by
  have hread : readProblem.run env (c, connection) = (.ok (some p), (c, connection)) := by
    simp [readProblem, Exchange.connection, run_bind, Connection.held, hheld, hp, -bind_pure_comp]
  rw [rejection, run_bind_of_ok env hread]

/-- An answer is refused with what it says, or reading it fails with another fault. -/
theorem rejection_cases (env : Environment) (c : Client) (hheld : connection.response = some r) :
    (∃ x c', (rejection r).run env (c, connection) = (.ok x, (c', connection)) ∧
      r.IsTellable connection.url (env.clock c.readings) ∧ x.Tells r connection.url) ∨
    (∃ e c', (rejection r).run env (c, connection) = (.error e, (c', connection)) ∧
      ¬ r.IsTellable connection.url (env.clock c.readings) ∧ ∀ x, e ≠ .rejected x) := by
  cases hp : problemIn r connection.url with
  | none =>
    have hread : readProblem.run env (c, connection) = (.ok none, (c, connection)) := by
      simp [readProblem, Exchange.connection, run_bind, Connection.held, hheld, hp, -bind_pure_comp]
    refine .inl ⟨_, c, ?_, by simp [Response.IsTellable, hp], tells_of_none hp (statusLine r)⟩
    rw [rejection, run_bind_of_ok env hread]
    rfl
  | some p =>
    rw [run_rejection env c hheld hp]
    rcases p.code?_cases with ⟨code, hcode, htyped, hof⟩ | ⟨e, hcode, hne, hx⟩
    · rw [hcode, run_bind_of_ok env (run_lift env _ _), isTellable_iff hp hof]
      rcases rejectionKind_cases env c hheld code with
        ⟨kind, c', hrun, htell, hnamed, hplain⟩ | ⟨e, c', hrun, hne, hx⟩
      · refine .inl ⟨_, c', ?_, ⟨htyped, htell⟩, tells_of_some hp hof hnamed hplain none⟩
        rw [run_bind_of_ok env hrun]
        rfl
      · refine .inr ⟨e, c', ?_, fun h => hne h.2, hx⟩
        rw [run_bind_of_error env hrun]
    · refine .inr ⟨e, c, ?_, fun htell => hne (htell p hp).1, hx⟩
      rw [hcode, run_bind_of_error env (run_lift env _ _)]

/-- **Refusals are told.** An answer that is held and whose status is not accepted is refused with
what it says exactly when that can be told, and otherwise with another fault. Of an answer to a
request for a URL of the web the kind of the refusal goes by the type in its body. -/
theorem accept_refuses (env : Environment) (c : Client) (connection : Connection) (r : Response)
    (codes : List Int) (hheld : connection.response = some r) (hstatus : r.status ∉ codes) :
    (∃ e, ((accept codes).run env (c, connection)).1 = .error e) ∧
    ((∃ x, ((accept codes).run env (c, connection)).1 = .error (.rejected x)) ↔
      r.IsTellable connection.url (env.clock c.readings)) ∧
    ∀ x, ((accept codes).run env (c, connection)).1 = .error (.rejected x) →
      x.Tells r connection.url ∧
        ((∀ u, connection.url = some u → isAbsolute u = .ok true) →
          ∀ p, x.problem = some p → ∀ q ∈ refusalNames,
            (x.kind.name = q.2 ↔ p.members.get "type" = .string (ProblemCode.space ++ q.1))) := by
  have hrun : (accept codes).run env (c, connection)
      = (rejection r >>= fun x => throw (.rejected x) : Exchange Int).run env (c, connection) := by
    have hcontains : codes.contains r.status = false := by simpa using hstatus
    have hget : held.run env (c, connection) = (.ok r, (c, connection)) := by
      simp [held, Exchange.connection, run_bind, Connection.held, hheld]
    rw [accept, run_bind_of_ok env hget, hcontains]
    rfl
  rw [hrun]
  rcases rejection_cases env c hheld with ⟨x, c', hx, htell, htells⟩ | ⟨e, c', he, hne, hx⟩
  · rw [run_bind_of_ok env hx]
    refine ⟨⟨_, rfl⟩, ⟨fun _ => htell, fun _ => ⟨x, rfl⟩⟩, ?_⟩
    rintro _ ⟨⟩
    refine ⟨htells, fun hurl p hp q hq => ?_⟩
    rw [htells.named p hp q hq]
    refine Problem.isOf_iff fun u hu => hurl u ?_
    rw [← (htells.problem_some p hp).2, hu]
  · rw [run_bind_of_error env he]
    refine ⟨⟨e, rfl⟩, ⟨?_, fun h => absurd h hne⟩, ?_⟩
    · rintro ⟨x, h⟩
      exact absurd (Except.error.inj h) (hx x)
    · intro x h
      exact absurd (Except.error.inj h) (hx x)

/-- An answer with a problem whose type is a number. -/
def untypedAnswer : Response :=
  ⟨400, some "Bad Request", ⟨[]⟩,
    Text.Utf8.encode "\x7b\"type\": 5, \"detail\": \"no\"\x7d"⟩

theorem accept_refuses_untyped :
    let connection : Connection := ⟨some untypedAnswer, some "https://acme.test/x", none⟩
    let result := ((accept [200]).run countingEnvironment (.ofSession .sample, connection)).1
    (∃ e, result = .error e) ∧ ¬ ∃ x, result = .error (.rejected x) := by
  intro connection result
  obtain ⟨hfails, htell, -⟩ := accept_refuses countingEnvironment (.ofSession .sample) connection
    untypedAnswer [200] rfl (by decide)
  refine ⟨hfails, fun hx => ?_⟩
  have htype : ((problemIn untypedAnswer connection.url).any fun p =>
      !(p.members.get "type").isNull && (p.members.get "type").string?.isNone) = true := by
    decide +kernel
  obtain ⟨p, hp, hother⟩ := (Option.any_eq_true _ _).1 htype
  rcases (htell.1 hx p hp).1 with hnull | ⟨s, u, hs, -⟩
  · simp [hnull, Json.isNull] at hother
  · simp [hs, Json.string?] at hother

end Exchange

end AcmeClient
