import AcmeClient.Proofs.Results

/-!
# Answers that are held

A request that gets an answer leaves the connection with it, and what is read from then on is read
from that answer:

* `Exchange.Holds` — the connection holds the answer to the last request;
* `holds_sendPlain`, `holds_sendSigned`, `holds_fetch` — so it is after every request;
* `Response.advice` — when to come back, as an answer says at an instant;
* `Response.links` and `run_links` — the links of an answer with a relation;
* `accepted_eq_ok` — an answer is taken exactly when its status is accepted, its body is a document,
  and it says in an orderly way when to come back, if at all.
-/

namespace AcmeClient

open Act Calendar

/-- When to come back, as an answer says at an instant. -/
def Response.advice (r : Response) (now : Instant) : Except Fault (Option Instant) :=
  match r.headers.get? Exchange.retryHeader with
  | none => .ok none
  | some value => (RetryAfter.parse value now).map some

/-- An answer without the header gives no advice, one with it gives some or is refused. -/
theorem Response.isSome_advice {r : Response} {now : Instant} {t : Option Instant}
    (h : r.advice now = .ok t) : t.isSome = (r.headers.get? Exchange.retryHeader).isSome := by
  rw [advice] at h
  cases hr : r.headers.get? Exchange.retryHeader with
  | none =>
    rw [hr] at h
    cases h
    rfl
  | some value =>
    rw [hr] at h
    cases hp : RetryAfter.parse value now with
    | error e => simp [hp, Except.map] at h
    | ok u =>
      simp only [hp, Except.map, Except.ok.injEq] at h
      rw [← h]
      rfl

/-- A client that read the clock for the advice of an answer. -/
def Client.advised (c : Client) (r : Response) : Client :=
  if (r.headers.get? Exchange.retryHeader).isSome then { c with readings := c.readings + 1 } else c

@[simp] theorem Client.sent_advised (c : Client) (r : Response) : (c.advised r).sent = c.sent := by
  unfold advised
  split
  · rfl
  · rfl

/-- The advice was read with the last reading of the clock. -/
theorem Client.advice_advised (env : Environment) (c : Client) (r : Response) :
    r.advice (env.clock ((c.advised r).readings - 1)) = r.advice (env.clock c.readings) := by
  rw [Response.advice, Response.advice]
  cases hr : r.headers.get? Exchange.retryHeader with
  | none => rfl
  | some value => simp [advised, hr]

namespace Exchange

/-- Whether the connection holds the answer to the last request, which went to a URL, and nothing
was read of it yet. -/
structure Holds (env : Environment) (s : Client × Connection) (url : String) (r : Response) :
    Prop where
  held : s.2 = ⟨some r, some url, none⟩
  reply : env.server s.1.sent = .response r
  asked : ∃ q, s.1.sent.getLast? = some q ∧ q.url = url

variable {env : Environment} {s s' : Client × Connection} {url : String}

/-- A request that is sent is answered, or nothing comes of it. -/
theorem run_send (env : Environment) (s : Client × Connection) {method : Method} {url : String}
    {headers : List (String × String)} {body : Option Signed} {q : Request}
    (hq : q = ⟨method, url, headers, s.1.session.verification, s.1.session.timeout, body⟩) :
    (send method url headers body).run env s =
      match env.server (s.1.sent ++ [q]) with
      | .failure text =>
          (.error (Unreachable.fault text), ({ s.1 with sent := s.1.sent ++ [q] }, s.2.close))
      | .response r =>
          (.ok r, ({ s.1 with sent := s.1.sent ++ [q] }, ⟨some r, some url, none⟩)) := by
  have hclose : close.run env s = (.ok (), (s.1, s.2.close)) := rfl
  have hsession : (onFirst Client.getSession : Exchange Session).run env (s.1, s.2.close)
      = (.ok s.1.session, (s.1, s.2.close)) := rfl
  have htransmit : (onFirst (Client.transmit q) : Exchange Reply).run env (s.1, s.2.close)
      = (.ok (env.server (s.1.sent ++ [q])),
          ({ s.1 with sent := s.1.sent ++ [q] }, s.2.close)) := rfl
  rw [send, run_bind_of_ok env hclose, run_bind_of_ok env hsession]
  rw [hq] at htransmit ⊢
  rw [run_bind_of_ok env htransmit]
  cases env.server (s.1.sent ++ [_]) with
  | failure text => rfl
  | response r => rfl

/-- A request that gets an answer leaves the connection with it. -/
theorem holds_send {method : Method} {headers : List (String × String)} {body : Option Signed}
    {r : Response} (h : (send method url headers body).run env s = (.ok r, s')) :
    Holds env s' url r := by
  rw [run_send env s rfl] at h
  cases hreply : env.server (s.1.sent ++ [_]) with
  | failure text =>
    rw [hreply] at h
    cases h
  | response q =>
    rw [hreply] at h
    cases h
    exact ⟨rfl, hreply, _, List.getLast?_concat, rfl⟩

/-- Keeping a nonce leaves requests and connection alone. -/
theorem run_keepNonce (env : Environment) (r : Response) (isRequired : Bool) (s : Client × Connection) :
    ((keepNonce r isRequired).run env s).2.1.sent = s.1.sent ∧
      ((keepNonce r isRequired).run env s).2.2 = s.2 := by
  unfold keepNonce
  cases r.headers.get? nonceHeader with
  | some text =>
    show ((onFirst (Client.offerNonce text) : Exchange Unit).run env s).2.1.sent = _ ∧ _
    rw [run_onFirst, Client.offerNonce, run_bind, run_lift]
    cases decodeHeaderNonce text with
    | error e => exact ⟨rfl, rfl⟩
    | ok token => exact ⟨rfl, rfl⟩
  | none => cases isRequired <;> exact ⟨rfl, rfl⟩

theorem Holds.keepNonce {r q : Response} (h : Holds env s url r) (isRequired : Bool) :
    Holds env ((keepNonce q isRequired).run env s).2 url r := by
  obtain ⟨hsent, hconnection⟩ := run_keepNonce env q isRequired s
  exact ⟨hconnection.trans h.held, by rw [hsent]; exact h.reply, by rw [hsent]; exact h.asked⟩

theorem holds_sendPlain {wanted : String} {status : Int}
    (h : (sendPlain url wanted).run env s = (.ok status, s')) : ∃ r, Holds env s' url r := by
  obtain ⟨session, s₁, -, h⟩ := (run_bind_eq_ok env).1 h
  obtain ⟨r, s₂, hsend, h⟩ := (run_bind_eq_ok env).1 h
  obtain ⟨_, s₃, hkeep, h⟩ := (run_bind_eq_ok env).1 h
  cases h
  have hholds := (holds_send hsend).keepNonce (q := r) false
  rw [hkeep] at hholds
  exact ⟨r, hholds⟩

theorem holds_postOnce {claims : Claims} {signing : Signing} {wanted : String} {status : Int}
    (h : (postOnce url claims signing wanted).run env s = (.ok status, s')) :
    ∃ r, Holds env s' url r := by
  obtain ⟨session, s₁, -, h⟩ := (run_bind_eq_ok env).1 h
  cases hkey : signing.key.or session.key with
  | none =>
    rw [hkey] at h
    cases h
  | some key =>
    rw [hkey] at h
    obtain ⟨payload, s₂, -, h⟩ := (run_bind_eq_ok env).1 h
    obtain ⟨nonce, s₃, -, h⟩ := (run_bind_eq_ok env).1 h
    obtain ⟨signed, s₄, -, h⟩ := (run_bind_eq_ok env).1 h
    obtain ⟨session', s₅, -, h⟩ := (run_bind_eq_ok env).1 h
    obtain ⟨r, s₆, hsend, h⟩ := (run_bind_eq_ok env).1 h
    obtain ⟨_, s₇, hkeep, h⟩ := (run_bind_eq_ok env).1 h
    cases h
    have hholds := (holds_send hsend).keepNonce (q := r) r.isOk
    rw [hkeep] at hholds
    exact ⟨r, hholds⟩

/-- Reading the problem leaves everything as it is. -/
theorem run_refusesNonce (env : Environment) (s : Client × Connection) : (refusesNonce.run env s).2 = s := by
  have hread : (readProblem.run env s).2 = s := by
    show (((liftM s.2.held : Exchange Response) >>= fun r => pure (problemIn r s.2.url)).run env s).2
      = s
    rw [run_bind, run_lift]
    cases s.2.held <;> rfl
  rw [refusesNonce, run_bind]
  cases hp : readProblem.run env s with
  | mk p t =>
    obtain rfl : t = s := by rw [hp] at hread; exact hread
    cases p with
    | error e => rfl
    | ok p =>
      cases p with
      | none => rfl
      | some p =>
        show (((liftM p.code? : Exchange (Option String)) >>= fun code =>
          pure (decide (code = some "badNonce"))).run env t).2 = t
        rw [run_bind, run_lift]
        cases p.code? <;> rfl

theorem holds_sendSigned {claims : Claims} {signing : Signing} {wanted : String} {status : Int}
    (h : (sendSigned url claims signing wanted).run env s = (.ok status, s')) :
    ∃ r, Holds env s' url r := by
  obtain ⟨first, s₁, hpost, h⟩ := (run_bind_eq_ok env).1 h
  split at h
  · obtain ⟨refused, s₂, hrefuses, h⟩ := (run_bind_eq_ok env).1 h
    obtain rfl : s₂ = s₁ := by
      have hsame := run_refusesNonce env s₁
      rwa [hrefuses] at hsame
    cases refused with
    | true => exact holds_postOnce h
    | false =>
      cases h
      exact holds_postOnce hpost
  · cases h
    exact holds_postOnce hpost

theorem holds_fetch {wanted : String} {status : Int}
    (h : (fetch url wanted).run env s = (.ok status, s')) : ∃ r, Holds env s' url r := by
  obtain ⟨session, s₁, -, h⟩ := (run_bind_eq_ok env).1 h
  split at h
  · exact holds_sendSigned h
  · exact holds_sendPlain h

end Exchange

/-! ### Taking what is held -/

/-- Whether an answer can be taken at an instant: its status is accepted, its body is a document,
and it says in an orderly way when to come back, if at all. -/
structure Response.Gives (r : Response) (codes : List Int) (now : Instant) (ms : Members)
    (t : Option Instant) : Prop where
  status : r.status ∈ codes
  document : (Body.octets r.content).document = .ok ms
  advice : r.advice now = .ok t

/-- The URLs of the links with a relation in an answer, resolved against the URL of the request. -/
def Response.links (r : Response) (url relation : String) : Except Fault (List String) :=
  match r.headers.get? "Link" with
  | none => .ok []
  | some value =>
      (Link.related relation value).mapM fun reference => wellSplit (Url.join url reference)

/-- There is no document without octets. -/
theorem Body.isEmpty_of_document {bs : List UInt8} {ms : Members}
    (h : (Body.octets bs).document = .ok ms) : bs.isEmpty = false := by
  cases bs with
  | nil => cases h
  | cons b bs => rfl

namespace Exchange

variable {env : Environment} {c : Client} {url : String} {r : Response}

theorem run_accept_of_mem {codes : List Int} (h : r.status ∈ codes) :
    (accept codes).run env (c, ⟨some r, some url, none⟩)
      = (.ok r.status, (c, ⟨some r, some url, none⟩)) := by
  have hcontains : codes.contains r.status = true := List.contains_iff_mem.2 h
  show (if codes.contains r.status then pure r.status else _ : Exchange Int).run env _ = _
  rw [if_pos hcontains]
  rfl

/-- A status that is not accepted ends the exchange. -/
theorem mem_of_run_accept {codes : List Int} {s s' : Client × Connection} {status : Int}
    (h : (accept codes).run env s = (.ok status, s')) (hr : s.2.response = some r) :
    r.status ∈ codes ∧ s' = s := by
  obtain ⟨q, s₁, hheld, h⟩ := (run_bind_eq_ok env).1 h
  have hq : held.run env s = (.ok r, s) := by
    show (s.2.held, s) = _
    rw [Connection.held, hr]
  rw [hq] at hheld
  cases hheld
  split at h
  · rename_i hcontains
    cases h
    exact ⟨List.contains_iff_mem.1 hcontains, rfl⟩
  · obtain ⟨_, _, -, h⟩ := (run_bind_eq_ok env).1 h
    cases h

theorem run_readJson : readJson.run env (c, ⟨some r, some url, none⟩)
    = (if r.content.isEmpty then .error (.protocol (.emptyBody (some url)))
        else (Body.octets r.content).document.mapError fun d => .protocol (.document d),
      (c, ⟨some r, some url, none⟩)) := by
  by_cases h : r.content.isEmpty
  · rw [if_pos h]
    simp only [readJson, connection, run_bind, run_get, run_pure, Connection.held, run_lift, h,
      if_true, run_throw]
  · rw [if_neg h]
    simp only [readJson, connection, run_bind, run_get, run_pure, Connection.held, run_lift, h]
    cases (Body.octets r.content).document <;> rfl

theorem run_retryAfter (env : Environment) (c : Client) (url : String) (r : Response) :
    ∃ connection, retryAfter.run env (c, ⟨some r, some url, none⟩)
      = (r.advice (env.clock c.readings), (c.advised r, connection)) := by
  rw [Response.advice, Client.advised]
  cases hr : r.headers.get? retryHeader with
  | none =>
    refine ⟨⟨some r, some url, none⟩, ?_⟩
    simp [retryAfter, connection, run_bind, Connection.held, hr]
  | some value =>
    cases hp : RetryAfter.parse value (env.clock c.readings) with
    | error e =>
      refine ⟨⟨some r, some url, none⟩, ?_⟩
      simp [retryAfter, connection, run_bind, Connection.held, hr, Client.now, hp, Except.map]
    | ok t =>
      refine ⟨⟨some r, some url, some t⟩, ?_⟩
      simp [retryAfter, connection, run_bind, Connection.held, hr, Client.now, hp, Except.map,
        -bind_pure_comp]

/-- A result that is known is there without acting. -/
theorem run_lift_eq_ok {σ α : Type} {result : Except Fault α} {s t : σ} {a : α} :
    (liftM result : Act σ α).run env s = (.ok a, t) ↔ result = .ok a ∧ t = s := by
  rw [run_lift, Prod.mk.injEq, eq_comm (a := s)]

theorem run_mapM_lift {σ α β : Type} (env : Environment) (g : α → Except Fault β) (xs : List α)
    (s : σ) :
    (xs.mapM fun x => (liftM (g x) : Act σ β)).run env s = (xs.mapM g, s) := by
  induction xs with
  | nil => rfl
  | cons x xs ih =>
    rw [List.mapM_cons, List.mapM_cons, run_bind, run_lift]
    cases g x with
    | error e => rfl
    | ok y =>
      show ((xs.mapM fun x => (liftM (g x) : Act σ β)) >>= _ : Act σ (List β)).run env s = _
      rw [run_bind, ih]
      cases xs.mapM g with
      | error e => rfl
      | ok ys => rfl

/-- The links that are read are those in the answer that is held. -/
theorem run_links (env : Environment) (c : Client) {connection : Connection}
    (hheld : connection.response = some r) (relation : String) :
    (links relation).run env (c, connection)
      = (r.links (connection.url.getD "") relation, (c, connection)) := by
  rw [Response.links]
  cases hl : r.headers.get? "Link" with
  | none => simp [links, Exchange.connection, run_bind, Connection.held, hheld, hl]
  | some value =>
    simp only [links, Exchange.connection, run_bind, run_get, run_pure, Connection.held, hheld,
      run_lift, hl]
    exact run_mapM_lift env connection.resolve _ _

/-- The document of an answer is read exactly when its body is one. -/
theorem readJson_eq_ok {ms : Members} {s : Client × Connection} :
    readJson.run env (c, ⟨some r, some url, none⟩) = (.ok ms, s) ↔
      (Body.octets r.content).document = .ok ms ∧ s = (c, ⟨some r, some url, none⟩) := by
  rw [run_readJson, Prod.mk.injEq, eq_comm (a := s)]
  refine and_congr_left fun _ => ?_
  by_cases hempty : r.content.isEmpty = true
  · rw [if_pos hempty]
    constructor
    · intro h
      cases h
    · intro h
      rw [Body.isEmpty_of_document h] at hempty
      cases hempty
  · rw [if_neg hempty]
    cases (Body.octets r.content).document with
    | error d => simp
    | ok ms' => simp

/-- An answer that is held is taken exactly when it can be. -/
theorem accepted_eq_ok {codes : List Int} {ms : Members} {t : Option Instant} {c' : Client} :
    (∃ connection, (do let _ ← accept codes; answer : Exchange (Members × Option Instant)).run env
        (c, ⟨some r, some url, none⟩) = (.ok (ms, t), (c', connection))) ↔
      r.Gives codes (env.clock c.readings) ms t ∧ c' = c.advised r := by
  obtain ⟨afterAdvice, hretry⟩ := run_retryAfter env c url r
  constructor
  · rintro ⟨connection, h⟩
    obtain ⟨status, s₁, haccept, h⟩ := (run_bind_eq_ok env).1 h
    obtain ⟨hmem, rfl⟩ := mem_of_run_accept haccept rfl
    obtain ⟨ms', s₂, hjson, h⟩ := (run_bind_eq_ok env).1 h
    obtain ⟨t', s₃, hadvice, h⟩ := (run_bind_eq_ok env).1 h
    cases h
    obtain ⟨hdocument, rfl⟩ := readJson_eq_ok.1 hjson
    rw [hretry] at hadvice
    obtain ⟨hadvice, hafter⟩ := Prod.ext_iff.1 hadvice
    exact ⟨⟨hmem, hdocument, hadvice⟩, (Prod.ext_iff.1 hafter).1.symm⟩
  · rintro ⟨⟨hmem, hdocument, hadvice⟩, rfl⟩
    refine ⟨afterAdvice, ?_⟩
    have hjson : readJson.run env (c, ⟨some r, some url, none⟩)
        = (.ok ms, (c, ⟨some r, some url, none⟩)) := readJson_eq_ok.2 ⟨hdocument, rfl⟩
    rw [hadvice] at hretry
    rw [run_bind_of_ok env (run_accept_of_mem hmem), answer, run_bind_of_ok env hjson,
      run_bind_of_ok env hretry]
    rfl

end Exchange

/-! ### Documents of the server -/

/-- Whether a document, and when to come back, are what the last answer of the server gives. -/
def Client.Received (env : Environment) (c : Client) (codes : List Int) (url : String)
    (r : Response) (ms : Members) (t : Option Instant) : Prop :=
  env.server c.sent = .response r ∧ (∃ q, c.sent.getLast? = some q ∧ q.url = url) ∧
    r.Gives codes (env.clock (c.readings - 1)) ms t

namespace Client

variable {env : Environment} {c c' : Client} {url : String} {ms : Members} {t : Option Instant}

theorem run_connected_eq_ok {α : Type} {x : Exchange α} {a : α} :
    (connected x).run env c = (.ok a, c') ↔
      ∃ connection, x.run env (c, .idle) = (.ok a, (c', connection)) := by
  rw [connected, run_within]
  rcases x.run env (c, .idle) with ⟨result, c₁, connection⟩
  simp

/-- An exchange with an answer succeeds exactly when its request gets an answer that can be
taken. -/
theorem run_taken_eq_ok {x : Exchange Int} {codes : List Int}
    (hx : ∀ {s s' status}, x.run env s = (.ok status, s') → ∃ r, Exchange.Holds env s' url r) :
    (connected do
      let _ ← x
      let _ ← Exchange.accept codes
      Exchange.answer : Act Client (Members × Option Instant)).run env c = (.ok (ms, t), c') ↔
    ∃ status c₁ r, x.run env (c, .idle) = (.ok status, (c₁, ⟨some r, some url, none⟩)) ∧
      r.Gives codes (env.clock c₁.readings) ms t ∧ c' = c₁.advised r := by
  rw [run_connected_eq_ok]
  constructor
  · rintro ⟨connection, h⟩
    obtain ⟨status, ⟨c₁, held⟩, hrun, hrest⟩ := (run_bind_eq_ok env).1 h
    obtain ⟨r, hheld, -, -⟩ := hx hrun
    obtain rfl : held = ⟨some r, some url, none⟩ := hheld
    exact ⟨status, c₁, r, hrun, Exchange.accepted_eq_ok.1 ⟨connection, hrest⟩⟩
  · rintro ⟨status, c₁, r, hrun, hgives⟩
    obtain ⟨connection, hrest⟩ := Exchange.accepted_eq_ok.2 hgives
    exact ⟨connection, (run_bind_of_ok env hrun).trans hrest⟩

/-- What such an exchange takes is what the last answer of the server gives. -/
theorem received_of_run {x : Exchange Int} {codes : List Int}
    (hx : ∀ {s s' status}, x.run env s = (.ok status, s') → ∃ r, Exchange.Holds env s' url r)
    (h : (connected do
      let _ ← x
      let _ ← Exchange.accept codes
      Exchange.answer : Act Client (Members × Option Instant)).run env c = (.ok (ms, t), c')) :
    ∃ r, c'.Received env codes url r ms t := by
  obtain ⟨status, c₁, r, hrun, hgives, rfl⟩ := (run_taken_eq_ok hx).1 h
  obtain ⟨q, hheld, hreply, hasked⟩ := hx hrun
  obtain rfl : r = q := by
    injection hheld with hresponse
    exact Option.some.inj hresponse
  refine ⟨r, ?_, ?_, hgives.status, hgives.document, ?_⟩
  · rw [sent_advised]
    exact hreply
  · rw [sent_advised]
    exact hasked
  · rw [advice_advised]
    exact hgives.advice

end Client

end AcmeClient
