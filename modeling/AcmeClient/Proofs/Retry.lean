import AcmeClient.Proofs.Answers
import AcmeClient.Proofs.Frame
import AcmeClient.Proofs.Results

/-!
# The second attempt of a signed request

A signed request goes out a second time when the server refuses its nonce. All attempts carry one
envelope, and each takes a nonce of its own:

* `Envelope` — what does not change from attempt to attempt; `Envelope.of` finds it before anything
  is done;
* `Attempt` — a nonce that was taken, and the document signed with it;
* `Exchange.Outcome` — how an attempt ends, with `outcome_postOnce`;
* `Response.RefusesNonce` — an answer that asks for another attempt;
* `Exchange.Delivery` and `delivers_sendSigned` — what a signed request sends, when it is sent
  again, and what it returns.
-/

namespace AcmeClient

open Act

/-! ### What attempts have in common -/

/-- What the attempts of a signed request have in common. -/
structure Envelope where
  url : String
  payload : List UInt8
  key : Key
  kid : Option String
  headers : List (String × String)
  verification : Json
  timeout : Json

namespace Envelope

/-- The envelope of a signed request; there is none without a key, or for claims that cannot be
written. -/
def of (s : Session) (url : String) (claims : Claims) (signing : Exchange.Signing)
    (wanted : String) : Except Fault Envelope :=
  match signing.key.or s.key with
  | none => .error (.usage .noSigningKey)
  | some key => claims.payload.map fun payload => {
      url, payload, key
      kid := if signing.usesKid then s.kid else none
      headers := Exchange.headersFor s (some wanted) ++ [("Content-Type", Exchange.signedType)]
      verification := s.verification
      timeout := s.timeout }

def sign (m : Envelope) (nonce : List UInt8) : Except Fault Signed :=
  Signed.request m.payload m.key nonce (some m.url) m.kid

def request (m : Envelope) (document : Signed) : Request where
  method := .post
  url := m.url
  headers := m.headers
  verification := m.verification
  timeout := m.timeout
  body := some document

variable {url wanted : String} {claims : Claims} {signing : Exchange.Signing} {m : Envelope}

theorem of_profile (s : Session) (url : String) (claims : Claims) (signing : Exchange.Signing)
    (wanted : String) : of s.profile url claims signing wanted = of s url claims signing wanted :=
  rfl

/-- Sessions of one profile send the same envelope. -/
theorem of_sameProfile {c c' : Client} (h : c.SameProfile c') :
    of c'.session url claims signing wanted = of c.session url claims signing wanted := by
  rw [← of_profile c'.session, ← of_profile c.session]
  exact congrArg (fun s => of s url claims signing wanted) h

/-- What is in an envelope. -/
theorem of_eq_ok {s : Session} : of s url claims signing wanted = .ok m ↔
    ∃ key payload, signing.key.or s.key = some key ∧ claims.payload = .ok payload ∧
      m = ⟨url, payload, key, if signing.usesKid then s.kid else none,
        Exchange.headersFor s (some wanted) ++ [("Content-Type", Exchange.signedType)],
        s.verification, s.timeout⟩ := by
  constructor
  · intro h
    rw [of] at h
    cases hkey : signing.key.or s.key with
    | none =>
      rw [hkey] at h
      cases h
    | some key =>
      rw [hkey] at h
      cases hp : claims.payload with
      | error e =>
        rw [hp] at h
        cases h
      | ok payload =>
        rw [hp] at h
        cases h
        exact ⟨key, payload, rfl, rfl, rfl⟩
  · rintro ⟨key, payload, hkey, hp, rfl⟩
    rw [of, hkey, hp]
    rfl

end Envelope

/-- A key that signs one message signs every message. -/
theorem Algorithm.sign_again {a : Algorithm} {k : Key} {message signature : List UInt8}
    (h : a.sign k message = .ok signature) (message' : List UInt8) :
    ∃ signature', a.sign k message' = .ok signature' := by
  unfold Algorithm.sign at h ⊢
  split at h
  · exact ⟨_, rfl⟩
  · split at h
    · rename_i hroom
      exact ⟨_, if_pos hroom⟩
    · cases h
  · exact ⟨_, rfl⟩
  · cases h

/-- An envelope that was signed with one nonce can be signed with another. -/
theorem Envelope.sign_again {m : Envelope} {nonce : List UInt8} {document : Signed}
    (h : m.sign nonce = .ok document) (nonce' : List UInt8) :
    ∃ document', m.sign nonce' = .ok document' := by
  obtain ⟨a, ha, hmake⟩ := bind_eq_ok.1 h
  obtain ⟨signature, hs, -⟩ := bind_eq_ok.1 hmake
  let text := (Signed.headerFor m.key a (some nonce') (some m.url) m.kid).protectedText
  obtain ⟨signature', hs'⟩ := Algorithm.sign_again hs (signedOctets text m.payload)
  refine ⟨⟨text, m.payload, signature'⟩, ?_⟩
  exact bind_eq_ok.2 ⟨a, ha, bind_eq_ok.2 ⟨signature', hs', rfl⟩⟩

/-! ### One attempt -/

/-- One attempt to send an envelope: the client before it, the nonce that is taken, the client after
that, and the document that is signed with the nonce. -/
structure Attempt where
  start : Client
  nonce : List UInt8
  ready : Client
  document : Signed

namespace Attempt

variable (env : Environment) (m : Envelope) (a : Attempt)

/-- The client once the request is on the wire. -/
def posted : Client :=
  { a.ready with sent := a.ready.sent ++ [m.request a.document] }

/-- What comes of the request. -/
def reply : Reply :=
  env.server (a.posted m).sent

/-- The nonce of an answer is kept or refused. -/
def keeping (r : Response) : Except Fault Unit × (Client × Connection) :=
  (Exchange.keepNonce r r.isOk).run env (a.posted m, ⟨some r, some m.url, none⟩)

/-- Whether an attempt takes one nonce, and signs the envelope with it. -/
structure IsMade : Prop where
  taking : Client.takeNonce.run env a.start = (.ok a.nonce, a.ready)
  signing : m.sign a.nonce = .ok a.document

end Attempt

namespace Exchange

def attempt (m : Envelope) (wanted : String) : Exchange Int := do
  let nonce ← onFirst Client.takeNonce
  let document ← m.sign nonce
  let headers := headersFor (← onFirst Client.getSession) (some wanted)
  let r ← send .post m.url (headers ++ [("Content-Type", signedType)]) (some document)
  keepNonce r r.isOk
  return r.status

/-- How an attempt ends: there is no nonce, or nothing can be signed with it, or the request goes
out and is lost or answered. -/
inductive Outcome (env : Environment) (m : Envelope) (s : Client × Connection) :
    Except Fault Int × (Client × Connection) → Prop where
  | starved {e : Fault} {c : Client} : Client.takeNonce.run env s.1 = (.error e, c) →
      Outcome env m s (.error e, (c, s.2))
  | unsigned {nonce : List UInt8} {e : Fault} {c : Client} :
      Client.takeNonce.run env s.1 = (.ok nonce, c) → m.sign nonce = .error e →
      Outcome env m s (.error e, (c, s.2))
  | lost {a : Attempt} {text : String} : a.start = s.1 → a.IsMade env m →
      a.reply env m = .failure text →
      Outcome env m s (.error (Unreachable.fault text), (a.posted m, s.2.close))
  | answered {a : Attempt} {r : Response} : a.start = s.1 → a.IsMade env m →
      a.reply env m = .response r →
      Outcome env m s ((a.keeping env m r).1.map fun _ => r.status, (a.keeping env m r).2)

variable {env : Environment} {s : Client × Connection} {url wanted : String} {claims : Claims}
  {signing : Signing} {m : Envelope}

/-- A signed request goes out in its envelope; without one nothing is done. -/
theorem run_postOnce (env : Environment) (s : Client × Connection) (url : String) (claims : Claims)
    (signing : Signing) (wanted : String) :
    (postOnce url claims signing wanted).run env s =
      match Envelope.of s.1.session url claims signing wanted with
      | .ok m => (attempt m wanted).run env s
      | .error e => (.error e, s) := by
  have hsession : (onFirst Client.getSession : Exchange Session).run env s
      = (.ok s.1.session, s) := rfl
  rw [postOnce, run_bind_of_ok env hsession, Envelope.of]
  cases signing.key.or s.1.session.key with
  | none => rfl
  | some key =>
    cases claims.payload with
    | error e => rfl
    | ok payload => rfl

theorem run_sendSigned_of_error {e : Fault}
    (h : Envelope.of s.1.session url claims signing wanted = .error e) :
    (sendSigned url claims signing wanted).run env s = (.error e, s) := by
  have hpost := run_postOnce env s url claims signing wanted
  rw [h] at hpost
  exact run_bind_of_error env hpost

/-- An attempt ends in one of four ways. -/
theorem outcome_postOnce (h : Envelope.of s.1.session url claims signing wanted = .ok m) :
    Outcome env m s ((postOnce url claims signing wanted).run env s) := by
  rw [run_postOnce, h]
  show Outcome env m s ((attempt m wanted).run env s)
  rw [attempt, run_bind, run_onFirst]
  rcases htake : Client.takeNonce.run env s.1 with ⟨e | nonce, c⟩
  · exact .starved htake
  · have hprofile : s.1.SameProfile c := by
      have hinquires := Client.inquires_takeNonce env s.1
      rw [htake] at hinquires
      exact hinquires.profile
    dsimp only
    rw [run_bind, run_lift]
    cases hsign : m.sign nonce with
    | error e => exact .unsigned htake hsign
    | ok document =>
      have hof : Envelope.of c.session url claims signing wanted = .ok m := by
        rw [Envelope.of_sameProfile hprofile]
        exact h
      obtain ⟨key, payload, -, -, hm⟩ := Envelope.of_eq_ok.1 hof
      have hsession : (onFirst Client.getSession : Exchange Session).run env (c, s.2)
          = (.ok c.session, (c, s.2)) := rfl
      have hrequest : m.request document = ⟨.post, m.url,
          headersFor c.session (some wanted) ++ [("Content-Type", signedType)],
          c.session.verification, c.session.timeout, some document⟩ := by
        rw [hm]
        rfl
      let a : Attempt := ⟨s.1, nonce, c, document⟩
      have hmade : a.IsMade env m := ⟨htake, hsign⟩
      dsimp only
      rw [run_bind_of_ok env hsession, run_bind, run_send env (c, s.2) hrequest]
      cases hreply : env.server (c.sent ++ [m.request document]) with
      | failure text => exact .lost (a := a) rfl hmade hreply
      | response r =>
        have hanswered : Outcome env m s
            ((a.keeping env m r).1.map fun _ => r.status, (a.keeping env m r).2) :=
          .answered rfl hmade hreply
        have hkeeping : (keepNonce r r.isOk).run env
            ({ c with sent := c.sent ++ [m.request document] }, ⟨some r, some m.url, none⟩)
            = a.keeping env m r := rfl
        dsimp only
        rw [run_bind, hkeeping]
        rcases hkeep : a.keeping env m r with ⟨e | _, t⟩
        · rw [hkeep] at hanswered
          exact hanswered
        · rw [hkeep] at hanswered
          exact hanswered

end Exchange

/-! ### What is posted -/

/-- Whether a client sent some signed requests, and perhaps others between them. -/
def Client.Posts (c c' : Client) (qs : List Request) : Prop :=
  ∃ new, c'.sent = c.sent ++ new ∧ new.filter (fun r => r.method = .post) = qs

theorem Client.Inquires.posts {c c' : Client} (h : c.Inquires c') : c.Posts c' [] := by
  obtain ⟨new, hsent, hnew⟩ := h.sent
  refine ⟨new, hsent, List.filter_eq_nil_iff.2 fun r hr => ?_⟩
  simpa using hnew r hr

theorem Client.Posts.trans {c₁ c₂ c₃ : Client} {qs qs' : List Request} (h : c₁.Posts c₂ qs)
    (h' : c₂.Posts c₃ qs') : c₁.Posts c₃ (qs ++ qs') := by
  obtain ⟨new, hsent, rfl⟩ := h
  obtain ⟨new', hsent', rfl⟩ := h'
  exact ⟨new ++ new', by rw [hsent', hsent, List.append_assoc], List.filter_append ..⟩

/-- What was posted is counted by what is on record. -/
theorem Client.Posts.count {c c' : Client} {qs : List Request} (h : c.Posts c' qs) :
    c'.sent.countP (fun r => r.method = .post)
      = c.sent.countP (fun r => r.method = .post) + qs.length := by
  obtain ⟨new, hsent, rfl⟩ := h
  rw [hsent, List.countP_append, List.countP_eq_length_filter (l := new)]

namespace Attempt

variable {env : Environment} {m : Envelope} {a : Attempt}

/-- An attempt posts its request. -/
theorem posts_posted (h : a.IsMade env m) :
    a.start.Posts (a.posted m) [m.request a.document] := by
  have hinquires := Client.inquires_takeNonce env a.start
  rw [h.taking] at hinquires
  have hready : a.ready.Posts (a.posted m) [m.request a.document] :=
    ⟨[m.request a.document], rfl, rfl⟩
  exact hinquires.posts.trans hready

/-- Keeping the nonce posts nothing more. -/
theorem posts_keeping (h : a.IsMade env m) (r : Response) :
    a.start.Posts (a.keeping env m r).2.1 [m.request a.document] := by
  obtain ⟨new, hsent, hnew⟩ := posts_posted h
  refine ⟨new, ?_, hnew⟩
  rw [← hsent]
  exact (Exchange.run_keepNonce env r r.isOk _).1

/-- The answer is held whether its nonce is kept or refused. -/
theorem connection_keeping (env : Environment) (m : Envelope) (a : Attempt) (r : Response) :
    (a.keeping env m r).2.2 = ⟨some r, some m.url, none⟩ :=
  (Exchange.run_keepNonce env r r.isOk _).2

theorem held_of_keeping {r : Response} {result : Except Fault Unit} {s : Client × Connection}
    (h : a.keeping env m r = (result, s)) : s.2.response = some r := by
  have hconnection := a.connection_keeping env m r
  rw [h] at hconnection
  rw [hconnection]

end Attempt

/-! ### Answers that refuse the nonce -/

/-- Whether an answer refuses the nonce of its request: it is an error, with the problem of a bad
nonce. -/
structure Response.RefusesNonce (r : Response) (url : String) : Prop where
  status : 400 ≤ r.status
  problem : ∃ p, Exchange.problemIn r (some url) = some p ∧ p.code? = .ok (some "badNonce")

/-- Why nothing can be kept of an answer that is an error: it has a nonce that is malformed, or it
has none while its status is beyond those of errors. -/
def Response.LeavesNoNonce (r : Response) (e : Fault) : Prop :=
  (∃ text, r.headers.get? Exchange.nonceHeader = some text ∧ decodeHeaderNonce text = .error e) ∨
    (r.headers.get? Exchange.nonceHeader = none ∧ 600 ≤ r.status ∧
      e = .missingNonce r.headers.fields)

namespace Exchange

theorem leavesNoNonce_of_keepNonce {env : Environment} {r : Response} {s s' : Client × Connection}
    {e : Fault} (hr : 400 ≤ r.status) (h : (keepNonce r r.isOk).run env s = (.error e, s')) :
    r.LeavesNoNonce e := by
  cases hheader : r.headers.get? nonceHeader with
  | some text =>
    refine .inl ⟨text, hheader, ?_⟩
    rw [keepNonce, hheader] at h
    have hoffer : (onFirst (Client.offerNonce text) : Exchange Unit).run env s = (.error e, s') := h
    rw [run_onFirst, Client.offerNonce, run_bind, run_lift] at hoffer
    cases hdecode : decodeHeaderNonce text with
    | error e' =>
      rw [hdecode] at hoffer
      cases hoffer
      rfl
    | ok token =>
      rw [hdecode] at hoffer
      cases hoffer
  | none =>
    rw [keepNonce, hheader] at h
    cases hok : r.isOk with
    | false =>
      rw [hok] at h
      cases h
    | true =>
      rw [hok] at h
      cases h
      refine .inr ⟨hheader, ?_, rfl⟩
      simp only [Response.isOk, Bool.not_eq_true', Bool.and_eq_false_iff,
        decide_eq_false_iff_not] at hok
      omega

/-- The nonce is found to be refused exactly when the answer that is held refuses it. -/
theorem refusesNonce_eq_true {env : Environment} {c : Client} {r : Response} {url : String}
    (hr : 400 ≤ r.status) :
    (refusesNonce.run env (c, ⟨some r, some url, none⟩)).1 = .ok true ↔ r.RefusesNonce url := by
  have hread : readProblem.run env (c, ⟨some r, some url, none⟩)
      = (.ok (problemIn r (some url)), (c, ⟨some r, some url, none⟩)) := rfl
  rw [refusesNonce, run_bind_of_ok env hread]
  cases hproblem : problemIn r (some url) with
  | none =>
    constructor
    · intro h
      cases h
    · rintro ⟨-, p, hp, -⟩
      rw [hproblem] at hp
      cases hp
  | some p =>
    dsimp only
    rw [run_bind, run_lift]
    constructor
    · intro h
      cases hcode : p.code? with
      | error e =>
        rw [hcode] at h
        cases h
      | ok code =>
        rw [hcode] at h
        have hbad : decide (code = some "badNonce") = true := Except.ok.inj h
        rw [of_decide_eq_true hbad] at hcode
        exact ⟨hr, p, hproblem, hcode⟩
    · rintro ⟨-, p', hp, hcode⟩
      rw [hproblem] at hp
      cases hp
      rw [hcode]
      rfl

end Exchange

/-! ### One attempt or two -/

namespace Exchange

/-- What becomes of a signed request. There are at most two attempts, and what they post is all that
is posted. The first begins where the request does, the second where the first one ends; it is made
if the first answer refuses the nonce, unless nothing can be kept of that answer or there is no
nonce left to take. A request that returns does so with the last answer, which is still held. -/
structure Delivery (env : Environment) (m : Envelope) (s : Client × Connection)
    (attempts : List Attempt) (out : Except Fault Int × (Client × Connection)) : Prop where
  few : attempts.length ≤ 2
  made : ∀ a ∈ attempts, a.IsMade env m
  posts : s.1.Posts out.2.1 (attempts.map fun a => m.request a.document)
  first : ∀ a, attempts.head? = some a → a.start = s.1
  second : ∀ a b, attempts = [a, b] → ∃ r, a.reply env m = .response r ∧
    r.RefusesNonce m.url ∧ a.keeping env m r = (.ok (), (b.start, ⟨some r, some m.url, none⟩))
  again : ∀ a r, attempts = [a] → a.reply env m = .response r → r.RefusesNonce m.url →
    ∃ e, out.1 = .error e ∧
      (r.LeavesNoNonce e ∨ (Client.takeNonce.run env (a.keeping env m r).2.1).1 = .error e)
  returning : ∀ status, out.1 = .ok status → ∃ a r, attempts.getLast? = some a ∧
    a.reply env m = .response r ∧ r.status = status ∧ a.keeping env m r = (.ok (), out.2) ∧
    out.2.2.response = some r

namespace Delivery

variable {env : Environment} {m : Envelope} {s : Client × Connection} {a b : Attempt} {e : Fault}
  {out : Except Fault Int × (Client × Connection)}

/-- Nothing was posted. -/
theorem nothing {c : Client} {connection : Connection} (h : s.1.Inquires c) :
    Delivery env m s [] (.error e, (c, connection)) := by
  refine ⟨Nat.zero_le 2, ?_, h.posts, ?_, ?_, ?_, ?_⟩
  · intro a ha
    cases ha
  · intro a ha
    cases ha
  · intro a b hab
    cases hab
  · intro a r ha
    cases ha
  · intro status hstatus
    cases hstatus

/-- There was one attempt. -/
theorem once (hstart : a.start = s.1) (ha : a.IsMade env m)
    (hposts : a.start.Posts out.2.1 [m.request a.document])
    (hagain : ∀ r, a.reply env m = .response r → r.RefusesNonce m.url → ∃ e, out.1 = .error e ∧
      (r.LeavesNoNonce e ∨ (Client.takeNonce.run env (a.keeping env m r).2.1).1 = .error e))
    (hreturning : ∀ status, out.1 = .ok status → ∃ r, a.reply env m = .response r ∧
      r.status = status ∧ a.keeping env m r = (.ok (), out.2)) :
    Delivery env m s [a] out := by
  refine ⟨by simp, ?_, ?_, ?_, ?_, ?_, ?_⟩
  · intro a' ha'
    rw [List.mem_singleton.1 ha']
    exact ha
  · rw [hstart] at hposts
    exact hposts
  · intro a' ha'
    cases ha'
    exact hstart
  · intro a' b hab
    cases hab
  · intro a' r ha' hreply hrefuses
    cases ha'
    exact hagain r hreply hrefuses
  · intro status hstatus
    obtain ⟨r, hreply, hr, hkeep⟩ := hreturning status hstatus
    exact ⟨a, r, rfl, hreply, hr, hkeep, a.held_of_keeping hkeep⟩

/-- There were two attempts. -/
theorem twice {r : Response} (hstart : a.start = s.1) (ha : a.IsMade env m)
    (hr : a.reply env m = .response r) (hrefuses : r.RefusesNonce m.url)
    (hkeep : a.keeping env m r = (.ok (), (b.start, ⟨some r, some m.url, none⟩)))
    (hb : b.IsMade env m) (hposts : b.start.Posts out.2.1 [m.request b.document])
    (hreturning : ∀ status, out.1 = .ok status → ∃ r, b.reply env m = .response r ∧
      r.status = status ∧ b.keeping env m r = (.ok (), out.2)) :
    Delivery env m s [a, b] out := by
  refine ⟨by simp, ?_, ?_, ?_, ?_, ?_, ?_⟩
  · intro a' ha'
    simp only [List.mem_cons, List.not_mem_nil, or_false] at ha'
    obtain rfl | rfl := ha'
    · exact ha
    · exact hb
  · have hfirst := a.posts_keeping ha r
    rw [hkeep, hstart] at hfirst
    exact hfirst.trans hposts
  · intro a' ha'
    cases ha'
    exact hstart
  · intro a' b' hab
    cases hab
    exact ⟨r, hr, hrefuses, hkeep⟩
  · intro a' r ha'
    cases ha'
  · intro status hstatus
    obtain ⟨q, hreply, hq, hlast⟩ := hreturning status hstatus
    exact ⟨b, q, rfl, hreply, hq, hlast, b.held_of_keeping hlast⟩

end Delivery

variable {env : Environment} {s : Client × Connection} {url wanted : String} {claims : Claims}
  {signing : Signing} {m : Envelope} {a : Attempt}

/-- The second attempt, once the first answer refused the nonce. -/
theorem delivers_again {r : Response} {c : Client} (hstart : a.start = s.1) (ha : a.IsMade env m)
    (hr : a.reply env m = .response r) (hrefuses : r.RefusesNonce m.url)
    (hkeep : a.keeping env m r = (.ok (), (c, ⟨some r, some m.url, none⟩)))
    {out : Except Fault Int × (Client × Connection)}
    (hout : Outcome env m (c, ⟨some r, some m.url, none⟩) out) :
    ∃ attempts, Delivery env m s attempts out := by
  cases hout with
  | @starved e c' htake =>
    have hinquires := Client.inquires_takeNonce env c
    rw [htake] at hinquires
    have hposts := a.posts_keeping ha r
    rw [hkeep] at hposts
    refine ⟨[a], .once hstart ha (hposts.trans hinquires.posts) ?_ ?_⟩
    · intro r' hr' _
      obtain rfl : r = r' := by
        rw [hr] at hr'
        exact Reply.response.inj hr'
      refine ⟨e, rfl, .inr ?_⟩
      rw [hkeep, htake]
    · intro status hstatus
      cases hstatus
  | unsigned htake hsign =>
    -- the key signed the first time
    obtain ⟨document, hsigned⟩ := m.sign_again ha.signing _
    rw [hsigned] at hsign
    cases hsign
  | @lost b text hb hmade hreply =>
    refine ⟨[a, b], .twice hstart ha hr hrefuses ?_ hmade (b.posts_posted hmade) ?_⟩
    · rw [hb]
      exact hkeep
    · intro status hstatus
      cases hstatus
  | @answered b q hb hmade hreply =>
    refine ⟨[a, b], .twice hstart ha hr hrefuses ?_ hmade (b.posts_keeping hmade q) ?_⟩
    · rw [hb]
      exact hkeep
    · intro status hstatus
      rcases hlast : b.keeping env m q with ⟨e | _, t⟩
      · rw [hlast] at hstatus
        cases hstatus
      · rw [hlast] at hstatus
        cases hstatus
        exact ⟨q, hreply, rfl, hlast⟩

/-- The only attempt, whose answer does not refuse the nonce. -/
theorem delivers_once {r : Response} {c : Client} (hstart : a.start = s.1) (ha : a.IsMade env m)
    (hr : a.reply env m = .response r) (hrefuses : ¬ r.RefusesNonce m.url)
    (hkeep : a.keeping env m r = (.ok (), (c, ⟨some r, some m.url, none⟩)))
    {result : Except Fault Int} (hresult : ∀ status, result = .ok status → r.status = status) :
    Delivery env m s [a] (result, (c, ⟨some r, some m.url, none⟩)) := by
  have hposts := a.posts_keeping ha r
  rw [hkeep] at hposts
  refine .once hstart ha hposts ?_ ?_
  · intro r' hr' hrefuses'
    rw [hr] at hr'
    cases hr'
    exact absurd hrefuses' hrefuses
  · intro status hstatus
    exact ⟨r, hr, hresult status hstatus, hkeep⟩

/-- What becomes of a request whose first answer is held. -/
theorem delivers_held {r : Response} {c : Client} (hstart : a.start = s.1) (ha : a.IsMade env m)
    (hr : a.reply env m = .response r)
    (hkeep : a.keeping env m r = (.ok (), (c, ⟨some r, some m.url, none⟩)))
    (hof : Envelope.of c.session url claims signing wanted = .ok m) :
    ∃ attempts, Delivery env m s attempts
      ((do
        if 400 ≤ r.status then
          if ← refusesNonce then return ← postOnce url claims signing wanted
        return r.status : Exchange Int).run env (c, ⟨some r, some m.url, none⟩)) := by
  by_cases hstatus : 400 ≤ r.status
  · have hrefuses : (refusesNonce.run env (c, ⟨some r, some m.url, none⟩)).1 = .ok true ↔
        r.RefusesNonce m.url :=
      refusesNonce_eq_true hstatus
    have hsame := run_refusesNonce env (c, ⟨some r, some m.url, none⟩)
    rw [if_pos hstatus, run_bind]
    rcases hverdict : refusesNonce.run env (c, ⟨some r, some m.url, none⟩) with ⟨e | refused, t⟩
    · rw [hverdict] at hrefuses hsame
      obtain rfl : t = (c, ⟨some r, some m.url, none⟩) := hsame
      refine ⟨[a], delivers_once hstart ha hr ?_ hkeep ?_⟩
      · intro h
        cases hrefuses.2 h
      · rintro status ⟨⟩
    · rw [hverdict] at hrefuses hsame
      obtain rfl : t = (c, ⟨some r, some m.url, none⟩) := hsame
      cases refused with
      | true => exact delivers_again hstart ha hr (hrefuses.1 rfl) hkeep (outcome_postOnce hof)
      | false =>
        refine ⟨[a], delivers_once hstart ha hr ?_ hkeep ?_⟩
        · intro h
          cases hrefuses.2 h
        · rintro status ⟨⟩
          rfl
  · rw [if_neg hstatus]
    refine ⟨[a], delivers_once hstart ha hr (fun h => hstatus h.status) hkeep ?_⟩
    rintro status ⟨⟩
    rfl

/-- **Signed requests are sent once or twice.** Without an envelope nothing is done. Otherwise there
are at most two attempts, all with one envelope and each with a nonce of its own; there is a second
one exactly if the first answer refuses the nonce, unless nothing can be kept of that answer, which
is so also for an answer without a nonce and a status from 600 on, or no other nonce can be taken.
What the request returns is the status of the last answer, and that answer is held. -/
theorem delivers_sendSigned (env : Environment) (s : Client × Connection) (url : String)
    (claims : Claims) (signing : Signing) (wanted : String) :
    match Envelope.of s.1.session url claims signing wanted with
    | .error e => (sendSigned url claims signing wanted).run env s = (.error e, s)
    | .ok m => ∃ attempts,
        Delivery env m s attempts ((sendSigned url claims signing wanted).run env s) := by
  cases hof : Envelope.of s.1.session url claims signing wanted with
  | error e =>
    exact run_sendSigned_of_error hof
  | ok m =>
    show ∃ attempts, Delivery env m s attempts ((sendSigned url claims signing wanted).run env s)
    have hout : Outcome env m s ((postOnce url claims signing wanted).run env s) :=
      outcome_postOnce hof
    have hprofile : s.1.SameProfile ((postOnce url claims signing wanted).run env s).2.1 :=
      (relates_postOnce url claims signing wanted).run Client.SameProfile.refl
        Client.SameProfile.trans env s
    have hnonce := Client.inquires_takeNonce env s.1
    rw [sendSigned, run_bind]
    generalize (postOnce url claims signing wanted).run env s = out at hout hprofile
    cases hout with
    | starved htake =>
      rw [htake] at hnonce
      exact ⟨[], .nothing hnonce⟩
    | unsigned htake _ =>
      rw [htake] at hnonce
      exact ⟨[], .nothing hnonce⟩
    | @lost a text hstart ha hreply =>
      refine ⟨[a], .once hstart ha (a.posts_posted ha) ?_ ?_⟩
      · intro r hr
        rw [hreply] at hr
        cases hr
      · intro status hstatus
        cases hstatus
    | @answered a r hstart ha hr =>
      have hheld := a.connection_keeping env m r
      have hposts := a.posts_keeping ha r
      rcases hkeep : a.keeping env m r with ⟨e | _, c, connection⟩
      · rw [hkeep] at hposts
        refine ⟨[a], .once hstart ha hposts ?_ ?_⟩
        · intro r' hr' hrefuses
          rw [hr] at hr'
          cases hr'
          exact ⟨e, rfl, .inl (leavesNoNonce_of_keepNonce hrefuses.status hkeep)⟩
        · intro status hstatus
          cases hstatus
      · rw [hkeep] at hheld hprofile
        obtain rfl : connection = ⟨some r, some m.url, none⟩ := hheld
        -- the second attempt would find the envelope of the first one
        refine delivers_held hstart ha hr hkeep ?_
        rw [Envelope.of_sameProfile hprofile]
        exact hof

end Exchange

/-- An answer that refuses the nonce, with a status beyond those of errors and without another
nonce. -/
def strangeAnswer : Response :=
  ⟨600, none, ⟨[]⟩, Text.Utf8.encode "\x7b\"type\": \"urn:ietf:params:acme:error:badNonce\"\x7d"⟩

def Session.waiting : Session :=
  { Session.sample with nonces := NoncePool.empty.add [0] }

theorem Exchange.delivers_sendSigned_strange :
    let env : Environment := ⟨fun _ => .response strangeAnswer, fun _ => ⟨0, some 0⟩⟩
    let s : Client × Connection := (.ofSession .waiting, .idle)
    let out := (sendSigned "https://acme.test/b" .nothing .session jsonType).run env s
    ∃ m a, Delivery env m s [a] out ∧ a.reply env m = .response strangeAnswer ∧
      strangeAnswer.RefusesNonce m.url ∧ strangeAnswer.headers.get? nonceHeader = none := by
  intro env s out
  let m : Envelope := ⟨"https://acme.test/b", [], .sample, some "https://acme.test/acct/1",
    headersFor .waiting (some jsonType) ++ [("Content-Type", signedType)], .bool true,
    Session.defaultTimeout⟩
  have hof : Envelope.of s.1.session "https://acme.test/b" .nothing .session jsonType = .ok m :=
    Envelope.of_eq_ok.2 ⟨.sample, [], rfl, rfl, rfl⟩
  obtain ⟨attempts, hdelivers⟩ : ∃ attempts, Delivery env m s attempts out := by
    have h := delivers_sendSigned env s "https://acme.test/b" .nothing .session jsonType
    rw [hof] at h
    exact h
  have hsent : out.2.1.sent.countP (fun r => r.method = .post) = 1 := by decide +kernel
  clear_value out
  have hproblem : ((problemIn strangeAnswer (some m.url)).any fun p =>
      decide (p.code?.toOption = some (some "badNonce"))) = true := by
    decide +kernel
  obtain ⟨p, hp, hcode⟩ := (Option.any_eq_true _ _).1 hproblem
  have hcode : p.code? = .ok (some "badNonce") := by
    have h := of_decide_eq_true hcode
    cases hc : p.code? with
    | error e =>
      rw [hc] at h
      cases h
    | ok code =>
      rw [hc] at h
      exact congrArg Except.ok (Option.some.inj h)
  have hrefuses : strangeAnswer.RefusesNonce m.url := ⟨by decide, p, hp, hcode⟩
  -- one request was posted, so there was one attempt
  have hone : attempts.length = 1 := by
    have hcount := hdelivers.posts.count
    rw [hsent, List.length_map] at hcount
    exact (hcount.trans (Nat.zero_add _)).symm
  obtain ⟨a, rfl⟩ := List.length_eq_one_iff.1 hone
  exact ⟨m, a, hdelivers, rfl, hrefuses, rfl⟩

end AcmeClient
