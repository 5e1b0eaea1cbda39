import AcmeClient.Proofs.NoncePools
import AcmeClient.Proofs.Nonces
import AcmeClient.Proofs.Retry

/-!
# The nonce of a second attempt

An answer that refuses a nonce brings another one. That one enters the pool like any other, and the
second attempt takes whichever token the pool hands out:

* `NoncePool.insert_cases` — what comes first once a token was added;
* `Discipline.covers_order` — no operation repeats a token in the pool;
* `Attempt.IsMade.unique` — an attempt is determined by the client that makes it;
* `Exchange.run_postOnce_of_isMade` — an attempt that is made goes out and ends as its request does;
* `Exchange.run_sendSigned_of_refused` — what a request comes to whose nonce was refused;
* `Exchange.second_attempt_takes_any_token` — which nonces may sign the second attempt, and which
  one does.
-/

namespace AcmeClient

open Act

namespace NoncePool

/-- A token that is added comes first unless another one is before it, which then still comes
first. -/
theorem insert_cases (token : List UInt8) (tokens : List (List UInt8)) :
    ∃ first rest, insert token tokens = first :: rest ∧
      (first = token ↔ ∀ t, tokens.head? = some t → token = t ∨ token < t) ∧
      (first ≠ token → tokens.head? = some first) := by
  cases tokens with
  | nil => exact ⟨token, [], rfl, by simp, by simp⟩
  | cons t rest =>
    rw [insert]
    by_cases heq : token = t
    · rw [if_pos heq]
      exact ⟨t, rest, rfl, by simp [heq], by simp⟩
    by_cases hlt : token < t
    · rw [if_neg heq, if_pos hlt]
      exact ⟨token, t :: rest, rfl, by simp [hlt], by simp⟩
    · rw [if_neg heq, if_neg hlt]
      refine ⟨t, insert token rest, rfl, ?_, by simp⟩
      simp [heq, hlt, Ne.symm heq]

end NoncePool

/-! ### Pools stay in order -/

namespace Client

/-- Whether a step leaves no token twice in the pool if there was none before. -/
def KeepsOrder (c c' : Client) : Prop :=
  c.session.nonces.IsOrdered → c'.session.nonces.IsOrdered

theorem KeepsOrder.of_nonces {c c' : Client} (h : c'.session.nonces = c.session.nonces) :
    c.KeepsOrder c' := by
  intro hc
  rw [h]
  exact hc

theorem admits_order : Admits KeepsOrder where
  reading _ _ hs _ := .of_nonces (congrArg Session.nonces hs)
  asking _ _ _ _ hs _ := .of_nonces (congrArg Session.nonces hs)
  adding _ token hc := hc.add token
  taking c hc := by
    obtain ⟨-, -, -, -, hleft⟩ := NoncePool.takes_take hc
    exact hleft
  learning _ _ := .of_nonces rfl

end Client

/-- All operations leave a pool in order. -/
theorem Discipline.covers_order : (Discipline.related Client.KeepsOrder).Covers Anyhow :=
  Client.admits_order.covers (fun _ _ _ hs _ => .of_nonces (congrArg Session.nonces hs))
    fun _ hf c => .of_nonces (hf c.session)

/-! ### One attempt -/

/-- The client with other nonces, or with its own in another order. -/
def Client.listing (c : Client) (p : NoncePool) : Client :=
  { c with session := { c.session with nonces := p } }

/-- Of a pool with tokens the first one is taken, and the server is not asked. -/
theorem Client.takeNonce_of_tokens {env : Environment} {c : Client} {token : List UInt8}
    {rest : List (List UInt8)} (h : c.session.nonces.tokens = token :: rest) :
    takeNonce.run env c = (.ok token, c.listing ⟨rest⟩) := by
  have hpooled : takePooled.run env c = (.ok (some token), c.listing ⟨rest⟩) := by
    simp only [takePooled, run_once, NoncePool.take, h, listing]
  rw [takeNonce, run_bind_of_ok env hpooled]
  rfl

namespace Attempt

variable {env : Environment} {m : Envelope} {a b : Attempt} {r : Response}

/-- An attempt is determined by the client that makes it. -/
theorem IsMade.unique (ha : a.IsMade env m) (hb : b.IsMade env m) (h : b.start = a.start) :
    b = a := by
  obtain ⟨start, nonce, ready, document⟩ := a
  obtain ⟨start', nonce', ready', document'⟩ := b
  obtain ⟨htaking, hsigning⟩ := ha
  obtain ⟨htaking', hsigning'⟩ := hb
  cases h
  rw [htaking] at htaking'
  cases htaking'
  rw [hsigning] at hsigning'
  cases hsigning'
  rfl

/-- Whether an attempt draws a token from the pool of a client and leaves another pool: the client
that makes it has the same tokens with this one first, and its request shows the token. -/
structure Draws (b : Attempt) (env : Environment) (m : Envelope) (c : Client) (token : List UInt8)
    (left : NoncePool) : Prop where
  start : b.start = c.listing ⟨token :: left.tokens⟩
  tokens : (token :: left.tokens).Perm c.session.nonces.tokens
  nonce : b.nonce = token
  ready : b.ready = c.listing left
  made : b.IsMade env m
  shown : (m.request b.document).nonce? = some token

/-- The nonce of an answer enters the pool when it can be read. -/
theorem keeping_of_decode {text : String} {token : List UInt8}
    (hheader : r.headers.get? Exchange.nonceHeader = some text)
    (hdecode : decodeHeaderNonce text = .ok token) :
    a.keeping env m r = (.ok (), ((a.posted m).listing (a.ready.session.nonces.add token),
      ⟨some r, some m.url, none⟩)) := by
  rw [keeping, Exchange.keepNonce, hheader]
  show (onFirst (Client.offerNonce text) : Exchange Unit).run env _ = _
  rw [run_onFirst, Client.offerNonce, run_bind, run_lift, hdecode]
  rfl

end Attempt

namespace Exchange

variable {env : Environment} {s : Client × Connection} {url wanted : String} {claims : Claims}
  {signing : Signing} {m : Envelope} {a : Attempt} {r : Response}

/-- An attempt that is made goes out, and ends as its request does. -/
theorem run_postOnce_of_isMade (hof : Envelope.of s.1.session url claims signing wanted = .ok m)
    (hstart : a.start = s.1) (ha : a.IsMade env m) :
    (postOnce url claims signing wanted).run env s =
      match a.reply env m with
      | .failure text => (.error (Unreachable.fault text), (a.posted m, s.2.close))
      | .response r => ((a.keeping env m r).1.map fun _ => r.status, (a.keeping env m r).2) := by
  have htaking := ha.taking
  rw [hstart] at htaking
  have hout : Outcome env m s ((postOnce url claims signing wanted).run env s) :=
    outcome_postOnce hof
  generalize (postOnce url claims signing wanted).run env s = out at hout
  cases hout with
  | starved htake =>
    rw [htake] at htaking
    cases htaking
  | unsigned htake hsign =>
    rw [htake] at htaking
    cases htaking
    rw [ha.signing] at hsign
    cases hsign
  | lost hb hmade hreply =>
    obtain rfl := ha.unique hmade (hb.trans hstart.symm)
    rw [hreply]
  | answered hb hmade hreply =>
    obtain rfl := ha.unique hmade (hb.trans hstart.symm)
    rw [hreply]

/-- An attempt that is made leaves its request on record, and nothing behind it. -/
theorem sent_postOnce (hof : Envelope.of s.1.session url claims signing wanted = .ok m)
    (hstart : a.start = s.1) (ha : a.IsMade env m) :
    ((postOnce url claims signing wanted).run env s).2.1.sent = (a.posted m).sent := by
  rw [run_postOnce_of_isMade hof hstart ha]
  cases a.reply env m with
  | failure text => rfl
  | response r => exact (run_keepNonce env r r.isOk _).1

/-- When the first attempt is answered by a refusal of its nonce that brings another nonce, that one
is in the pool, and all is done once more. -/
theorem run_sendSigned_of_refused {text : String} {token : List UInt8}
    (hof : Envelope.of s.1.session url claims signing wanted = .ok m)
    (hstart : a.start = s.1) (ha : a.IsMade env m) (hreply : a.reply env m = .response r)
    (hrefuses : r.RefusesNonce m.url) (hheader : r.headers.get? nonceHeader = some text)
    (hdecode : decodeHeaderNonce text = .ok token) :
    ∃ s' : Client × Connection, s'.1.sent = a.ready.sent ++ [m.request a.document] ∧
      s'.1.session.nonces = a.ready.session.nonces.add token ∧
      Envelope.of s'.1.session url claims signing wanted = .ok m ∧
      (sendSigned url claims signing wanted).run env s
        = (postOnce url claims signing wanted).run env s' := by
  -- the first attempt leaves the nonce of its answer in the pool
  have hpost := run_postOnce_of_isMade hof hstart ha
  rw [hreply] at hpost
  dsimp only at hpost
  rw [Attempt.keeping_of_decode hheader hdecode] at hpost
  generalize hc : (a.posted m).listing (a.ready.session.nonces.add token) = c at hpost
  have hprofile : s.1.SameProfile c := by
    have hrelates := (relates_postOnce url claims signing wanted).run Client.SameProfile.refl
      Client.SameProfile.trans env s
    rwa [hpost] at hrelates
  refine ⟨(c, ⟨some r, some m.url, none⟩), by rw [← hc]; rfl, by rw [← hc]; rfl,
    (Envelope.of_sameProfile hprofile).trans hof, ?_⟩
  -- the answer is found to refuse the nonce, and all is done once more
  have hverdict : refusesNonce.run env (c, ⟨some r, some m.url, none⟩)
      = (.ok true, (c, ⟨some r, some m.url, none⟩)) :=
    Prod.ext ((refusesNonce_eq_true hrefuses.status).2 hrefuses) (run_refusesNonce env _)
  have hstatus : (Except.map (fun _ : Unit => r.status) (.ok ()) : Except Fault Int)
      = .ok r.status := rfl
  rw [hstatus] at hpost
  rw [sendSigned, run_bind_of_ok env hpost, if_pos hrefuses.status, run_bind_of_ok env hverdict,
    if_pos rfl]

/-- A client with nonces makes an attempt with the first one, which is what it sends. -/
theorem exists_attempt (env : Environment) {nonce token : List UInt8} {document : Signed}
    {rest : List (List UInt8)}
    (hof : Envelope.of s.1.session url claims signing wanted = .ok m)
    (hsign : m.sign nonce = .ok document) (htokens : s.1.session.nonces.tokens = token :: rest) :
    ∃ b : Attempt, b.start = s.1 ∧ b.nonce = token ∧ b.ready = s.1.listing ⟨rest⟩ ∧
      b.IsMade env m ∧ (m.request b.document).nonce? = some token ∧
      ((postOnce url claims signing wanted).run env s).2.1.sent
        = s.1.sent ++ [m.request b.document] := by
  obtain ⟨document, hdocument⟩ := m.sign_again hsign token
  let b : Attempt := ⟨s.1, token, s.1.listing ⟨rest⟩, document⟩
  have hb : b.IsMade env m := ⟨Client.takeNonce_of_tokens htokens, hdocument⟩
  exact ⟨b, rfl, rfl, rfl, hb,
    Request.nonce?_of_isRequest rfl (Signed.isRequest_of_request hb.signing),
    sent_postOnce hof rfl hb⟩

/-- **The second attempt takes any token.** When the first attempt is answered by a refusal of its
nonce that brings another nonce, that one joins the tokens that wait, and all is done once more.
Whichever token the pool then hands out, a second request follows at once that is signed with it;
the pool may hand out the nonce of the answer, and just as well each of those that waited. If it
hands out the token that comes first, that is the nonce of the answer if no token that waited is
before it, and otherwise the first of those that waited. -/
theorem second_attempt_takes_any_token {text : String} {token : List UInt8}
    (hof : Envelope.of s.1.session url claims signing wanted = .ok m)
    (hstart : a.start = s.1) (ha : a.IsMade env m) (hreply : a.reply env m = .response r)
    (hrefuses : r.RefusesNonce m.url) (hheader : r.headers.get? nonceHeader = some text)
    (hdecode : decodeHeaderNonce text = .ok token) :
    ∃ s' : Client × Connection, s'.1.sent = a.ready.sent ++ [m.request a.document] ∧
      s'.1.session.nonces = a.ready.session.nonces.add token ∧
      (sendSigned url claims signing wanted).run env s
        = (postOnce url claims signing wanted).run env s' ∧
      (∀ t q, s'.1.session.nonces.Takes (some t) q → ∃ b : Attempt, b.Draws env m s'.1 t q ∧
        ((postOnce url claims signing wanted).run env (b.start, s'.2)).2.1.sent
          = a.ready.sent ++ [m.request a.document, m.request b.document]) ∧
      (s.1.session.nonces.IsOrdered →
        (∀ t, (∃ q, s'.1.session.nonces.Takes (some t) q) ↔
          t = token ∨ t ∈ a.ready.session.nonces.tokens) ∧
        s'.1.session.nonces.Takes s'.1.session.nonces.take.1 s'.1.session.nonces.take.2) ∧
      ∃ b : Attempt, b.IsMade env m ∧
        ((sendSigned url claims signing wanted).run env s).2.1.sent
          = a.ready.sent ++ [m.request a.document, m.request b.document] ∧
        (m.request b.document).nonce? = some b.nonce ∧
        (b.nonce = token ↔
          ∀ t, a.ready.session.nonces.tokens.head? = some t → token = t ∨ token < t) ∧
        (b.nonce ≠ token → a.ready.session.nonces.tokens.head? = some b.nonce) := by
  obtain ⟨s', hsent, hnonces, hof', hagain⟩ :=
    run_sendSigned_of_refused hof hstart ha hreply hrefuses hheader hdecode
  have htwo : ∀ q, s'.1.sent ++ [q] = a.ready.sent ++ [m.request a.document, q] := by
    intro q
    rw [hsent, List.append_assoc]
    rfl
  refine ⟨s', hsent, hnonces, hagain, ?any, ?ordered, ?first⟩
  case any =>
    intro t q htakes
    let c : Client := s'.1.listing ⟨t :: q.tokens⟩
    have hofc : Envelope.of c.session url claims signing wanted = .ok m := hof'
    obtain ⟨b, hb, hnonce, hready, hmade, hshown, hposts⟩ :=
      exists_attempt (s := (c, s'.2)) env hofc ha.signing rfl
    refine ⟨b, ⟨hb, htakes.perm, hnonce, hready, hmade, hshown⟩, ?_⟩
    rw [hb, hposts]
    exact htwo _
  case ordered =>
    intro hordered
    have hready : a.ready.session.nonces.IsOrdered := by
      have htaking : Client.takeNonce.Follows ((Discipline.related Client.KeepsOrder).onto id)
          (fun _ _ => True) () := Discipline.covers_order.taking () trivial
      have hruns := related_run (fun _ h => h) (fun h h' hc => h' (h hc)) htaking env a.start
      rw [ha.taking] at hruns
      exact hruns (hstart ▸ hordered)
    have hadded : s'.1.session.nonces.IsOrdered := hnonces ▸ hready.add token
    refine ⟨fun t => ?_, NoncePool.takes_take hadded⟩
    rw [NoncePool.exists_takes_iff hadded, hnonces]
    exact NoncePool.mem_insert
  case first =>
    obtain ⟨first, rest, hinsert, hfirst, holder⟩ :=
      NoncePool.insert_cases token a.ready.session.nonces.tokens
    obtain ⟨b, -, rfl, -, hmade, hshown, hposts⟩ :=
      exists_attempt env hof' ha.signing ((congrArg NoncePool.tokens hnonces).trans hinsert)
    refine ⟨b, hmade, ?_, hshown, hfirst, holder⟩
    rw [hagain, hposts]
    exact htwo _

end Exchange

/-- An answer that refuses the nonce and brings another one. -/
def refusingAnswer : Response :=
  ⟨400, none, ⟨[("Replay-Nonce", "Ag")]⟩,
    Text.Utf8.encode "\x7b\"type\": \"urn:ietf:params:acme:error:badNonce\"\x7d"⟩

theorem refusesNonce_refusingAnswer :
    refusingAnswer.RefusesNonce "https://acme.test/b" := by
  have hproblem : ((Exchange.problemIn refusingAnswer (some "https://acme.test/b")).any fun p =>
      p.code?.toOption.any fun code => code = some "badNonce") = true := by
    decide +kernel
  obtain ⟨p, hp, hany⟩ := (Option.any_eq_true _ _).1 hproblem
  obtain ⟨code, hcode, hbad⟩ := (Option.any_eq_true _ _).1 hany
  obtain rfl := of_decide_eq_true hbad
  refine ⟨by decide, p, hp, ?_⟩
  cases hc : p.code? with
  | error e =>
    rw [hc] at hcode
    cases hcode
  | ok code =>
    rw [hc] at hcode
    exact congrArg Except.ok (Option.some.inj hcode)

/-- The token that waited may sign the second attempt as well as that of the answer, and comes
first. -/
theorem Exchange.second_attempt_takes_any_token_older :
    let env : Environment := ⟨fun _ => .response refusingAnswer, fun _ => ⟨0, some 0⟩⟩
    let s : Client × Connection :=
      (.ofSession { Session.sample with nonces := ⟨[[0], [1]]⟩ }, .idle)
    let post : Exchange Int := postOnce "https://acme.test/b" .nothing .session jsonType
    refusingAnswer.RefusesNonce "https://acme.test/b" ∧ refusingAnswer.token? = some [2] ∧
      s.1.session.nonces.IsOrdered ∧
      (∃ s' : Client × Connection,
        (sendSigned "https://acme.test/b" .nothing .session jsonType).run env s = post.run env s' ∧
          ∀ t, (t = [2] ∨ t = [1]) → ∃ c q q',
            c.session.nonces.tokens.Perm s'.1.session.nonces.tokens ∧ q'.nonce? = some t ∧
              (post.run env (c, s'.2)).2.1.sent = [q, q']) ∧
      ∃ q q' : Request, q'.nonce? = some [1] ∧
        ((sendSigned "https://acme.test/b" .nothing .session jsonType).run env s).2.1.sent
          = [q, q'] := by
  intro env s post
  let m : Envelope := ⟨"https://acme.test/b", [], .sample, some "https://acme.test/acct/1",
    headersFor s.1.session (some jsonType) ++ [("Content-Type", signedType)], .bool true,
    Session.defaultTimeout⟩
  have hof : Envelope.of s.1.session "https://acme.test/b" .nothing .session jsonType = .ok m :=
    Envelope.of_eq_ok.2 ⟨.sample, [], rfl, rfl, rfl⟩
  have hsigned : (m.sign [0]).toOption.isSome = true := by decide +kernel
  obtain ⟨document, hdocument⟩ : ∃ document, m.sign [0] = .ok document := by
    cases h : m.sign [0] with
    | error e =>
      rw [h] at hsigned
      cases hsigned
    | ok document => exact ⟨document, rfl⟩
  let a : Attempt := ⟨s.1, [0], .ofSession { Session.sample with nonces := ⟨[[1]]⟩ }, document⟩
  have ha : a.IsMade env m := ⟨Client.takeNonce_of_tokens rfl, hdocument⟩
  have hheader : refusingAnswer.headers.get? nonceHeader = some "Ag" := by decide +kernel
  have hdecode : decodeHeaderNonce "Ag" = .ok [2] := by rfl
  have hordered : s.1.session.nonces.IsOrdered :=
    (by decide : List.Pairwise (· < ·) [[0], [(1 : UInt8)]])
  obtain ⟨s', -, -, hagain, hany, htakes, b, -, hsent, hnonce, hfirst, holder⟩ :=
    second_attempt_takes_any_token hof rfl ha rfl refusesNonce_refusingAnswer hheader hdecode
  have hne : b.nonce ≠ [2] := fun h => absurd (hfirst.1 h [1] rfl) (by decide)
  have hone : b.nonce = [1] := (Option.some.inj (holder hne)).symm
  refine ⟨refusesNonce_refusingAnswer, by decide +kernel, hordered, ⟨s', hagain, fun t ht => ?_⟩,
    m.request document, m.request b.document, hone ▸ hnonce, hsent⟩
  obtain ⟨q, hq⟩ := ((htakes hordered).1 t).2 (ht.imp_right fun h => List.mem_singleton.2 h)
  obtain ⟨b', hdraws, hposts⟩ := hany t q hq
  refine ⟨b'.start, _, _, ?_, hdraws.shown, hposts⟩
  rw [hdraws.start]
  exact hdraws.tokens

end AcmeClient
