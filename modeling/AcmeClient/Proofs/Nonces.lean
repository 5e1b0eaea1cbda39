import AcmeClient.Proofs.Operations
import AcmeClient.Proofs.Posted
import Mathlib.Algebra.Order.Group.Multiset

/-!
# Nonces in hand

An act takes a nonce out of the pool or gets one from an answer, and then has it in hand until it
signs a request with it or puts it into the pool. No step makes a nonce up:

* `Reply.token?` — the nonce that an answer carries;
* `Handles` — the steps that are allowed with some nonces in hand;
* `follows_send`, `follows_keepNonce`, `follows_takePooled` — what the acts on the wire and on the
  pool do with what is in hand;
* `Discipline.covers_nonces` — all operations start with empty hands and keep to these steps.
-/

namespace AcmeClient

open Act

/-! ### Nonces on the wire -/

def Response.token? (r : Response) : Option (List UInt8) :=
  (r.headers.get? Exchange.nonceHeader).bind fun text => (Nonce.decode text).toOption

def Reply.token? : Reply → Option (List UInt8)
  | .response r => r.token?
  | .failure _ => none

/-- The nonces that an answer gives out: one or none. -/
def Response.given (r : Response) : Multiset (List UInt8) :=
  r.token?.toList

/-- The nonces that a reply gives out: one or none. -/
def Reply.given (r : Reply) : Multiset (List UInt8) :=
  r.token?.toList

/-- The nonces that a request uses up: one if it is signed and sent, or none. -/
def Request.spent (r : Request) : Multiset (List UInt8) :=
  if r.method = .post then r.nonce?.toList else 0

def Client.pooled (c : Client) : Multiset (List UInt8) :=
  c.session.nonces.tokens

namespace NoncePool

/-- A token enters the pool once at most. -/
theorem coe_insert_le (t : List UInt8) (ts : List (List UInt8)) :
    (insert t ts : Multiset (List UInt8)) ≤ {t} + (ts : Multiset (List UInt8)) := by
  induction ts with
  | nil => exact le_refl _
  | cons u ts ih =>
    rw [insert]
    by_cases heq : t = u
    · rw [if_pos heq]
      exact Multiset.le_add_left _ _
    by_cases hlt : t < u
    · rw [if_neg heq, if_pos hlt]
      exact le_refl _
    · rw [if_neg heq, if_neg hlt, ← Multiset.cons_coe, ← Multiset.cons_coe, Multiset.add_cons]
      exact Multiset.cons_le_cons u ih

/-- What is taken and what is left make up the pool. -/
theorem take_add (p : NoncePool) :
    (p.take.2.tokens : Multiset (List UInt8)) + (p.take.1.toList : Multiset (List UInt8))
      = p.tokens := by
  obtain ⟨ts⟩ := p
  cases ts with
  | nil => rfl
  | cons t ts =>
    show (ts : Multiset (List UInt8)) + {t} = (t :: ts : List (List UInt8))
    rw [← Multiset.cons_coe, ← Multiset.singleton_add, add_comm]

end NoncePool

/-! ### Steps with nonces in hand -/

/-- The steps with some nonces in hand: what goes into the pool comes out of the hand or the other
way round, and a request is signed with what is in hand, which then holds what the reply gives
out. -/
inductive Handles (env : Environment) (h : Multiset (List UInt8)) (c : Client) :
    Multiset (List UInt8) → Client → Prop where
  | keep {h' : Multiset (List UInt8)} {c' : Client} : c'.sent = c.sent →
      c'.pooled + h' ≤ c.pooled + h → Handles env h c h' c'
  | send {c' : Client} (r : Request) : c'.sent = c.sent ++ [r] → c'.session = c.session →
      (r.method = .post → r.nonce?.isSome) → r.spent ≤ h →
      Handles env h c (env.server c'.sent).given c'

/-- Keeping account of the nonces in hand. -/
def Discipline.nonces : Discipline (Multiset (List UInt8)) Client :=
  ⟨fun _ _ => True, Handles⟩

/-- The hands are empty before and after what a client does. -/
abbrev EmptyHands (h : Multiset (List UInt8)) : Prop :=
  h = 0

/-- Steps that leave the pool and the requests alone may be taken with anything in hand. -/
theorem Handles.idle {env : Environment} {c c' : Client} (h : Multiset (List UInt8))
    (hp : c'.session.nonces = c.session.nonces) (hs : c'.sent = c.sent) :
    Handles env h c h c' := by
  refine .keep hs ?_
  rw [Client.pooled, hp]
  exact le_refl _

/-- Reading handles no nonce, whatever is in hand. -/
theorem follows_reading {σ α : Type} {client : σ → Client} {x : Act σ α}
    (hx : x.IsReading client) (h : Multiset (List UInt8)) :
    x.Follows (Discipline.nonces.onto client) (fun _ h' => h' = h) h :=
  follows_of_isReading (fun _ h _ _ hs hr => Handles.idle h (by rw [hs]) hr) hx h

namespace Client

/-- A change of the session that leaves the pool alone. -/
theorem follows_modifySession {f : Session → Session} (hf : ∀ s, (f s).nonces = s.nonces)
    (h : Multiset (List UInt8)) :
    (modifySession f).Follows Discipline.nonces (fun _ h' => h' = h) h :=
  follows_once fun _ c _ => ⟨h, .idle h (hf c.session) rfl, fun _ _ => rfl⟩

/-- What is taken out of the pool is in hand. -/
theorem follows_takePooled :
    takePooled.Follows Discipline.nonces (fun t h => h = (t.toList : Multiset (List UInt8))) 0 := by
  refine follows_once fun env c _ =>
    ⟨c.session.nonces.take.1.toList, .keep rfl ?_, fun t ht => by cases ht; rfl⟩
  show (c.session.nonces.take.2.tokens : Multiset (List UInt8))
    + (c.session.nonces.take.1.toList : Multiset (List UInt8)) ≤ c.session.nonces.tokens + 0
  rw [NoncePool.take_add, add_zero]

/-- What is in hand is put into the pool. -/
theorem follows_offerNonce (text : String) {h : Multiset (List UInt8)}
    (hh : ∀ t, Nonce.decode text = .ok t → h = {t}) :
    (offerNonce text).Follows Discipline.nonces (fun _ h' => h' = 0) h := by
  refine follows_bind (Q := fun t h' => h' = {t}) (follows_lift _ ?_) ?_
  · intro t ht
    apply hh
    rw [decodeHeaderNonce] at ht
    cases hd : Nonce.decode text with
    | error d => rw [hd] at ht; cases ht
    | ok u => rw [hd] at ht; cases ht; rfl
  · intro t h' ht
    rw [ht]
    refine follows_once fun env c _ => ⟨0, .keep rfl ?_, fun _ _ => rfl⟩
    show ((c.session.nonces.add t).tokens : Multiset (List UInt8)) + 0 ≤ c.pooled + {t}
    rw [add_zero, add_comm]
    exact NoncePool.coe_insert_le t _

end Client

namespace Exchange

/-- A request is signed with what is in hand, and then what the answer gives out is in hand. -/
theorem follows_send {method : Method} {url : String} {headers : List (String × String)}
    {body : Option Signed} {h : Multiset (List UInt8)}
    (hr : ∀ verification timeout, ∀ r : Request,
      r = ⟨method, url, headers, verification, timeout, body⟩ →
        (r.method = .post → r.nonce?.isSome) ∧ r.spent ≤ h) :
    (send method url headers body).Follows (Discipline.nonces.onto Prod.fst)
      (fun r h' => h' = r.given) h := by
  refine follows_bind (follows_reading isReading_close h) fun _ g hg => ?_
  rw [hg]
  refine follows_bind (follows_reading (isReading_onFirst Client.isReading_getSession) h)
    fun session g hg => ?_
  rw [hg]
  obtain ⟨hsome, hspent⟩ := hr session.verification session.timeout _ rfl
  refine follows_bind (Q := fun reply h' => h' = reply.given) (follows_onFirst ?_) ?_
  · refine follows_once fun env c _ => ⟨_, .send _ rfl rfl hsome hspent, ?_⟩
    intro reply hreply
    cases hreply
    rfl
  · intro reply g hg
    cases reply with
    | failure text => exact follows_throw _
    | response r =>
      have hhold : (modify fun s => (s.1, ⟨some r, some url, none⟩) :
          Exchange Unit).IsReading Prod.fst := isReading_modify fun _ => ⟨rfl, rfl⟩
      refine follows_bind (follows_reading hhold g) fun _ g' hg' => follows_pure ?_
      rw [hg', hg]
      rfl

/-- The nonce of an answer goes into the pool. -/
theorem follows_keepNonce (r : Response) (isRequired : Bool) :
    (keepNonce r isRequired).Follows (Discipline.nonces.onto Prod.fst) (fun _ h => h = 0)
      r.given := by
  unfold keepNonce
  cases hr : r.headers.get? nonceHeader with
  | some text =>
    refine follows_onFirst (Client.follows_offerNonce text ?_)
    intro t ht
    simp [Response.given, Response.token?, hr, ht, Except.toOption]
  | none =>
    have hnone : r.given = 0 := by simp [Response.given, Response.token?, hr]
    rw [hnone]
    cases isRequired with
    | true => exact follows_throw _
    | false => exact follows_pure rfl

/-- A request that is not signed uses no nonce up. -/
theorem follows_send_unsigned {method : Method} (hm : method ≠ .post) (url : String)
    (headers : List (String × String)) (body : Option Signed) :
    (send method url headers body).Follows (Discipline.nonces.onto Prod.fst)
      (fun r h' => h' = r.given) 0 := by
  refine follows_send fun verification timeout r hr => ?_
  have hmr : r.method ≠ .post := by rw [hr]; exact hm
  exact ⟨fun h => absurd h hmr, by rw [Request.spent, if_neg hmr]⟩

theorem keeps_sendPlain (url wanted : String) :
    (sendPlain url wanted).Keeps Discipline.nonces EmptyHands Prod.fst := by
  rintro h rfl
  refine follows_bind (follows_reading (isReading_onFirst Client.isReading_getSession) 0)
    fun session h hh => ?_
  rw [hh]
  refine follows_bind (follows_send_unsigned (by decide) url _ none) fun r h hh => ?_
  rw [hh]
  exact follows_bind (follows_keepNonce r false) fun _ h hh => follows_pure hh

/-- The nonce that is asked for is in hand. -/
theorem follows_fetchNonce (url : String) :
    (fetchNonce url).Follows (Discipline.nonces.onto Prod.fst) (fun t h => h = {t}) 0 := by
  refine follows_bind (follows_reading (isReading_onFirst Client.isReading_getSession) 0)
    fun session h hh => ?_
  rw [hh]
  refine follows_bind (follows_send_unsigned (by decide) url _ none) fun r h hh => ?_
  refine follows_bind (follows_reading (isReading_accept _) h) fun _ h' hh' => ?_
  rw [hh', hh]
  cases hr : r.headers.get? nonceHeader with
  | none => exact follows_throw _
  | some text =>
    refine follows_lift _ fun t ht => ?_
    rw [decodeHeaderNonce] at ht
    cases hd : Nonce.decode text with
    | error d => rw [hd] at ht; cases ht
    | ok u =>
      rw [hd] at ht
      cases ht
      simp [Response.given, Response.token?, hr, hd, Except.toOption]

end Exchange

/-! ### The acts of a client -/

/-- What the directory takes is done with empty hands. -/
theorem Discipline.permits_nonces : Discipline.nonces.Permits EmptyHands where
  reading _ h _ _ hs hr := Handles.idle h (by rw [hs]) hr
  learning _ h _ := by
    refine Client.follows_modifySession ?_ h
    exact fun _ => rfl
  asking := Exchange.keeps_sendPlain

/-- The nonce that is taken is in hand. -/
theorem Client.follows_takeNonce :
    takeNonce.Follows Discipline.nonces (fun t h => h = {t}) 0 := by
  refine follows_bind follows_takePooled fun t h hh => ?_
  rw [hh]
  cases t with
  | some token => exact follows_pure rfl
  | none =>
    refine follows_within _ ?_
    refine follows_then (keeps_onFirst (Discipline.permits_nonces.keeps_endpointUrl _)) rfl ?_
    exact Exchange.follows_fetchNonce

/-- A signed request uses up the nonce that was taken for it. -/
theorem Exchange.keeps_postOnce (url : String) (claims : Claims) (signing : Signing)
    (wanted : String) :
    (postOnce url claims signing wanted).Keeps Discipline.nonces EmptyHands Prod.fst := by
  have hsession : (onFirst Client.getSession : Exchange Session).Keeps Discipline.nonces EmptyHands
      Prod.fst :=
    Discipline.permits_nonces.keeps_of_isReading (isReading_onFirst Client.isReading_getSession)
  rintro h rfl
  refine follows_then hsession rfl fun session => ?_
  split
  · exact follows_throw _
  · rename_i key hkey
    refine follows_then (keeps_lift _) rfl fun payload => ?_
    refine follows_bind (follows_onFirst Client.follows_takeNonce) fun nonce h hh => ?_
    refine follows_bind (Q := fun s h' => h' = h ∧
      Signed.request payload key nonce (some url) _ = .ok s)
      (follows_lift _ fun s hs => ⟨rfl, hs⟩) ?_
    rintro s h' ⟨rfl, hs⟩
    refine follows_bind (follows_reading (isReading_onFirst Client.isReading_getSession) h')
      fun session' h'' hh' => ?_
    rw [hh', hh]
    refine follows_bind (follows_send ?_) fun r h hh => ?_
    · intro verification timeout r hr
      have hbody : r.body = some s := by rw [hr]
      have hnonce := Request.nonce?_of_isRequest hbody (Signed.isRequest_of_request hs)
      have hspent : r.spent = {nonce} := by
        rw [Request.spent, hnonce, hr, if_pos rfl]
        rfl
      exact ⟨fun _ => by rw [hnonce]; rfl, le_of_eq hspent⟩
    · rw [hh]
      exact follows_bind (follows_keepNonce r _) fun _ h hh => follows_pure hh

/-- No operation makes a nonce up. -/
theorem Discipline.covers_nonces : Discipline.nonces.Covers EmptyHands where
  toPermits := permits_nonces
  taking h hh := by
    rw [hh]
    exact follows_mono Client.follows_takeNonce fun _ _ _ => trivial
  fetching url h hh := by
    rw [hh]
    exact follows_mono (Exchange.follows_fetchNonce url) fun _ _ _ => trivial
  posting := Exchange.keeps_postOnce
  changing f hf h _ := follows_mono (Client.follows_modifySession hf h) fun _ _ _ => trivial

end AcmeClient
