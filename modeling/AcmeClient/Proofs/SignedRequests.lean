import AcmeClient.Crowd
import AcmeClient.Proofs.Operations
import AcmeClient.Proofs.Posted
import Mathlib.Data.List.Induction

/-!
# Signed requests on the wire

Every signed request that an operation sends is a document with three members, whose header names
the algorithm, the nonce, the URL, and either the account of the session or the key. A member
without a value is left out of a header, so a header lacks one where the nonce, the URL or the name
of the account is empty:

* `Request.Shows` — what the server reads from a request with a signed document;
* `IsComplete` — a header with all its members;
* `Discipline.signing` — steps that send nothing else;
* `Client.signs_act` and `Crowd.signs_of_reaches` — what operations send, alone and in turns;
* `posts_show_header` — what every run sends.
-/

namespace AcmeClient

open Act

/-! ### What the server reads -/

/-- Whether a header has exactly the members `alg`, `nonce`, `url`, and one of `kid` and `jwk`. -/
def IsComplete (header : Members) : Prop :=
  header.names.Perm ["alg", "nonce", "url", "kid"] ∨
    header.names.Perm ["alg", "nonce", "url", "jwk"]

instance : DecidablePred IsComplete :=
  fun _ => inferInstanceAs (Decidable (_ ∨ _))

/-- What the server reads from a request: a document with exactly three members, a signature under a
key, and the members of the header that it protects. -/
structure Request.Shows (r : Request) (key : Key) (nonce : List UInt8) (kid : Option String)
    (header : Members) : Prop where
  posted : ∃ protectedText signature payload : String, r.posted? =
    some [("protected", .string protectedText), ("signature", .string signature),
      ("payload", .string payload)]
  signed : ∃ (s : Signed) (a : Algorithm), r.signed? = some s ∧
    header.get? "alg" = some (.string a.name) ∧
    a.sign key (signedOctets s.protectedText s.payload) = .ok s.signature
  reads : r.header? = some header
  uses : r.nonce? = some nonce
  members : header.names.Sublist ["alg", "jwk", "kid", "nonce", "url"]
  names_url : ∀ j, header.get? "url" = some j → j = .string r.url
  names_account : ∀ j, header.get? "kid" = some j → ∃ name, kid = some name ∧ j = .string name
  embeds_key : ∀ j, header.get? "jwk" = some j → kid = none ∧ j = .object key.publicKey.members

/-- Whether a request shows a header in the name of an account that is known, or with the key. The
header is complete unless the nonce, the URL or the name of the account is empty. -/
def Request.IsShown (r : Request) (known : Option String → Prop) : Prop :=
  ∃ key nonce kid header, (kid = none ∨ known kid) ∧ r.Shows key nonce kid header ∧
    (IsComplete header ↔ nonce ≠ [] ∧ r.url ≠ "" ∧ kid ≠ some "")

namespace Signed

/-- A header is complete when nonce and URL are there, and either the account or the key. -/
theorem isComplete_sparse (alg : Json) (jwk kid nonce url : Option Json) :
    IsComplete (sparse alg jwk kid nonce url) ↔
      nonce.isSome ∧ url.isSome ∧ (kid.isSome ∧ jwk = none ∨ kid = none ∧ jwk.isSome) := by
  cases jwk <;> cases kid <;> cases nonce <;> cases url <;>
    simp [sparse, optional, Members.names, IsComplete] <;> decide

theorem isSome_textValue {value : Option String} :
    (textValue value).isSome ↔ ∃ s, value = some s ∧ s ≠ "" := by
  cases value with
  | none => simp [textValue]
  | some s => by_cases hs : s = "" <;> simp [textValue, hs, Option.filter]

theorem isComplete_headerMembers (key : Key) (a : Algorithm) (nonce : List UInt8) (url : String)
    (kid : Option String) :
    IsComplete (headerMembers key a (some nonce) (some url) kid) ↔
      nonce ≠ [] ∧ url ≠ "" ∧ kid ≠ some "" := by
  rw [headerMembers, isComplete_sparse]
  have hnonce : (octetsValue (some nonce)).isSome ↔ nonce ≠ [] := by
    cases nonce <;> simp [octetsValue, Option.filter]
  have hurl : (textValue (some url)).isSome ↔ url ≠ "" := by
    rw [isSome_textValue]
    simp
  rw [hnonce, hurl]
  cases kid with
  | none => simp [textValue]
  | some s => by_cases hs : s = "" <;> simp [textValue, hs, Option.filter]

end Signed

/-- What the server reads from a request that posts a signed document. -/
theorem Request.isShown_of_isRequest {r : Request} {s : Signed} {payload : List UInt8} {key : Key}
    {nonce : List UInt8} {kid : Option String} {known : Option String → Prop}
    (hbody : r.body = some s) (hs : s.IsRequest payload key nonce r.url kid)
    (hkid : kid = none ∨ known kid) : r.IsShown known := by
  obtain ⟨a, ha, -, hsign⟩ := hs.signing
  obtain ⟨a', ha', hheader⟩ := header?_of_isRequest hbody hs
  obtain rfl : a = a' := by
    rw [ha] at ha'
    exact Except.ok.inj ha'
  obtain ⟨halg, hjwk, hkidMember, -, hurl⟩ := Signed.get?_sparse (.string a.name)
    (if kid.isNone then some (.object key.publicKey.members) else none) (Signed.textValue kid)
    (Signed.octetsValue (some nonce)) (Signed.textValue (some r.url))
  refine ⟨key, nonce, kid, Signed.headerMembers key a (some nonce) (some r.url) kid, hkid, ?_,
    Signed.isComplete_headerMembers key a nonce r.url kid⟩
  constructor
  case posted => exact ⟨_, _, _, posted?_of_body hbody⟩
  case signed =>
    refine ⟨s, a, signed?_of_body hbody, halg, ?_⟩
    rw [hs.payload]
    exact hsign
  case reads => exact hheader
  case uses => exact nonce?_of_isRequest hbody hs
  case members => exact Signed.names_sparse _ _ _ _ _
  case names_url =>
    intro j hj
    obtain ⟨u, hu, rfl⟩ := Option.map_eq_some_iff.1 (hurl.symm.trans hj)
    obtain rfl : r.url = u := Option.some.inj (Option.filter_eq_some_iff.1 hu).1
    rfl
  case names_account =>
    intro j hj
    obtain ⟨name, hname, rfl⟩ := Option.map_eq_some_iff.1 (hkidMember.symm.trans hj)
    exact ⟨name, (Option.filter_eq_some_iff.1 hname).1, rfl⟩
  case embeds_key =>
    intro j hj
    have hval := hjwk.symm.trans hj
    cases kid with
    | none => exact ⟨rfl, (Option.some.inj hval).symm⟩
    | some name => cases hval

/-! ### Steps that send nothing else -/

/-- Steps after which at most one request more is on the wire, which shows its header if it is
signed. -/
inductive Signs (known : Option String → Prop) (c c' : Client) : Prop where
  | keep : c'.sent = c.sent → Signs known c c'
  | send (r : Request) : c'.sent = c.sent ++ [r] → (r.method = .post → r.IsShown known) →
      Signs known c c'

/-- Steps of an operation as long as the account of the session is known, and one that may change it
at the end. -/
def Discipline.signing (known : Option String → Prop) : Discipline Bool Client where
  fits goesOn c := goesOn = true → known c.session.kid
  allows _ goesOn c goesOn' c' := Signs known c c' ∧
    (goesOn' = true → goesOn = true ∧ c'.session.kid = c.session.kid)

abbrev GoesOn (goesOn : Bool) : Prop :=
  goesOn = true

section Covers

variable {known : Option String → Prop}

/-- What leaves the requests and the account alone may be done at any time. -/
theorem follows_quiet {σ α : Type} {client : σ → Client} {x : Act σ α}
    (hx : x.IsReading client) (g : Bool) :
    x.Follows ((Discipline.signing known).onto client) (fun _ g' => g' = g) g :=
  follows_of_isReading (d := Discipline.signing known)
    (fun _ _ _ _ hs hr => ⟨.keep hr, fun hg => ⟨hg, by rw [hs]⟩⟩) hx g

theorem Client.follows_modifyQuiet {f : Session → Session} (hf : ∀ s, (f s).kid = s.kid)
    (g : Bool) :
    (modifySession f).Follows (Discipline.signing known) (fun _ g' => g' = g) g :=
  follows_once fun _ c _ => ⟨g, ⟨.keep rfl, fun hg => ⟨hg, hf c.session⟩⟩, fun _ _ => rfl⟩

/-- A request is sent that is not signed or shows its header. -/
theorem Exchange.follows_sendShown {method : Method} {url : String}
    {headers : List (String × String)} {body : Option Signed} {g : Bool}
    (hr : ∀ verification timeout, ∀ r : Request,
      r = ⟨method, url, headers, verification, timeout, body⟩ →
        r.method = .post → r.IsShown known) :
    (send method url headers body).Follows ((Discipline.signing known).onto Prod.fst)
      (fun _ g' => g' = g) g := by
  refine follows_bind (follows_quiet isReading_close g) fun _ g' hg => ?_
  rw [hg]
  refine follows_bind (follows_quiet (isReading_onFirst Client.isReading_getSession) g)
    fun session g' hg => ?_
  rw [hg]
  refine follows_bind (Q := fun _ g' => g' = g) (follows_onFirst ?_) fun reply g' hg => ?_
  · exact follows_once fun _ c _ =>
      ⟨g, ⟨.send _ rfl (hr _ _ _ rfl), fun hg => ⟨hg, rfl⟩⟩, fun _ _ => rfl⟩
  · cases reply with
    | failure text => exact follows_throw _
    | response r =>
      have hhold : (modify fun s => (s.1, ⟨some r, some url, none⟩) :
          Exchange Unit).IsReading Prod.fst := isReading_modify fun _ => ⟨rfl, rfl⟩
      rw [hg]
      exact follows_bind (follows_quiet hhold g) fun _ g' hg => follows_pure hg

theorem Exchange.follows_sendUnsigned {method : Method} (hm : method ≠ .post) (url : String)
    (headers : List (String × String)) (body : Option Signed) (g : Bool) :
    (send method url headers body).Follows ((Discipline.signing known).onto Prod.fst)
      (fun _ g' => g' = g) g := by
  refine follows_sendShown fun _ _ r hr hpost => absurd ?_ hm
  rw [hr] at hpost
  exact hpost

theorem Client.keeps_offerNonce (text : String) :
    (offerNonce text).Keeps (Discipline.signing known) GoesOn id := by
  refine keeps_bind (keeps_lift _) fun token g _ => follows_modifyQuiet ?_ g
  exact fun _ => rfl

theorem Exchange.keeps_keepNonce (r : Response) (isRequired : Bool) :
    (keepNonce r isRequired).Keeps (Discipline.signing known) GoesOn Prod.fst := by
  unfold keepNonce
  split
  · exact keeps_onFirst (Client.keeps_offerNonce _)
  · cases isRequired with
    | true => exact keeps_throw _
    | false => exact keeps_pure _

theorem Exchange.keeps_session :
    (onFirst Client.getSession : Exchange Session).Keeps (Discipline.signing known) GoesOn
      Prod.fst :=
  fun g _ => follows_quiet (isReading_onFirst Client.isReading_getSession) g

theorem Discipline.permits_signing : (Discipline.signing known).Permits GoesOn where
  reading _ _ _ _ hs hr := ⟨.keep hr, fun hg => ⟨hg, by rw [hs]⟩⟩
  learning _ g _ := by
    refine Client.follows_modifyQuiet ?_ g
    exact fun _ => rfl
  asking _ _ :=
    keeps_bind Exchange.keeps_session fun _ =>
      keeps_bind (fun g _ => Exchange.follows_sendUnsigned (by decide) _ _ _ g) fun _ =>
        keeps_bind (Exchange.keeps_keepNonce _ _) fun _ => keeps_pure _

theorem Exchange.keeps_fetchNonce (url : String) :
    (fetchNonce url).Keeps (Discipline.signing known) GoesOn Prod.fst := by
  refine keeps_bind keeps_session fun _ => ?_
  refine keeps_bind (fun g _ => follows_sendUnsigned (by decide) _ _ _ g) fun r => ?_
  refine keeps_bind (fun g _ => follows_quiet (isReading_accept _) g) fun _ => ?_
  split
  · exact keeps_lift _
  · exact keeps_throw _

theorem Client.keeps_takeNonce : takeNonce.Keeps (Discipline.signing known) GoesOn id := by
  have htake : takePooled.Keeps (Discipline.signing known) GoesOn id := fun g _ =>
    follows_once fun _ _ _ => ⟨g, ⟨.keep rfl, fun hg => ⟨hg, rfl⟩⟩, fun _ _ => rfl⟩
  refine keeps_bind htake fun t => ?_
  split
  · exact keeps_pure _
  · exact keeps_within _
      (keeps_bind (keeps_onFirst (Discipline.permits_signing.keeps_endpointUrl _)) fun _ =>
        Exchange.keeps_fetchNonce _)

/-- The account in a header is the one that the session has when the signing begins. -/
theorem Exchange.keeps_postShown (url : String) (claims : Claims) (signing : Signing)
    (wanted : String) :
    (postOnce url claims signing wanted).Keeps (Discipline.signing known) GoesOn Prod.fst := by
  intro g hg
  have hsession : (onFirst Client.getSession : Exchange Session).Follows
      ((Discipline.signing known).onto Prod.fst) (fun s g' => g' = g ∧ known s.kid) g := by
    refine follows_onFirst (follows_once fun _ c hfits =>
      ⟨g, ⟨.keep rfl, fun hg => ⟨hg, rfl⟩⟩, fun s hs => ⟨rfl, ?_⟩⟩)
    cases hs
    exact hfits hg
  refine follows_bind hsession fun session g' hknown => ?_
  obtain ⟨rfl, hknown⟩ := hknown
  split
  · exact follows_throw _
  · rename_i key hkey
    have hkid : (if signing.usesKid then session.kid else none) = none ∨
        known (if signing.usesKid then session.kid else none) := by
      cases signing.usesKid with
      | true => exact .inr hknown
      | false => exact .inl rfl
    refine follows_then (keeps_lift _) hg fun payload => ?_
    refine follows_then (keeps_onFirst Client.keeps_takeNonce) hg fun nonce => ?_
    refine follows_bind (Q := fun s g'' => g'' = g' ∧
      Signed.request payload key nonce (some url) _ = .ok s)
      (follows_lift _ fun s hs => ⟨rfl, hs⟩) fun s g'' hs => ?_
    obtain ⟨rfl, hs⟩ := hs
    refine follows_then keeps_session hg fun session' => ?_
    refine follows_bind (follows_sendShown ?_) fun r h hh => ?_
    · intro verification timeout r hr _
      have hbody : r.body = some s := by rw [hr]
      have hurl : r.url = url := by rw [hr]
      refine Request.isShown_of_isRequest hbody (hurl ▸ Signed.isRequest_of_request hs) hkid
    · rw [hh]
      exact keeps_bind (keeps_keepNonce _ _) (fun _ => keeps_pure _) _ hg

/-- All operations send signed requests that show their headers. -/
theorem Discipline.covers_signing : (Discipline.signing known).Covers GoesOn where
  toPermits := permits_signing
  taking g hg := follows_mono (Client.keeps_takeNonce g hg) fun _ _ _ => trivial
  fetching url g hg := follows_mono (Exchange.keeps_fetchNonce url g hg) fun _ _ _ => trivial
  posting := Exchange.keeps_postShown
  changing _ _ _ _ :=
    follows_once fun _ _ _ => ⟨false, ⟨.keep rfl, fun h => by cases h⟩, fun _ _ => trivial⟩

end Covers

/-! ### Operations one after the other -/

theorem Client.after_concat (env : Environment) (c : Client) (os : List Operation) (o : Operation) :
    c.after env (os ++ [o]) = (o.act.run env (c.after env os)).2 := by
  simp [after]

namespace Client

/-- Allowed steps only add requests that show their headers. -/
theorem signs_of_reachable {known : Option String → Prop} {env : Environment} {g g' : Bool}
    {c c' : Client} (h : (Discipline.signing known).Reachable env g c g' c') :
    ∃ new, c'.sent = c.sent ++ new ∧ ∀ r ∈ new, r.method = .post → r.IsShown known := by
  induction h with
  | refl => exact ⟨[], (List.append_nil _).symm, by simp⟩
  | step _ hallow ih =>
    obtain ⟨new, hsent, hnew⟩ := ih
    cases hallow.1 with
    | keep hs => exact ⟨new, hs.trans hsent, hnew⟩
    | send r hs hr =>
      refine ⟨new ++ [r], by rw [hs, hsent, List.append_assoc], ?_⟩
      intro q hq hpost
      rcases List.mem_append.1 hq with hq | hq
      · exact hnew q hq hpost
      · obtain rfl := List.mem_singleton.1 hq
        exact hr hpost

/-- An operation that runs alone sends signed requests in the name of the account that the session
has when it begins. -/
theorem signs_act (env : Environment) (c : Client) (o : Operation) :
    ∃ new, (o.act.run env c).2.sent = c.sent ++ new ∧
      ∀ r ∈ new, r.method = .post → r.IsShown (· = c.session.kid) := by
  have hfits : ∀ env g (c₁ : Client) g' c₂,
      (Discipline.signing (· = c.session.kid)).fits g c₁ →
        (Discipline.signing (· = c.session.kid)).allows env g c₁ g' c₂ →
          (Discipline.signing (· = c.session.kid)).fits g' c₂ := by
    intro env g c₁ g' c₂ hfit hallow hg'
    obtain ⟨hg, hkid⟩ := hallow.2 hg'
    rw [hkid]
    exact hfit hg
  obtain ⟨g', hreach, -⟩ := reachable_run hfits
    (Discipline.covers_signing.follows_operation o (g := true) rfl) env (s := c) fun _ => rfl
  exact signs_of_reachable hreach

theorem signs_after (env : Environment) (s : Session) (os : List Operation) (i : Nat) (r : Request)
    (hi : ((ofSession s).after env os).sent[i]? = some r) (hpost : r.method = .post) :
    ∃ before o rest, os = before ++ o :: rest ∧
      ((ofSession s).after env before).sent.length ≤ i ∧
      i < ((ofSession s).after env (before ++ [o])).sent.length ∧
      r.IsShown (· = ((ofSession s).after env before).session.kid) := by
  induction os using List.reverseRecOn with
  | nil => simp [after, ofSession] at hi
  | append_singleton os o ih =>
    obtain ⟨new, hsent, hnew⟩ := signs_act env ((ofSession s).after env os) o
    rw [← after_concat] at hsent
    by_cases hlt : i < ((ofSession s).after env os).sent.length
    · rw [hsent, List.getElem?_append_left hlt] at hi
      obtain ⟨before, o', rest, hos, hrest⟩ := ih hi
      exact ⟨before, o', rest ++ [o], by rw [hos, List.append_assoc, List.cons_append], hrest⟩
    · refine ⟨os, o, [], rfl, Nat.le_of_not_lt hlt, (List.getElem?_eq_some_iff.1 hi).1, ?_⟩
      rw [hsent, List.getElem?_append_right (Nat.le_of_not_lt hlt)] at hi
      exact hnew r (List.mem_of_getElem? hi) hpost

end Client

/-! ### Operations in turns -/

namespace Crowd

/-- Whether the session had an account at some moment of a run. -/
def HadAccount (env : Environment) (start now : Crowd) (kid : Option String) : Prop :=
  ∃ earlier, Reaches env start earlier ∧ Reaches env earlier now ∧
    earlier.client.session.kid = kid

/-- What is left of an operation follows the discipline, whatever took its turn before. -/
theorem follows_of_reaches {env : Environment} {s : Session} {crowd now : Crowd}
    (h : Reaches env (ofSession s) crowd) (hnow : Reaches env crowd now) :
    ∀ x ∈ crowd.running, ∃ g,
      x.Follows (Discipline.signing (HadAccount env (ofSession s) now)) (fun _ _ => True) g := by
  induction h with
  | refl => simp [ofSession]
  | @tail crowd crowd' hreach hstep ih =>
    have hold := ih (Relation.ReflTransGen.head hstep hnow)
    cases hstep with
    | begin o =>
      intro x hx
      rcases List.mem_append.1 hx with hx | hx
      · exact hold x hx
      · obtain rfl := List.mem_singleton.1 hx
        exact ⟨true, Discipline.covers_signing.follows_operation o rfl⟩
    | @advance c before after f k =>
      obtain ⟨g, hg⟩ := hold (.step f k) (by simp)
      have hhad : HadAccount env (ofSession s) now c.session.kid :=
        ⟨_, hreach, .head .advance hnow, rfl⟩
      obtain ⟨g', -, hnext⟩ := follows_step.1 hg env c fun _ => hhad
      intro x hx
      rcases List.mem_append.1 hx with hx | hx
      · exact hold x (by simp [hx])
      · rcases List.mem_cons.1 hx with rfl | hx
        · exact ⟨g', hnext⟩
        · exact hold x (by simp [hx])
    | shuffle _ => exact hold

/-- A step of a crowd sends a signed request only in the name of an account that the session had. -/
theorem signs_step {env : Environment} {s : Session} {crowd crowd' : Crowd}
    (h : Reaches env (ofSession s) crowd) (hstep : Step env crowd crowd') :
    Signs (HadAccount env (ofSession s) crowd) crowd.client crowd'.client := by
  have hfollows := follows_of_reaches h .refl
  have hhad : HadAccount env (ofSession s) crowd crowd.client.session.kid :=
    ⟨crowd, h, .refl, rfl⟩
  cases hstep with
  | begin o => exact .keep rfl
  | @advance c before after f k =>
    obtain ⟨g, hg⟩ := hfollows (.step f k) (by simp)
    obtain ⟨g', hallow, -⟩ := follows_step.1 hg env c fun _ => hhad
    exact hallow.1
  | shuffle _ => exact .keep rfl

theorem signs_of_reaches {env : Environment} {s : Session} {crowd : Crowd}
    (h : Reaches env (ofSession s) crowd) (i : Nat) (r : Request)
    (hi : crowd.client.sent[i]? = some r) (hpost : r.method = .post) :
    ∃ now, Reaches env (ofSession s) now ∧ Reaches env now crowd ∧ now.client.sent.length = i ∧
      r.IsShown (HadAccount env (ofSession s) now) := by
  induction h with
  | refl => simp [ofSession, Client.ofSession] at hi
  | @tail crowd crowd' hreach hstep ih =>
    have hold : crowd.client.sent[i]? = some r →
        ∃ now, Reaches env (ofSession s) now ∧ Reaches env now crowd' ∧
          now.client.sent.length = i ∧ r.IsShown (HadAccount env (ofSession s) now) := by
      intro hi
      obtain ⟨now, hnow, hto, hrest⟩ := ih hi
      exact ⟨now, hnow, hto.tail hstep, hrest⟩
    cases signs_step hreach hstep with
    | keep hs => exact hold (hs ▸ hi)
    | send q hs hq =>
      rw [hs] at hi
      by_cases hlt : i < crowd.client.sent.length
      · exact hold (by rwa [List.getElem?_append_left hlt] at hi)
      · -- the new request
        rw [List.getElem?_append_right (Nat.le_of_not_lt hlt)] at hi
        obtain ⟨hzero, hqr⟩ := List.getElem?_eq_some_iff.1 hi
        rw [List.length_singleton] at hzero
        obtain rfl : q = r := by simpa using hqr
        exact ⟨crowd, hreach, .single hstep, by omega, hq hpost⟩

end Crowd

/-- **Signed requests show a header.** Whatever the server answers, every signed request that is
sent carries exactly three members, and shows a header in the name of the account of the session or
with the key. The header is complete unless the nonce, the URL or the name of the account is empty.
Operations that run one after the other use the account that the session has when they begin, those
that take turns one that it had before the request. -/
theorem posts_show_header (env : Environment) (s : Session) :
    (∀ os i r, ((Client.ofSession s).after env os).sent[i]? = some r → r.method = .post →
      ∃ before o rest, os = before ++ o :: rest ∧
        ((Client.ofSession s).after env before).sent.length ≤ i ∧
        i < ((Client.ofSession s).after env (before ++ [o])).sent.length ∧
        r.IsShown (· = ((Client.ofSession s).after env before).session.kid)) ∧
    ∀ crowd, Crowd.Reaches env (.ofSession s) crowd →
      ∀ i r, crowd.client.sent[i]? = some r → r.method = .post →
        ∃ now, Crowd.Reaches env (.ofSession s) now ∧ Crowd.Reaches env now crowd ∧
          now.client.sent.length = i ∧ r.IsShown (Crowd.HadAccount env (.ofSession s) now) :=
  ⟨Client.signs_after env s, fun _ h => Crowd.signs_of_reaches h⟩

/-- A session for an account whose name is empty. -/
def Session.nameless : Session :=
  { Session.sample with kid := some "" }

theorem posts_show_header_nameless :
    let sent := ((Client.ofSession .nameless).after countingEnvironment threeRequests).sent
    ∃ r header, sent[1]? = some r ∧ r.method = .post ∧ r.header? = some header ∧
      header.names = ["alg", "nonce", "url"] ∧ ¬ IsComplete header ∧ r.IsShown (· = some "") := by
  intro sent
  have hall : ∀ n ≤ 2, ((Client.ofSession .nameless).after countingEnvironment
      (threeRequests.take n)).session.kid = some "" := by
    decide +kernel
  have hsecond : (sent[1]?.map fun r => (r.method, r.body.bind fun s =>
      (Body.text s.protectedText).document.toOption.map Members.names))
      = some (.post, some ["alg", "nonce", "url"]) := by
    decide +kernel
  obtain ⟨r, hr, hread⟩ := Option.map_eq_some_iff.1 hsecond
  obtain ⟨hpost, hnames⟩ := Prod.ext_iff.1 hread
  obtain ⟨document, hbody, hnames⟩ := Option.bind_eq_some_iff.1 hnames
  obtain ⟨header, hheader, hnames⟩ := Option.map_eq_some_iff.1 hnames
  have hheader : r.header? = some header := by
    simpa [Request.header?, Request.signed?_of_body hbody] using hheader
  refine ⟨r, header, hr, hpost, hheader, hnames, ?_, ?_⟩
  · rw [IsComplete, hnames]
    decide
  · obtain ⟨before, o, rest, hos, -, -, hshown⟩ :=
      (posts_show_header countingEnvironment .nameless).1 threeRequests 1 r hr hpost
    have htake : threeRequests.take before.length = before := by
      rw [hos]
      exact List.take_left
    have hlen : before.length ≤ 2 := by
      have h3 := congrArg List.length hos
      simp [threeRequests] at h3
      omega
    rw [← htake, hall _ hlen] at hshown
    exact hshown

end AcmeClient
