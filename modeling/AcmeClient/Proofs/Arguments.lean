import AcmeClient.Proofs.Accessors
import AcmeClient.Proofs.Retry

/-!
# Arguments that are refused

Most operations look at their arguments before they do anything: what they refuse leaves the client
as it was. A key that cannot sign is found out only when something is signed with it, and the reason
of a revocation only when there is a certificate; by then other things have been asked of the
server, and nonces were taken:

* `Errand` — what is done before an argument is looked at; `Errand.failing` does it in vain;
* `Operation.Refuses` — the operations whose argument is refused, with their errands and the fault;
* `Operation.run_of_refuses` — such an operation does its errands and fails;
* `Operation.refuses_key` and `Operation.refuses_naive` — a key without an algorithm is refused in
  every session, and so is an order with an instant without an offset;
* `Operation.fails_after_errands` — what that leaves alone.
-/

namespace AcmeClient

open Act

/-! ### Errands -/

/-- What an operation asks for before it looks at an argument: the URL of an endpoint, a nonce, or
the certificate of a resource. -/
inductive Errand where
  | endpoint (e : Endpoint) : Errand
  | nonce : Errand
  | certificate (r : CertificateResource) : Errand

namespace Errand

def act : Errand → Act Client Unit
  | .endpoint e => do let _ ← Client.endpointUrl e.name
  | .nonce => do let _ ← Client.takeNonce
  | .certificate r => do let _ ← within r Holding.leaf

/-- Whether an errand needs no signed request. -/
def isUnsigned : Errand → Bool
  | .certificate _ => false
  | _ => true

/-- Does some errands and fails. -/
def failing : List Errand → Fault → Act Client Unit
  | [], e => throw e
  | x :: rest, e => do
      x.act
      failing rest e

variable {x : Errand} {errands : List Errand} {e : Fault}

theorem keeps_act (x : Errand) : x.act.Relates Client.SameProfile id := by
  cases x with
  | endpoint endpoint =>
    exact keeps_bind (Client.admits_profile.relates_endpointUrl _) fun _ => keeps_pure _
  | nonce => exact keeps_bind Client.admits_profile.relates_takeNonce fun _ => keeps_pure _
  | certificate r =>
    exact keeps_bind (keeps_within r Discipline.serves_profile.keeps_leaf) fun _ => keeps_pure _

theorem inquires_act (hx : x.isUnsigned = true) : x.act.Relates Client.Inquires id := by
  cases x with
  | endpoint endpoint =>
    exact keeps_bind (Client.admits_inquires.relates_endpointUrl _) fun _ => keeps_pure _
  | nonce => exact keeps_bind Client.admits_inquires.relates_takeNonce fun _ => keeps_pure _
  | certificate r => cases hx

/-- Errands are related as each of them is. -/
theorem relates_failing {R : Client → Client → Prop} (h : ∀ x ∈ errands, x.act.Relates R id) :
    (failing errands e).Relates R id := by
  induction errands with
  | nil => exact keeps_throw e
  | cons x rest ih =>
    have hrest : (failing rest e).Relates R id := ih fun y hy => h y (List.mem_cons_of_mem x hy)
    exact keeps_bind (h x List.mem_cons_self) fun _ => hrest

variable (env : Environment) (c : Client)

/-- What fails after an errand is the errand in vain. -/
theorem run_bind_failing {α : Type} {y : Act Client α} {g : α → Act Client Unit}
    (hx : x.act = do let _ ← y)
    (h : ∀ a c', y.run env c = (.ok a, c') → (g a).run env c' = (failing errands e).run env c') :
    (y >>= g).run env c = (failing (x :: errands) e).run env c := by
  rw [failing, run_bind, run_bind, hx, run_discard]
  rcases hrun : y.run env c with ⟨e' | a, c'⟩
  · rfl
  · exact h a c' hrun

/-- Errands in vain end with a fault. -/
theorem error_of_failing (errands : List Errand) (e : Fault) :
    ∃ e', ((failing errands e).run env c).1 = .error e' := by
  induction errands generalizing c with
  | nil => exact ⟨e, rfl⟩
  | cons x rest ih =>
    rw [failing, run_bind]
    rcases x.act.run env c with ⟨e' | _, c'⟩
    · exact ⟨e', rfl⟩
    · exact ih c'

end Errand

/-! ### Operations that refuse an argument -/

/-- The operations with an argument that is not valid, with what is done before they fail and the
fault: a URL that does not pass, claims that cannot be written, as with an instant without an
offset, a form that stands for no certificate request, a reason that is not known, and a key that
has no algorithm. The new key of an account is looked at last, after its location and the key of
the session. -/
inductive Operation.Refuses (s : Session) : Operation → List Errand → Fault → Prop where
  | login {url : Json} {key : Option Key} {e : Fault} : checkUrl url "account_url" = .error e →
      Refuses s (.login url key) [] e
  | bind {kind : ResourceKind} {registry : Registry} {location : Json} {e : Fault} :
      checkUrl location "location" = .error e → Refuses s (.bind kind registry location) [] e
  | order {identifiers : Value} {notBefore notAfter : Option Value} {e : Fault} :
      Client.orderClaims identifiers notBefore notAfter = .error e →
      Refuses s (.newOrder identifiers notBefore notAfter) [] e
  | request {r : Resource} {form : X509.Request.Form} {d : X509.Request.FormDefect} :
      X509.Request.derOf form = .error d →
      Refuses s (.onResource r (.load (.finalize form))) [] (.ofForm d)
  | reason {c : X509.Certificate} {reason : Json} {key : Option Key} {e : Fault} :
      reason ≠ .null → RevocationReason.ofGiven reason = .error e →
      Refuses s (.revoke c reason key) [] e
  | reasonOf {r : CertificateResource} {reason : Json} {e : Fault} :
      reason ≠ .null → RevocationReason.ofGiven reason = .error e →
      Refuses s (.onCertificate r (.revoke reason)) [.certificate r] e
  | signingKey {connection : Connection} {url wanted : String} {claims : Claims}
      {signing : Exchange.Signing} {payload : List UInt8} {key : Key} {e : Fault} :
      claims.payload = .ok payload → signing.key.or s.key = some key →
      Algorithm.ofKey key = .error e →
      Refuses s (.onConnection connection (.sendSigned url claims signing wanted)) [.nonce] e
  | claims {connection : Connection} {url wanted : String} {claims : Claims}
      {signing : Exchange.Signing} {key : Key} {e : Fault} :
      signing.key.or s.key = some key → claims.payload = .error e →
      Refuses s (.onConnection connection (.sendSigned url claims signing wanted)) [] e
  | unplaced {r : Resource} {newKey : Key} {e : Fault} :
      r.location = none → Algorithm.ofKey newKey = .error e →
      Refuses s (.onResource r (.changeKey newKey)) [] (.usage (.unbound r.kind.name))
  | keyless {r : Resource} {location : String} {newKey : Key} {e : Fault} :
      r.location = some location → s.key = none → Algorithm.ofKey newKey = .error e →
      Refuses s (.onResource r (.changeKey newKey)) [.endpoint .keyChange] (.usage .noKeyToChange)
  | newKey {r : Resource} {location : String} {oldKey newKey : Key} {e : Fault} :
      r.location = some location → s.key = some oldKey → Algorithm.ofKey newKey = .error e →
      Refuses s (.onResource r (.changeKey newKey)) [.endpoint .keyChange] e
  | certificateKey {c : X509.Certificate} {reason : Json} {b : DraftBook} {key : Key} {e : Fault} :
      Client.revocationClaims c reason = .ok b → Algorithm.ofKey key = .error e →
      Refuses s (.revoke c reason (some key)) [.endpoint .revokeCert, .nonce] e

/-! ### Arguments that are looked at late -/

/-- A revocation has no claims exactly when its reason is not known. -/
theorem Client.revocationClaims_eq_error {cert : X509.Certificate} {reason : Json} {e : Fault} :
    revocationClaims cert reason = .error e ↔
      reason ≠ .null ∧ RevocationReason.ofGiven reason = .error e := by
  cases reason with
  | null =>
    constructor
    · intro h
      cases h
    · rintro ⟨hreason, -⟩
      exact absurd rfl hreason
  | _ =>
    constructor
    · intro h
      refine ⟨nofun, ?_⟩
      obtain hgiven | ⟨r, -, hput⟩ := bind_eq_error.1 h
      · exact hgiven
      · cases hput
    · rintro ⟨-, h⟩
      simp only [revocationClaims, h, error_bind]

/-- A key without an algorithm signs nothing. -/
theorem Envelope.sign_of_ofKey {m : Envelope} {e : Fault} (h : Algorithm.ofKey m.key = .error e)
    (nonce : List UInt8) : m.sign nonce = .error e := by
  simp only [sign, Signed.request, h, error_bind]

namespace Exchange

variable {env : Environment} {s : Client × Connection} {url wanted : String} {claims : Claims}
  {signing : Signing} {payload : List UInt8} {key : Key} {e : Fault}

/-- A request with a key without an algorithm takes a nonce, and fails. -/
theorem run_sendSigned_of_ofKey (hp : claims.payload = .ok payload)
    (hkey : signing.key.or s.1.session.key = some key) (h : Algorithm.ofKey key = .error e) :
    (sendSigned url claims signing wanted).run env s =
      match Client.takeNonce.run env s.1 with
      | (.ok _, c) => (.error e, (c, s.2))
      | (.error e', c) => (.error e', (c, s.2)) := by
  obtain ⟨m, hof, hm⟩ : ∃ m, Envelope.of s.1.session url claims signing wanted = .ok m ∧
      m.key = key :=
    ⟨_, Envelope.of_eq_ok.2 ⟨key, payload, hkey, hp, rfl⟩, rfl⟩
  rw [← hm] at h
  rw [sendSigned, run_bind, run_postOnce, hof]
  dsimp only
  rw [attempt, run_bind, run_onFirst]
  rcases Client.takeNonce.run env s.1 with ⟨e' | nonce, c⟩
  · rfl
  · dsimp only
    rw [run_bind, run_lift, Envelope.sign_of_ofKey h nonce]

end Exchange

namespace Client

variable (env : Environment) (c : Client)

/-- To look up an endpoint does not touch the key. -/
theorem key_of_endpointUrl {env : Environment} {c c' : Client} {name : String}
    {result : Except Fault String} (h : (endpointUrl name).run env c = (result, c')) :
    c'.session.key = c.session.key := by
  have hinquires := inquires_endpointUrl env c name
  rw [h] at hinquires
  have hkey : c'.session.profile.key = c.session.profile.key := by rw [hinquires.profile]
  exact hkey

/-- The change to a key without an algorithm asks for the endpoint, and fails. -/
theorem run_changeKey_of_ofKey {location : String} {oldKey newKey : Key} {e : Fault}
    (hkey : c.session.key = some oldKey) (h : Algorithm.ofKey newKey = .error e) :
    (changeKey location newKey).run env c
      = (Errand.failing [.endpoint .keyChange] e).run env c := by
  refine Errand.run_bind_failing env c rfl fun url c' hurl => ?_
  have hsession : getSession.run env c' = (.ok c'.session, c') := rfl
  have hinner : keyChange location url oldKey newKey = .error e := by
    have hput : putValue .empty "account" (.string location)
        = .ok (DraftBook.empty.set 0 "account" (.value (.string location))) := rfl
    simp only [keyChange, hput, ok_bind, h, error_bind]
  rw [run_bind_of_ok env hsession, (key_of_endpointUrl hurl).trans hkey]
  dsimp only
  rw [run_bind, run_lift, hinner]
  rfl

/-- Without a key there is none to change. -/
theorem run_changeKey_keyless {location : String} {newKey : Key} (hkey : c.session.key = none) :
    (changeKey location newKey).run env c
      = (Errand.failing [.endpoint .keyChange] (.usage .noKeyToChange)).run env c := by
  refine Errand.run_bind_failing env c rfl fun url c' hurl => ?_
  have hsession : getSession.run env c' = (.ok c'.session, c') := rfl
  rw [run_bind_of_ok env hsession, (key_of_endpointUrl hurl).trans hkey]
  rfl

end Client

namespace Client

/-- The claims of a revocation can be written. -/
theorem payload_of_revocationClaims {cert : X509.Certificate} {reason : Json} {b : DraftBook}
    (h : revocationClaims cert reason = .ok b) :
    ∃ payload, (Claims.draft b).payload = .ok payload := by
  have hwritten : ∀ p ∈ Value.toResults (b.members 0), ∃ j, p.2 = .ok j := by
    cases reason with
    | null =>
      cases h
      intro p hp
      have hp' : p ∈ [("certificate", Value.toJson (.string (Base64.encode cert.der)))] := hp
      rw [List.mem_singleton.1 hp']
      exact ⟨_, rfl⟩
    | _ =>
      obtain ⟨r, hr, hput⟩ := bind_eq_ok.1 h
      cases hput
      intro p hp
      have hp' : p ∈ [("certificate", Value.toJson (.string (Base64.encode cert.der))),
        ("reason", Value.toJson (.int r.code))] := hp
      simp only [List.mem_cons, List.not_mem_nil, or_false] at hp'
      obtain rfl | rfl := hp'
      · exact ⟨_, rfl⟩
      · exact ⟨_, rfl⟩
  obtain ⟨ms, hms⟩ := Value.settle_of_ok hwritten
  refine ⟨Text.Utf8.encode (Json.object ms).canonical, ?_⟩
  simp only [Claims.payload, Claims.text, DraftBook.text, DraftBook.document, Value.toJson, hms]
  rfl

variable (env : Environment) (c : Client)

/-- A revocation with a key without an algorithm asks for the endpoint, takes a nonce, and fails. -/
theorem run_revoke_of_ofKey {cert : X509.Certificate} {reason : Json} {b : DraftBook} {key : Key}
    {e : Fault} (hb : revocationClaims cert reason = .ok b) (h : Algorithm.ofKey key = .error e) :
    (revoke cert reason (some key)).run env c
      = (Errand.failing [.endpoint .revokeCert, .nonce] e).run env c := by
  obtain ⟨payload, hp⟩ := payload_of_revocationClaims hb
  have hclaims : (liftM (revocationClaims cert reason) : Act Client DraftBook).run env c
      = (.ok b, c) := by rw [run_lift, hb]
  rw [revoke, run_bind_of_ok env hclaims]
  refine Errand.run_bind_failing env c rfl fun url c' _ => ?_
  have hsigned : (Exchange.sendSigned url (.draft b) ⟨some key, (some key).isNone⟩
      Exchange.jsonType).run env (c', .idle) = match takeNonce.run env c' with
        | (.ok _, c) => (.error e, (c, .idle))
        | (.error e', c) => (.error e', (c, .idle)) :=
    Exchange.run_sendSigned_of_ofKey hp rfl h
  rw [connected, run_within, run_bind, hsigned, Errand.failing, run_bind, Errand.act, run_discard]
  rcases takeNonce.run env c' with ⟨e' | nonce, c''⟩
  · rfl
  · rfl

end Client

namespace Operation

variable {env : Environment} {c : Client} {o : Operation} {errands : List Errand} {e : Fault}

/-- The key of an account with a location is changed by its client. -/
theorem run_changeKey_of_location {r : Resource} {location : String} {newKey : Key}
    (h : r.location = some location) : (onResource r (.changeKey newKey)).act.run env c
      = (Client.changeKey location newKey).run env c := by
  have hrequire : Loading.requireLocation.run env (c, r) = (.ok location, (c, r)) := by
    show (locationOf r.kind.name r.location, (c, r)) = _
    rw [h]
    rfl
  show (within r (Loading.changeKey newKey)).run env c = _
  rw [run_within, Loading.changeKey, run_bind_of_ok env hrequire, run_onFirst]

/-- An operation that refuses an argument does its errands and fails. -/
theorem run_of_refuses (h : o.Refuses c.session errands e) :
    o.act.run env c = (Errand.failing errands e).run env c := by
  cases h with
  | login h =>
    rw [act, run_discard, Client.login, run_bind, run_lift, h]
    rfl
  | bind h =>
    rw [act, run_discard, Client.bind, run_bind, run_lift, h]
    rfl
  | order h =>
    rw [act, run_discard, Client.newOrder, run_bind, run_lift, h]
    rfl
  | @request r form d h =>
    show (within r (Loading.finalize form)).run env c = _
    rw [run_within, Loading.finalize, run_bind, run_lift, h]
    rfl
  | reason hreason h =>
    rw [act, Client.revoke, run_bind, run_lift,
      Client.revocationClaims_eq_error.2 ⟨hreason, h⟩]
    rfl
  | @reasonOf r reason e hreason h =>
    show (within r (Holding.revoke reason)).run env c = _
    rw [run_within, Holding.revoke, run_bind, Errand.failing, run_bind, Errand.act, run_discard,
      run_within]
    rcases Holding.leaf.run env (c, r) with ⟨e' | cert, c', r'⟩
    · rfl
    · dsimp only
      rw [run_onFirst, Client.revoke, run_bind, run_lift,
        Client.revocationClaims_eq_error.2 ⟨hreason, h⟩]
      rfl
  | @signingKey connection url wanted claims signing payload key e hp hkey h =>
    show (within connection
      (do let _ ← Exchange.sendSigned url claims signing wanted)).run env c = _
    rw [run_within, run_discard,
      Exchange.run_sendSigned_of_ofKey (s := (c, connection)) hp hkey h, Errand.failing, run_bind,
      Errand.act, run_discard]
    rcases Client.takeNonce.run env c with ⟨e' | nonce, c'⟩
    · rfl
    · rfl
  | @claims connection url wanted claims signing key e hkey h =>
    have hof : Envelope.of c.session url claims signing wanted = .error e := by
      rw [Envelope.of, hkey, h]
      rfl
    show (within connection
      (do let _ ← Exchange.sendSigned url claims signing wanted)).run env c = _
    rw [run_within, run_discard, Exchange.run_sendSigned_of_error (s := (c, connection)) hof]
    rfl
  | @unplaced r newKey e hlocation h =>
    have hrequire : Loading.requireLocation.run env (c, r)
        = (.error (.usage (.unbound r.kind.name)), (c, r)) := by
      show (locationOf r.kind.name r.location, (c, r)) = _
      rw [hlocation]
      rfl
    show (within r (Loading.changeKey newKey)).run env c = _
    rw [run_within, Loading.changeKey, run_bind_of_error env hrequire]
    rfl
  | keyless hlocation hkey h =>
    exact (run_changeKey_of_location hlocation).trans (Client.run_changeKey_keyless env c hkey)
  | newKey hlocation hkey h =>
    exact (run_changeKey_of_location hlocation).trans
      (Client.run_changeKey_of_ofKey env c hkey h)
  | certificateKey hb h => exact Client.run_revoke_of_ofKey env c hb h

end Operation

/-! ### The faults -/

namespace Fault

/-- Whether a fault blames an argument: a value, its kind, or a text with foreign characters. -/
def BlamesArgument : Fault → Prop
  | .argument _ => True
  | .kind _ => True
  | .foreignText _ _ => True
  | _ => False

/-- Whether a fault says that an argument goes too far: an instant is beyond the calendar, a number
is infinite, or a certificate request has a version that is not known. -/
def GoesTooFar : Fault → Prop
  | .outOfRange _ => True
  | .unbounded => True
  | .version _ => True
  | _ => False

/-- The two sorts of faults with which arguments are refused. -/
def IsOfArgument (e : Fault) : Prop :=
  e.BlamesArgument ∨ e.GoesTooFar

theorem isOfArgument_ofValue (d : ValueDefect) : (ofValue d).IsOfArgument := by
  cases d with
  | noOffset t => exact .inl trivial
  | outOfRange d => exact .inr trivial
  | unwritable kind => exact .inl trivial
  | notIterable kind => exact .inl trivial

theorem isOfArgument_ofForm (d : X509.Request.FormDefect) : (ofForm d).IsOfArgument := by
  cases d with
  | kind name => exact .inl trivial
  | notAscii run place => exact .inl trivial
  | malformed => exact .inl trivial
  | version d => exact .inr trivial

end Fault

theorem failsOnly_ofValue {α : Type} (r : Except ValueDefect α) :
    FailsOnly Fault.IsOfArgument (r.mapError Fault.ofValue) := by
  cases r with
  | ok a => exact failsOnly_ok a
  | error d => exact failsOnly_error (Fault.isOfArgument_ofValue d)

theorem failsOnly_checkUrl (url : Json) (name : String) :
    FailsOnly Fault.IsOfArgument (checkUrl url name) := by
  unfold checkUrl
  split
  · exact failsOnly_error (.inl trivial)
  · refine failsOnly_bind (Field.failsOnly_isAbsolute fun d _ => .inl trivial) fun absolute _ => ?_
    split
    · exact failsOnly_ok _
    · exact failsOnly_error (.inl trivial)
  · exact failsOnly_error (.inl trivial)

theorem failsOnly_putSome (b : DraftBook) (name : String) (v : Option Value) :
    FailsOnly Fault.IsOfArgument (putSome b name v) := by
  cases v with
  | none => exact failsOnly_ok b
  | some v => exact failsOnly_ofValue _

theorem failsOnly_orderClaims (identifiers : Value) (notBefore notAfter : Option Value) :
    FailsOnly Fault.IsOfArgument (Client.orderClaims identifiers notBefore notAfter) :=
  failsOnly_bind (failsOnly_ofValue _) fun _ _ =>
    failsOnly_bind (failsOnly_ofValue _) fun _ _ =>
      failsOnly_bind (failsOnly_putSome _ _ _) fun _ _ => failsOnly_putSome _ _ _

theorem failsOnly_ofGiven (reason : Json) :
    FailsOnly Fault.IsOfArgument (RevocationReason.ofGiven reason) := by
  refine failsOnly_bind ?_ fun n _ => ?_
  · unfold RevocationReason.toNumber
    split
    · exact failsOnly_ok _
    · exact failsOnly_ok _
    · unfold RevocationReason.truncate
      split
      · exact failsOnly_ok _
      · exact failsOnly_error (.inr trivial)
      · exact failsOnly_error (.inl trivial)
    · split
      · exact failsOnly_ok _
      · exact failsOnly_error (.inl trivial)
    · exact failsOnly_error (.inl trivial)
  · unfold RevocationReason.ofCode
    split
    · exact failsOnly_ok _
    · exact failsOnly_error (.inl trivial)

/-- Whether claims list members, if they say anything. -/
def Claims.isListed : Claims → Bool
  | .unlisted _ => false
  | _ => true

theorem failsOnly_payload {claims : Claims} (h : claims.isListed = true) :
    FailsOnly Fault.IsOfArgument claims.payload := by
  have htext : FailsOnly Fault.IsOfArgument claims.text := by
    cases claims with
    | nothing => exact failsOnly_ok _
    | draft b => exact failsOnly_ofValue _
    | members ms => exact failsOnly_ofValue _
    | unlisted kind => cases h
  rw [Claims.payload]
  cases ht : claims.text with
  | error e => exact failsOnly_error (htext e ht)
  | ok text => exact failsOnly_ok _

theorem failsOnly_ofKey (k : Key) : FailsOnly Fault.IsOfArgument (Algorithm.ofKey k) := by
  unfold Algorithm.ofKey
  split
  · exact failsOnly_ok _
  · split
    · exact failsOnly_ok _
    · exact failsOnly_error (.inl trivial)
  · exact failsOnly_error (.inl trivial)

namespace Operation

variable {s : Session} {o : Operation} {errands : List Errand} {e : Fault}

/-- Whether nothing but an argument is in the way of an operation: claims list members, and a key
that is to be changed is there, as is the location of its account. -/
def isReady (s : Session) : Operation → Bool
  | .onConnection _ (.sendSigned _ claims _ _) => claims.isListed
  | .onResource r (.changeKey _) => r.location.isSome && s.key.isSome
  | _ => true

/-- An argument is refused with a fault of arguments. -/
theorem isOfArgument_of_refuses (hready : o.isReady s = true) (h : o.Refuses s errands e) :
    e.IsOfArgument := by
  cases h with
  | login h => exact failsOnly_checkUrl _ _ _ h
  | bind h => exact failsOnly_checkUrl _ _ _ h
  | order h => exact failsOnly_orderClaims _ _ _ _ h
  | request h => exact Fault.isOfArgument_ofForm _
  | reason _ h => exact failsOnly_ofGiven _ _ h
  | reasonOf _ h => exact failsOnly_ofGiven _ _ h
  | signingKey _ _ h => exact failsOnly_ofKey _ _ h
  | claims _ h => exact failsOnly_payload hready _ h
  | unplaced hlocation h =>
    rw [isReady, hlocation] at hready
    cases hready
  | keyless _ hkey h =>
    rw [isReady, hkey, Option.isSome_none, Bool.and_false] at hready
    cases hready
  | newKey _ _ h => exact failsOnly_ofKey _ _ h
  | certificateKey _ h => exact failsOnly_ofKey _ _ h

def signingKey? : Operation → Option Key
  | .onConnection _ (.sendSigned _ _ signing _) => signing.key
  | .onResource _ (.changeKey newKey) => some newKey
  | .revoke _ _ key => key
  | _ => none

/-- A key without an algorithm is refused in every session. -/
theorem refuses_key {key : Key} {e : Fault} (hkey : o.signingKey? = some key)
    (h : Algorithm.ofKey key = .error e) (s : Session) : ∃ errands e', o.Refuses s errands e' := by
  cases o with
  | onConnection connection o =>
    cases o with
    | sendSigned url claims signing wanted =>
      have hsigning : signing.key.or s.key = some key := by
        rw [show signing.key = some key from hkey]
        rfl
      cases hp : claims.payload with
      | error e' => exact ⟨_, _, .claims hsigning hp⟩
      | ok payload => exact ⟨_, _, .signingKey hp hsigning h⟩
    | _ => cases hkey
  | onResource r o =>
    cases o with
    | changeKey newKey =>
      cases hkey
      cases hlocation : r.location with
      | none => exact ⟨_, _, .unplaced hlocation h⟩
      | some location =>
        cases hold : s.key with
        | none => exact ⟨_, _, .keyless hlocation hold h⟩
        | some oldKey => exact ⟨_, _, .newKey hlocation hold h⟩
    | _ => cases hkey
  | revoke cert reason given =>
    cases hkey
    cases hb : Client.revocationClaims cert reason with
    | error e' =>
      obtain ⟨hreason, hgiven⟩ := Client.revocationClaims_eq_error.1 hb
      exact ⟨_, _, .reason hreason hgiven⟩
    | ok b => exact ⟨_, _, .certificateKey hb h⟩
  | _ => cases hkey

/-- An order with an instant without an offset is refused. -/
theorem refuses_naive {identifiers : Value} {notBefore notAfter : Option Value}
    {t : Calendar.Instant} (ht : t.offset = none)
    (h : notBefore = some (.instant t) ∨ notAfter = some (.instant t)) :
    ∃ e, (newOrder identifiers notBefore notAfter).Refuses s [] e := by
  have hput : ∀ b name, putSome b name (some (.instant t)) = .error (.argument (.noOffset t)) := by
    intro b name
    have hstamp : Value.stamp t = .error (.noOffset t) := by simp [Value.stamp, ht]
    have hdraft : b.put 0 name (.instant t) = .error (.noOffset t) := by
      rw [DraftBook.put, Value.convert, hstamp]
      rfl
    rw [putSome, putValue, hdraft]
    rfl
  obtain ⟨e, he⟩ : ∃ e, Client.orderClaims identifiers notBefore notAfter = .error e := by
    rcases horder : Client.orderClaims identifiers notBefore notAfter with e | b
    · exact ⟨e, rfl⟩
    · obtain ⟨items, -, horder⟩ := bind_eq_ok.1 horder
      obtain ⟨b₁, -, horder⟩ := bind_eq_ok.1 horder
      obtain ⟨b₂, hbefore, hafter⟩ := bind_eq_ok.1 horder
      obtain rfl | rfl := h
      · rw [hput] at hbefore
        cases hbefore
      · rw [hput] at hafter
        cases hafter
  exact ⟨e, .order he⟩

end Operation

/-! ### What refusals leave alone -/

/-- **Arguments are refused after errands.** An operation that refuses an argument does its errands
and fails, with the fault of the argument if they succeed and nothing else is in its way. Most have
none, and leave the client as it was. No operation that refuses an argument returns, or touches the
key, the account or the settings of the session, and unless it asks for a certificate it sends
nothing that is signed. -/
theorem Operation.fails_after_errands (env : Environment) (c : Client) {o : Operation}
    {errands : List Errand} {e : Fault} (h : o.Refuses c.session errands e) :
    o.act.run env c = (Errand.failing errands e).run env c ∧
      (errands = [] → o.act.run env c = (.error e, c)) ∧
      (∃ e', (o.act.run env c).1 = .error e') ∧
      (o.isReady c.session = true → e.IsOfArgument) ∧
      c.SameProfile (o.act.run env c).2 ∧
      ((∀ x ∈ errands, x.isUnsigned = true) → c.Inquires (o.act.run env c).2) := by
  have hrun : o.act.run env c = (Errand.failing errands e).run env c := run_of_refuses h
  rw [hrun]
  refine ⟨rfl, ?_, Errand.error_of_failing env c errands e,
    fun hready => isOfArgument_of_refuses hready h, ?_, ?_⟩
  · rintro rfl
    rfl
  · exact (Errand.relates_failing fun x _ => x.keeps_act).run Client.SameProfile.refl
      Client.SameProfile.trans env c
  · intro hx
    exact (Errand.relates_failing fun x hmem => Errand.inquires_act (hx x hmem)).run
      Client.Inquires.refl Client.Inquires.trans env c

/-- A server with a directory that lists the endpoint for nonces. -/
def listingServer : Server := fun sent =>
  match sent.getLast?.map Request.method with
  | some .get => .response ⟨200, none, ⟨[]⟩,
      Text.Utf8.encode "\x7b\"newNonce\": \"https://acme.test/nonce\"\x7d"⟩
  | _ => .response ⟨200, none, ⟨[("Replay-Nonce", "AAAA")]⟩, []⟩

def secretRequest : Operation :=
  .onConnection .idle
    (.sendSigned "https://acme.test/x" .nothing ⟨some (.secret [0, 0, 0]), true⟩ Exchange.jsonType)

theorem Operation.fails_after_errands_secret :
    let env : Environment := ⟨listingServer, fun _ => ⟨0, some 0⟩⟩
    let c := Client.ofSession .sample
    let e : Fault := .argument (.keyKind (Key.secret [0, 0, 0]).kindName)
    secretRequest.Refuses c.session [.nonce] e ∧
      (∃ e', (secretRequest.act.run env c).1 = .error e') ∧ e.IsOfArgument ∧
      c.Inquires (secretRequest.act.run env c).2 ∧
      (secretRequest.act.run env c).2.sent.map Request.method = [.get, .head] := by
  intro env c e
  have hrefuses : secretRequest.Refuses c.session [.nonce] e := .signingKey rfl rfl rfl
  obtain ⟨-, -, hfails, hargument, -, hinquires⟩ := fails_after_errands env c hrefuses
  refine ⟨hrefuses, hfails, hargument rfl, hinquires ?_, by decide +kernel⟩
  intro x hx
  rw [List.mem_singleton.1 hx]
  rfl

end AcmeClient
