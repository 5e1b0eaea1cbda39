import AcmeClient.Proofs.AllOrNothing
import AcmeClient.Proofs.Frame

/-!
# Key and account of a session

A session signs with a key in the name of an account. Logging in and creating an account name the
account, logging in and changing the key give the key; they do so in their last step, after which
nothing can fail. Everything else leaves both alone:

* `Call` — what may be asked of a session and its resources, apart from setting an attribute;
* `Call.account?` and `Call.newKey?` — the account and the key that a call names when it succeeds;
* `Call.profile_run` — after a call the session has the account and the key that the call named,
  and everything else as before;
* `Client.calls_keep_identity` — what runs of calls leave alone, and where account and key come
  from.
-/

namespace AcmeClient

open Act

/-! ### Calls -/

/-- Whether an operation sets the attributes of the session. -/
def Operation.isAssignment : Operation → Bool
  | .assign .. => true
  | _ => false

/-- What may be asked of a session and its resources: an operation, unless it sets attributes, or
to keep a nonce. -/
inductive Call where
  | operation (o : Operation) (h : o.isAssignment = false) : Call
  | offerNonce (text : String) : Call

namespace Call

def act : Call → Act Client Unit
  | .operation o _ => o.act
  | .offerNonce text => Client.offerNonce text

/-- The account that a call names when it succeeds: the URL of a login, or the location of the
account that was created. -/
def account? (env : Environment) (c : Client) : Call → Option String
  | .operation (.login url key) _ =>
      ((Client.login url key).run env c).1.toOption.bind fun _ => url.string?
  | .operation (.createAccount w) _ =>
      ((Client.createAccount w).run env c).1.toOption.bind fun r => r.location
  | _ => none

/-- The key that a call names when it succeeds: that of a login, if there is one, or the new key of
an account. -/
def newKey? (env : Environment) (c : Client) : Call → Option Key
  | .operation (.login url key) _ =>
      ((Client.login url key).run env c).1.toOption.bind fun _ => key
  | .operation (.onResource r (.changeKey newKey)) _ =>
      ((within r (Loading.changeKey newKey)).run env c).1.toOption.bind fun _ => some newKey
  | _ => none

end Call

def Client.afterCalls (env : Environment) (c : Client) (calls : List Call) : Client :=
  calls.foldl (fun c x => (x.act.run env c).2) c

namespace Session

/-- A session with another account and another key, where they are named. -/
def naming (s : Session) (account : Option String) (newKey : Option Key) : Session :=
  { s with kid := account.or s.kid, key := newKey.or s.key }

/-- What is set when a session is made, apart from key and account: the URLs of the server and of
its directory, and the options of the transport. -/
def settings (s : Session) : Session :=
  { s.profile with kid := none, key := none }

end Session

/-! ### What is given to a resource that is made -/

/-- A URL that passes is an absolute one. -/
theorem checkUrl_eq_ok {url : Json} {name u : String} :
    checkUrl url name = .ok u ↔ url = .string u ∧ isAbsolute u = .ok true := by
  cases url with
  | string s =>
    have hrun : checkUrl (.string s) name = (isAbsolute s).bind fun absolute =>
        if absolute then .ok s else .error (.argument (.notAbsolute name s)) := rfl
    rw [hrun, Json.string.injEq]
    constructor
    · intro h
      cases ha : isAbsolute s with
      | error e =>
        rw [ha] at h
        cases h
      | ok absolute =>
        rw [ha] at h
        cases absolute with
        | true =>
          cases h
          exact ⟨rfl, ha⟩
        | false => cases h
    · rintro ⟨rfl, ha⟩
      rw [ha]
      rfl
  | _ => simp [checkUrl]

namespace Resource

/-- A resource at an absolute URL can be made. -/
theorem make_of_isAbsolute {u : String} (kind : ResourceKind) (hu : isAbsolute u = .ok true) :
    make kind (.string u) none = .ok ⟨kind, some u, [], none⟩ := by
  have hbind := bindTo_of_isAbsolute (r := ⟨kind, none, [], none⟩) rfl hu
  simp only [make, hbind, ok_bind, ok_eq_pure]

/-- A document names no URL to a resource that has a location. -/
theorem urlFor_of_located {r : Resource} {u : String} (hr : r.location = some u) (ms : Members) :
    r.urlFor ms = .ok none := by
  obtain ⟨kind, location, body, retryAfter⟩ := r
  cases hr
  cases kind <;> rfl

/-- A resource with a location takes every document that its kind does not refuse. -/
theorem load_of_located {r : Resource} {u : String} (hr : r.location = some u) (ms : Members) :
    r.load ms = (r.kind.check ms).map fun _ => { r with body := ms } := by
  have hurl : r.urlFor ms = .ok none := urlFor_of_located hr ms
  cases hc : r.kind.check ms with
  | error e => simp [load, hurl, hc, Except.map]
  | ok _ => simp [load, hurl, hc, Except.map]

/-- A document does not move a resource that has a location. -/
theorem location_of_load {r r' : Resource} {ms : Members} {u : String} (hr : r.location = some u)
    (h : r.load ms = .ok r') : r'.location = some u := by
  rw [load_of_located hr] at h
  cases hc : r.kind.check ms with
  | error e =>
    rw [hc] at h
    cases h
  | ok _ =>
    rw [hc] at h
    cases h
    exact hr

/-- A resource that is made from a document at a URL has it for its location. -/
theorem location_of_make {kind : ResourceKind} {u : String} {ms : Members} {r : Resource}
    (h : make kind (.string u) (some ms) = .ok r) : r.location = some u := by
  cases hb : bound kind.name none (.string u) with
  | error e => simp [make, bindTo, hb] at h
  | ok v =>
    have hv : v = u := by
      cases hc : checkUrl (.string u) "location" with
      | error e => simp [bound, hc] at hb
      | ok w =>
        simp only [bound, hc, ok_bind, ok_eq_pure, Except.ok.injEq] at hb
        rw [← hb]
        exact (Json.string.inj (checkUrl_eq_ok.1 hc).1).symm
    simp only [make, bindTo, hb, ok_bind, ok_eq_pure] at h
    exact location_of_load (congrArg some hv) h

end Resource

/-- A resource that was created has the location that the answer names. -/
theorem Exchange.location_of_created {env : Environment} {kind : ResourceKind} {name : String}
    {r : Resource} {s s' : Client × Connection}
    (h : (Exchange.created kind name).run env s = (.ok r, s')) : ∃ u, r.location = some u := by
  obtain ⟨named, s₁, -, h⟩ := (run_bind_eq_ok env).1 h
  cases named with
  | none => cases h
  | some u =>
    obtain ⟨ms, s₂, -, h⟩ := (run_bind_eq_ok env).1 h
    exact ⟨u, Resource.location_of_make (Prod.ext_iff.1 h).1⟩

/-! ### The acts that name an account or a key -/

namespace Act

variable {α β : Type} {env : Environment} {c : Client} {account : α → Option String}
  {newKey : α → Option Key}

/-- Whether an act that succeeds names an account and a key, as its result says, and one that fails
leaves the profile alone. -/
def Names (x : Act Client α) (env : Environment) (c : Client) (account : α → Option String)
    (newKey : α → Option Key) : Prop :=
  (x.run env c).2.session.profile = c.session.profile.naming
    ((x.run env c).1.toOption.bind account) ((x.run env c).1.toOption.bind newKey)

theorem names_throw (e : Fault) : (throw e : Act Client α).Names env c account newKey :=
  rfl

/-- Nothing follows a failure. -/
theorem names_throw_bind (e : Fault) (y : β → Act Client α) :
    ((throw e : Act Client β) >>= y).Names env c account newKey :=
  rfl

/-- What follows an act that leaves the profile alone names all that is named. -/
theorem names_bind {x : Act Client β} {y : β → Act Client α}
    (hx : x.Relates Client.SameProfile id)
    (hy : ∀ b c', x.run env c = (.ok b, c') → (y b).Names env c' account newKey) :
    (x >>= y).Names env c account newKey := by
  have hsame : (x.run env c).2.session.profile = c.session.profile :=
    hx.run Client.SameProfile.refl Client.SameProfile.trans env c
  rw [Names, run_bind]
  rcases hrun : x.run env c with ⟨_ | b, c₁⟩
  · rw [hrun] at hsame
    exact hsame
  · rw [hrun] at hsame
    have hnames := hy b c₁ hrun
    rw [Names, hsame] at hnames
    exact hnames

/-- An act gives no result when it fails without it. -/
theorem toOption_of_discard {x : Act Client α} {e : Fault}
    (h : (((do let _ ← x) : Act Client Unit).run env c).1 = .error e) :
    (x.run env c).1.toOption = none := by
  rw [run_discard] at h
  rcases hrun : (x.run env c).1 with e' | a
  · rfl
  · rw [hrun] at h
    cases h

end Act

namespace Client

variable (env : Environment) (c : Client)

theorem relates_getSession : getSession.Relates SameProfile id :=
  admits_profile.relates_of_isReading isReading_getSession

/-- A login names its URL, and its key if it has one. -/
theorem names_login (url : Json) (key : Option Key) :
    (login url key).Names env c (fun _ => url.string?) (fun _ => key) := by
  refine names_bind (keeps_lift _) fun u c' hu => ?_
  obtain ⟨rfl, habsolute⟩ := checkUrl_eq_ok.1 (Prod.ext_iff.1 hu).1
  -- the URL has been checked, so that the resource can be made
  rw [Resource.make_of_isAbsolute .account habsolute]
  rfl

/-- The creation of an account names its location. -/
theorem names_createAccount (w : AccountWishes) :
    (createAccount w).Names env c (fun r => r.location) (fun _ => none) := by
  refine names_bind relates_getSession fun session c₁ _ => ?_
  split
  · exact names_throw_bind _ _
  · refine names_bind (keeps_lift _) fun b c₂ _ => ?_
    refine names_bind (Discipline.serves_profile.keeps_registered b) fun r c₃ hr => ?_
    obtain ⟨connection, hr⟩ := run_connected_eq_ok.1 hr
    obtain ⟨url, s₁, -, hr⟩ := (run_bind_eq_ok env).1 hr
    obtain ⟨status, s₂, -, hr⟩ := (run_bind_eq_ok env).1 hr
    obtain ⟨accepted, s₃, -, hr⟩ := (run_bind_eq_ok env).1 hr
    obtain ⟨u, hu⟩ := Exchange.location_of_created hr
    show ({ c₃.session with kid := r.location } : Session).profile
      = c₃.session.profile.naming r.location none
    rw [hu]
    rfl

/-- The change of a key names the new one. -/
theorem names_changeKey (location : String) (newKey : Key) :
    (changeKey location newKey).Names env c (fun _ => none) (fun _ => some newKey) := by
  refine names_bind (Discipline.serves_profile.keeps_endpointUrl _) fun url c₁ _ => ?_
  refine names_bind relates_getSession fun session c₂ _ => ?_
  split
  · exact names_throw _
  · refine names_bind (keeps_lift _) fun inner c₃ _ => ?_
    exact names_bind (Discipline.serves_profile.keeps_accepted _ _ _) fun _ c₄ _ => rfl

/-- So does the change of the key of an account that is given. -/
theorem names_changeKeyOf (r : Resource) (newKey : Key) :
    (within r (Loading.changeKey newKey)).Names env c (fun _ => none) (fun _ => some newKey) := by
  have hrequire : Loading.requireLocation.run env (c, r)
      = (locationOf r.kind.name r.location, (c, r)) := rfl
  rw [Names, run_within, Loading.changeKey, run_bind, hrequire]
  cases locationOf r.kind.name r.location with
  | error e => rfl
  | ok location =>
    dsimp only
    rw [run_onFirst]
    exact names_changeKey env c location newKey

/-- Keeping a nonce leaves the profile alone. -/
theorem profile_offerNonce (text : String) :
    ((offerNonce text).run env c).2.session.profile = c.session.profile := by
  rw [offerNonce, run_bind, run_lift]
  cases decodeHeaderNonce text with
  | error e => rfl
  | ok token => rfl

end Client

/-! ### What calls change -/

namespace Call

variable (env : Environment) (c : Client)

/-- An operation that leaves key and account alone keeps the profile and names nothing. -/
theorem profile_unchanging {o : Operation} (ho : o.changesIdentity = false)
    (h : o.isAssignment = false) :
    (o.act.run env c).2.session.profile = c.session.profile.naming
      ((operation o h).account? env c) ((operation o h).newKey? env c) := by
  have hfollows : o.act.Follows ((Discipline.related Client.SameProfile).onto id)
      (fun _ _ => True) () :=
    Discipline.serves_profile.follows_unchanging ho trivial
  have hsame : (o.act.run env c).2.session.profile = c.session.profile :=
    related_run Client.SameProfile.refl Client.SameProfile.trans hfollows env c
  have haccount : (operation o h).account? env c = none := by
    cases o with
    | login | createAccount => cases ho
    | _ => rfl
  have hkey : (operation o h).newKey? env c = none := by
    cases o with
    | login => cases ho
    | onResource r o =>
      cases o with
      | changeKey newKey => cases ho
      | load | bindTo | respond | orders => rfl
    | _ => rfl
  rw [haccount, hkey, hsame]
  rfl

/-- After a call the session has the account and the key that the call named, and everything else
as before. -/
theorem profile_run (x : Call) :
    (x.act.run env c).2.session.profile
      = c.session.profile.naming (x.account? env c) (x.newKey? env c) := by
  cases x with
  | offerNonce text => exact Client.profile_offerNonce env c text
  | operation o h =>
    cases ho : o.changesIdentity with
    | false => exact profile_unchanging env c ho h
    | true =>
      cases o with
      | assign => cases h
      | login url key =>
        have hnames := Client.names_login env c url key
        rw [act, Operation.act, run_discard]
        exact hnames
      | createAccount w =>
        have hnames := Client.names_createAccount env c w
        rw [Names, Option.bind_fun_none] at hnames
        rw [act, Operation.act, run_discard]
        exact hnames
      | onResource r o =>
        cases o with
        | changeKey newKey =>
          have hnames := Client.names_changeKeyOf env c r newKey
          rw [Names, Option.bind_fun_none] at hnames
          exact hnames
        | load | bindTo | respond | orders => cases ho
      | directory | endpointUrl | takeNonce | newOrder | preAuthorize | bind | revoke | onConnection
        | onCertificate => cases ho

/-- A call that fails names nothing. -/
theorem names_nothing_of_error {x : Call} {e : Fault} (h : (x.act.run env c).1 = .error e) :
    x.account? env c = none ∧ x.newKey? env c = none := by
  cases x with
  | offerNonce text => exact ⟨rfl, rfl⟩
  | operation o hassign =>
    cases o with
    | login url key =>
      have hnone := toOption_of_discard (x := Client.login url key) h
      rw [account?, newKey?, hnone]
      exact ⟨rfl, rfl⟩
    | createAccount w =>
      have hnone := toOption_of_discard (x := Client.createAccount w) h
      rw [account?, hnone]
      exact ⟨rfl, rfl⟩
    | onResource r o =>
      cases o with
      | changeKey newKey =>
        have herror : ((within r (Loading.changeKey newKey)).run env c).1 = .error e := h
        rw [newKey?, herror]
        exact ⟨rfl, rfl⟩
      | load | bindTo | respond | orders => exact ⟨rfl, rfl⟩
    | _ => exact ⟨rfl, rfl⟩

/-- Whether a call that starts from a client leaves the settings alone, changes the account and the
key to what it names only, and changes neither when it fails. -/
structure KeepsIdentity (x : Call) : Prop where
  settings : (x.act.run env c).2.session.settings = c.session.settings
  kid : (x.act.run env c).2.session.kid = (x.account? env c).or c.session.kid
  key : (x.act.run env c).2.session.key = (x.newKey? env c).or c.session.key
  failing : ∀ e, (x.act.run env c).1 = .error e →
    (x.act.run env c).2.session.kid = c.session.kid ∧
      (x.act.run env c).2.session.key = c.session.key

end Call

namespace Session

variable {s s' : Session} {account : Option String} {newKey : Option Key}

theorem settings_of_naming (h : s'.profile = s.profile.naming account newKey) :
    s'.settings = s.settings :=
  congrArg (fun p : Session => { p with kid := none, key := none }) h

theorem kid_of_naming (h : s'.profile = s.profile.naming account newKey) :
    s'.kid = account.or s.kid :=
  congrArg Session.kid h

theorem key_of_naming (h : s'.profile = s.profile.naming account newKey) :
    s'.key = newKey.or s.key :=
  congrArg Session.key h

/-- What is named later takes the place of what was named before. -/
theorem naming_naming (s : Session) (account account' : Option String)
    (newKey newKey' : Option Key) :
    (s.naming account newKey).naming account' newKey'
      = s.naming (account'.or account) (newKey'.or newKey) := by
  simp only [naming, Option.or_assoc]

end Session

/-- Every call keeps the identity of the session. -/
theorem Call.keepsIdentity (env : Environment) (c : Client) (x : Call) :
    x.KeepsIdentity env c := by
  have hprofile := x.profile_run env c
  refine ⟨Session.settings_of_naming hprofile, Session.kid_of_naming hprofile,
    Session.key_of_naming hprofile, fun e he => ?_⟩
  obtain ⟨haccount, hkey⟩ := names_nothing_of_error env c he
  rw [haccount, hkey] at hprofile
  exact ⟨Session.kid_of_naming hprofile, Session.key_of_naming hprofile⟩

/-! ### Runs of calls -/

namespace Client

/-- The account that the calls of a run named last. -/
def lastAccount? (env : Environment) : Client → List Call → Option String
  | _, [] => none
  | c, x :: rest => (lastAccount? env (x.act.run env c).2 rest).or (x.account? env c)

/-- The key that the calls of a run named last. -/
def lastKey? (env : Environment) : Client → List Call → Option Key
  | _, [] => none
  | c, x :: rest => (lastKey? env (x.act.run env c).2 rest).or (x.newKey? env c)

/-- After a run the session has the account and the key that were named last. -/
theorem profile_afterCalls (env : Environment) (c : Client) (calls : List Call) :
    (c.afterCalls env calls).session.profile
      = c.session.profile.naming (lastAccount? env c calls) (lastKey? env c calls) := by
  induction calls generalizing c with
  | nil => rfl
  | cons x rest ih =>
    have hrest := ih (x.act.run env c).2
    rw [x.profile_run env c, Session.naming_naming] at hrest
    exact hrest

/-- **Key and account are changed by name only.** Whatever the server answers and whichever calls
fail, the settings of a session stay what they were; its account is the one that the last
successful login or creation of an account named, and its key the one of the last successful login
with a key or change of the key. Each call of the run leaves the settings alone, changes account
and key to what it names only, and leaves both as they were when it fails. -/
theorem calls_keep_identity (env : Environment) (c : Client) (calls : List Call) :
    (c.afterCalls env calls).session.settings = c.session.settings ∧
    (c.afterCalls env calls).session.kid = (lastAccount? env c calls).or c.session.kid ∧
    (c.afterCalls env calls).session.key = (lastKey? env c calls).or c.session.key ∧
    ∀ before x after, calls = before ++ x :: after →
      x.KeepsIdentity env (c.afterCalls env before) := by
  have hprofile := profile_afterCalls env c calls
  exact ⟨Session.settings_of_naming hprofile, Session.kid_of_naming hprofile,
    Session.key_of_naming hprofile,
    fun before x after _ => x.keepsIdentity env (c.afterCalls env before)⟩

end Client

end AcmeClient
