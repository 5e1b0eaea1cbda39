import AcmeClient.Proofs.Refusals
import AcmeClient.Proofs.Retry
import Mathlib.Data.List.DropRight

/-!
# Calls on a connection

What a call gives back, and what it leaves on the connection, are told by the kind of the call:

* `ConnectionOperation.report` — a call with what it gives back;
* `ConnectionOperation.isRead` and `Exchange.reads_report` — a call that reads leaves the connection
  as it is, or keeps an instant that it tells for the first time;
* `Client.issued` — the requests on record up to the last one that a call issued itself;
* `Exchange.Speaks` and `Exchange.speaks_report` — a call that sends leaves the connection as it is
  if it issues nothing, and otherwise with what it heard last.
-/

namespace AcmeClient

open Act Calendar

/-! ### What calls give back -/

/-- What a call on a connection gives back. -/
inductive Report where
  | status (n : Int) : Report
  | token (bs : List UInt8) : Report
  | document (ms : Members) : Report
  | certificates (cs : List X509.Certificate) : Report
  | urls (us : List String) : Report
  | text (s : Option String) : Report
  | instant (t : Option Instant) : Report
  | nothing : Report

namespace ConnectionOperation

def report : ConnectionOperation → Exchange Report
  | .sendPlain url wanted => do return .status (← Exchange.sendPlain url wanted)
  | .sendSigned url claims signing wanted => do
      return .status (← Exchange.sendSigned url claims signing wanted)
  | .fetchNonce url => do return .token (← Exchange.fetchNonce url)
  | .accept codes => do return .status (← Exchange.accept codes)
  | .readJson => do return .document (← Exchange.readJson)
  | .readCertificates => do return .certificates (← Exchange.readCertificates)
  | .links relation => do return .urls (← Exchange.links relation)
  | .location => do return .text (← Exchange.location)
  | .retryAfter => do return .instant (← Exchange.retryAfter)
  | .refuseEarly message => do
      Exchange.refuseEarly message
      return .nothing
  | .nonce => do return .text (← Exchange.nonce)
  | .close => do
      Exchange.close
      return .nothing

def isRead : ConnectionOperation → Bool
  | .accept _ | .readJson | .readCertificates | .links _ | .location | .retryAfter
  | .refuseEarly _ | .nonce => true
  | .sendPlain .. | .sendSigned .. | .fetchNonce _ | .close => false

def isClose : ConnectionOperation → Bool
  | .close => true
  | _ => false

/-- The instant to come back at that an operation tells, which one of them does by failing. -/
def told : ConnectionOperation → Except Fault Report → Option Instant
  | .retryAfter, .ok (.instant t) => t
  | .refuseEarly _, .error (.retryAfter _ t) => some t
  | _, _ => none

def target? : ConnectionOperation → Option (Method × String)
  | .sendPlain url _ => some (.get, url)
  | .sendSigned url .. => some (.post, url)
  | .fetchNonce url => some (.head, url)
  | _ => none

variable {o : ConnectionOperation}

/-- What sends does not read. -/
theorem quiet_of_target? {target : Method × String} (ho : o.target? = some target) :
    o.isClose = false ∧ ∀ result, o.told result = none := by
  cases o with
  | sendPlain | sendSigned | fetchNonce => exact ⟨rfl, fun _ => rfl⟩
  | accept | readJson | readCertificates | links | location | retryAfter | refuseEarly | nonce
  | close => cases ho

/-- What reads does not send. -/
theorem quiet_of_isRead (ho : o.isRead = true) : o.target? = none ∧ o.isClose = false := by
  cases o with
  | sendPlain | sendSigned | fetchNonce | close => cases ho
  | accept | readJson | readCertificates | links | location | retryAfter | refuseEarly | nonce =>
    exact ⟨rfl, rfl⟩

end ConnectionOperation

/-! ### Calls that read -/

namespace Exchange

theorem leaves_lift {α : Type} (r : Except Fault α) : (liftM r : Exchange α).Leaves Prod.snd :=
  moves_lift (fun _ => rfl) r

theorem leaves_held : held.Leaves Prod.snd :=
  fun _ _ => rfl

theorem leaves_links (relation : String) : (links relation).Leaves Prod.snd := by
  refine leaves_bind (fun _ _ => rfl) fun c => leaves_bind (leaves_lift _) fun r => ?_
  split
  · exact fun _ _ => rfl
  · exact leaves_mapM (fun _ => leaves_lift _) _

theorem leaves_refusalInstant (r : Response) : (refusalInstant r).Leaves Prod.snd := by
  unfold refusalInstant
  split
  · exact fun _ _ => rfl
  · refine leaves_bind (moves_onFirst_snd (fun _ => rfl) _) fun now => ?_
    split
    · exact fun _ _ => rfl
    · exact fun _ _ => rfl
    · exact fun _ _ => rfl

theorem leaves_rejectionKind (r : Response) (code : Option String) :
    (rejectionKind r code).Leaves Prod.snd := by
  unfold rejectionKind
  split
  · exact leaves_bind (leaves_refusalInstant r) fun _ _ _ => rfl
  · exact fun _ _ => rfl
  · exact leaves_bind (leaves_links _) fun _ _ _ => rfl
  · exact fun _ _ => rfl

theorem leaves_rejection (r : Response) : (rejection r).Leaves Prod.snd := by
  have hproblem : readProblem.Leaves Prod.snd :=
    leaves_bind (fun _ _ => rfl) fun _ => leaves_bind (leaves_lift _) fun _ _ _ => rfl
  refine leaves_bind hproblem fun p => ?_
  split
  · exact fun _ _ => rfl
  · exact leaves_bind (leaves_lift _) fun code =>
      leaves_bind (leaves_rejectionKind r code) fun _ _ _ => rfl

theorem leaves_accept (codes : List Int) : (accept codes).Leaves Prod.snd := by
  refine leaves_bind leaves_held fun r => ?_
  split
  · exact fun _ _ => rfl
  · exact leaves_bind (leaves_rejection r) fun _ _ _ => rfl

theorem leaves_readJson : readJson.Leaves Prod.snd := by
  refine leaves_bind (fun _ _ => rfl) fun c => leaves_bind (leaves_lift _) fun r => ?_
  by_cases h : r.content.isEmpty
  · rw [if_pos h]
    exact fun _ _ => rfl
  · rw [if_neg h]
    split
    · exact fun _ _ => rfl
    · exact fun _ _ => rfl

theorem leaves_readCertificates : readCertificates.Leaves Prod.snd :=
  leaves_bind leaves_held fun _ => leaves_lift _

theorem leaves_location : location.Leaves Prod.snd := by
  refine leaves_bind (fun _ _ => rfl) fun c => leaves_bind (leaves_lift _) fun r => ?_
  split
  · exact fun _ _ => rfl
  · exact leaves_bind (leaves_lift _) fun _ _ _ => rfl

theorem leaves_nonce : nonce.Leaves Prod.snd :=
  leaves_bind leaves_held fun _ _ _ => rfl

/-- What asking for the instant comes to: nothing is told and the connection stays as it is, or what
was kept is told again, or what the answer says at this reading of the clock is told and kept. -/
inductive Reads (env : Environment) (s : Client × Connection) :
    Option Instant → Connection → Prop where
  | quiet : Reads env s none s.2
  | again {r : Response} {t : Instant} : s.2.response = some r → s.2.retryAfter = some t →
      Reads env s (some t) s.2
  | first {r : Response} {t : Instant} : s.2.response = some r → s.2.retryAfter = none →
      r.advice (env.clock s.1.readings) = .ok (some t) →
      Reads env s (some t) { s.2 with retryAfter := some t }

variable {env : Environment} {s : Client × Connection}

/-- What is reported of a call is what it gives back. -/
theorem run_report {α : Type} (x : Exchange α) (f : α → Report) (env : Environment)
    (s : Client × Connection) :
    (do return f (← x) : Exchange Report).run env s = ((x.run env s).1.map f, (x.run env s).2) := by
  rw [run_bind]
  rcases x.run env s with ⟨_ | a, t⟩
  · rfl
  · rfl

/-- Where asking for the instant leads. -/
theorem retryAfter_cases (env : Environment) (s : Client × Connection) :
    (∃ c e, retryAfter.run env s = (.error e, (c, s.2)) ∧ ∀ message t, e ≠ .retryAfter message t) ∨
    retryAfter.run env s = (.ok none, s) ∨
    ∃ t c connection, retryAfter.run env s = (.ok (some t), (c, connection)) ∧
      Reads env s (some t) connection := by
  obtain ⟨c, response, url, kept⟩ := s
  cases response with
  | none => exact .inl ⟨c, _, rfl, by simp⟩
  | some r =>
    have hconnection : connection.run env (c, ⟨some r, url, kept⟩)
      = (.ok ⟨some r, url, kept⟩, (c, ⟨some r, url, kept⟩)) := rfl
    have hheld : (liftM (Connection.held ⟨some r, url, kept⟩) : Exchange Response).run env
      (c, ⟨some r, url, kept⟩) = (.ok r, (c, ⟨some r, url, kept⟩)) := rfl
    rw [retryAfter, run_bind_of_ok env hconnection, run_bind_of_ok env hheld]
    cases hr : r.headers.get? retryHeader with
    | none => exact .inr (.inl rfl)
    | some value =>
      cases kept with
      | some t => exact .inr (.inr ⟨t, c, _, rfl, .again rfl rfl⟩)
      | none =>
        have hnow : (onFirst Client.now : Exchange Instant).run env (c, ⟨some r, url, none⟩)
          = (.ok (env.clock c.readings),
            ({ c with readings := c.readings + 1 }, ⟨some r, url, none⟩)) := rfl
        dsimp only
        rw [run_bind_of_ok env hnow, run_bind, run_lift]
        rcases parse_cases value (env.clock c.readings) with ⟨t, hp⟩ | ⟨d, hp⟩ | ⟨d, hp⟩
        · rw [hp]
          have hadvice : r.advice (env.clock c.readings) = .ok (some t) := by
            rw [Response.advice, hr]
            exact congrArg (Except.map some) hp
          exact .inr (.inr ⟨t, _, _, rfl, .first rfl rfl hadvice⟩)
        · rw [hp]
          exact .inl ⟨_, _, rfl, by simp⟩
        · rw [hp]
          exact .inl ⟨_, _, rfl, by simp⟩

/-- A call that reads tells an instant as it was kept, or keeps the one that it tells. -/
theorem reads_report {o : ConnectionOperation} (ho : o.isRead = true) (env : Environment)
    (s : Client × Connection) :
    Reads env s (o.told (o.report.run env s).1) (o.report.run env s).2.2 := by
  have hquiet : ∀ {α : Type} {x : Exchange α} (f : α → Report), x.Leaves Prod.snd →
      Reads env s none ((do return f (← x) : Exchange Report).run env s).2.2 := by
    intro α x f hx
    rw [run_report, ← hx env s]
    exact .quiet
  cases o with
  | sendPlain | sendSigned | fetchNonce | close => cases ho
  | accept codes => exact hquiet _ (leaves_accept codes)
  | readJson => exact hquiet _ leaves_readJson
  | readCertificates => exact hquiet _ leaves_readCertificates
  | links relation => exact hquiet _ (leaves_links relation)
  | location => exact hquiet _ leaves_location
  | nonce => exact hquiet _ leaves_nonce
  | retryAfter =>
    rw [ConnectionOperation.report, run_report]
    rcases retryAfter_cases env s with ⟨c, e, hrun, -⟩ | hrun | ⟨t, c, connection, hrun, hreads⟩
    · rw [hrun]
      exact .quiet
    · rw [hrun]
      exact .quiet
    · rw [hrun]
      exact hreads
  | refuseEarly message =>
    rw [ConnectionOperation.report, refuseEarly]
    rcases retryAfter_cases env s with ⟨c, e, hrun, he⟩ | hrun | ⟨t, c, connection, hrun, hreads⟩
    · rw [bind_assoc, run_bind_of_error env hrun]
      have htold : (ConnectionOperation.refuseEarly message).told (.error e) = none := by
        cases e with
        | retryAfter message t => exact absurd rfl (he message t)
        | _ => rfl
      rw [htold]
      exact .quiet
    · rw [bind_assoc, run_bind_of_ok env hrun]
      exact .quiet
    · rw [bind_assoc, run_bind_of_ok env hrun]
      exact hreads

/-- Nothing is read from a connection that holds no answer. -/
theorem report_of_nothing {o : ConnectionOperation} (ho : o.isRead = true) (env : Environment)
    (c : Client) {connection : Connection} (h : connection.response = none) :
    (o.report.run env (c, connection)).1 = .error (.usage .nothingSent) := by
  obtain ⟨response, url, kept⟩ := connection
  cases h
  cases o with
  | sendPlain | sendSigned | fetchNonce | close => cases ho
  | accept | readJson | readCertificates | links | location | retryAfter | refuseEarly
  | nonce => rfl

end Exchange

/-! ### Calls that send -/

/-- The requests on record up to the last one that a call sent in this way, if it sent any. What a
signed request sends for its nonce goes out on other connections, and is not signed. -/
def Client.issued (method : Method) (c c' : Client) : Option (List Request) :=
  let own := (c'.sent.drop c.sent.length).rdropWhile fun q => q.method ≠ method
  if own = [] then none else some (c.sent ++ own)

/-- Whether a connection heard what came of a request to a URL: it holds the answer, of which no
instant was read yet, or no answer at all. -/
def Connection.Hears (url : String) (connection : Connection) : Reply → Prop
  | .response r => connection = ⟨some r, some url, none⟩
  | .failure _ => connection.response = none

namespace Exchange

/-- What a call leaves that sends to a URL: the connection as it is if it issued no request, and
otherwise a connection that heard what came of the last one. -/
inductive Speaks (env : Environment) (method : Method) (url : String) (s : Client × Connection) :
    Client × Connection → Prop where
  | silent {c : Client} (new : List Request) : c.sent = s.1.sent ++ new →
      (∀ q ∈ new, q.method ≠ method) → Speaks env method url s (c, s.2)
  | heard {t : Client × Connection} (new rest : List Request) (q : Request) :
      t.1.sent = s.1.sent ++ (new ++ [q]) ++ rest → q.method = method → q.url = url →
      (∀ q' ∈ rest, q'.method ≠ method) →
      t.2.Hears url (env.server (s.1.sent ++ (new ++ [q]))) → Speaks env method url s t

end Exchange

theorem Client.issued_of_silent {method : Method} {c c' : Client} {new : List Request}
    (hsent : c'.sent = c.sent ++ new) (hnew : ∀ q ∈ new, q.method ≠ method) :
    c.issued method c' = none := by
  have hown : new.rdropWhile (fun q => q.method ≠ method) = [] :=
    List.rdropWhile_eq_nil_iff.2 fun q hq => decide_eq_true (hnew q hq)
  simp only [issued, hsent, List.drop_left, hown, if_true]

theorem Client.issued_of_heard {method : Method} {c c' : Client} {new rest : List Request}
    {q : Request} (hsent : c'.sent = c.sent ++ (new ++ [q]) ++ rest) (hq : q.method = method)
    (hrest : ∀ q' ∈ rest, q'.method ≠ method) :
    c.issued method c' = some (c.sent ++ (new ++ [q])) := by
  have hown : (new ++ [q] ++ rest).rdropWhile (fun q => q.method ≠ method) = new ++ [q] := by
    rw [List.rdropWhile, List.reverse_append, List.dropWhile_append_of_pos]
    · exact List.rdropWhile_concat_neg _ _ _ (by simp [hq])
    · exact fun q' hq' => decide_eq_true (hrest q' (List.mem_reverse.1 hq'))
  rw [List.append_assoc] at hsent
  simp only [issued, hsent, List.drop_left, hown]
  exact if_neg (by simp)

namespace Exchange

variable {env : Environment} {method : Method} {url : String} {s t u : Client × Connection}

/-- A call that goes on leaves what its last part leaves. -/
theorem Speaks.trans (h : Speaks env method url s t) (h' : Speaks env method url t u) :
    Speaks env method url s u := by
  cases h' with
  | silent new' hsent' hnew' =>
    cases h with
    | silent new hsent hnew =>
      refine .silent (new ++ new') ?_ (List.forall_mem_append.2 ⟨hnew, hnew'⟩)
      rw [hsent', hsent, List.append_assoc]
    | heard new rest q hsent hq hurl hrest hears =>
      refine .heard new (rest ++ new') q ?_ hq hurl (List.forall_mem_append.2 ⟨hrest, hnew'⟩) hears
      rw [hsent', hsent, List.append_assoc]
  | heard new' rest' q' hsent' hq' hurl' hrest' hears' =>
    obtain ⟨between, hbetween⟩ : ∃ between, t.1.sent = s.1.sent ++ between := by
      cases h with
      | silent _ hsent _ => exact ⟨_, hsent⟩
      | heard _ _ _ hsent _ _ _ _ => exact ⟨_, by rw [hsent, List.append_assoc]⟩
    rw [hbetween] at hsent' hears'
    refine .heard (between ++ new') rest' q' ?_ hq' hurl' hrest' ?_
    · rw [hsent']
      simp only [List.append_assoc]
    · simpa only [List.append_assoc] using hears'

/-- One request that is sent. -/
theorem Speaks.request (q : Request) (hsent : t.1.sent = s.1.sent ++ [q]) (hq : q.method = method)
    (hurl : q.url = url) (hears : t.2.Hears url (env.server (s.1.sent ++ [q]))) :
    Speaks env method url s t :=
  .heard [] [] q (by rw [hsent, List.append_nil]; rfl) hq hurl nofun hears

/-- The requests on record, and the connection. -/
def wire (s : Client × Connection) : List Request × Connection :=
  (s.1.sent, s.2)

theorem leaves_keepNonce (r : Response) (isRequired : Bool) :
    (keepNonce r isRequired).Leaves wire := by
  intro env s
  obtain ⟨hsent, hconnection⟩ := run_keepNonce env r isRequired s
  exact Prod.ext hsent.symm hconnection.symm

/-- What only reads and leaves the connection as it is leaves both as they are. -/
theorem leaves_wire {α : Type} {x : Exchange α} (hx : x.IsReading Prod.fst)
    (hsnd : x.Leaves Prod.snd) : x.Leaves wire :=
  fun env s => Prod.ext (run_of_isReading hx env s).2.symm (hsnd env s)

/-- Nothing is sent where record and connection stay as they are. -/
theorem Speaks.of_wire (h : wire s = wire t) : Speaks env method url s t := by
  obtain ⟨hsent, hconnection⟩ := Prod.mk.inj h
  have hsilent : Speaks env method url s (t.1, s.2) :=
    .silent [] (by rw [← hsent, List.append_nil]) nofun
  rwa [hconnection] at hsilent

/-- What follows a request and leaves record and connection as they are does not count. -/
theorem Speaks.then {α β : Type} {x : Exchange α} {y : α → Exchange β}
    (h : Speaks env method url s (x.run env s).2) (hy : ∀ a, (y a).Leaves wire) :
    Speaks env method url s ((x >>= y).run env s).2 := by
  rw [run_bind]
  rcases hrun : x.run env s with ⟨e | a, t⟩
  · rw [hrun] at h
    exact h
  · rw [hrun] at h
    exact h.trans (.of_wire (hy a env t))

/-- Sending speaks to the URL. -/
theorem speaks_send (env : Environment) (s : Client × Connection) (method : Method) (url : String)
    (headers : List (String × String)) (body : Option Signed) :
    Speaks env method url s ((send method url headers body).run env s).2 := by
  let q : Request := ⟨method, url, headers, s.1.session.verification, s.1.session.timeout, body⟩
  rw [run_send env s (rfl : q = _)]
  cases hreply : env.server (s.1.sent ++ [q]) with
  | failure text => exact .request q rfl rfl rfl (by rw [hreply]; rfl)
  | response r => exact .request q rfl rfl rfl (by rw [hreply]; rfl)

theorem speaks_sendPlain (env : Environment) (s : Client × Connection) (url wanted : String) :
    Speaks env .get url s ((sendPlain url wanted).run env s).2 := by
  have hsession : (onFirst Client.getSession : Exchange Session).run env s
      = (.ok s.1.session, s) := rfl
  rw [sendPlain, run_bind_of_ok env hsession]
  exact (speaks_send env s .get url _ none).then fun r =>
    leaves_bind (leaves_keepNonce r false) fun _ _ _ => rfl

theorem speaks_fetchNonce (env : Environment) (s : Client × Connection) (url : String) :
    Speaks env .head url s ((fetchNonce url).run env s).2 := by
  have hsession : (onFirst Client.getSession : Exchange Session).run env s
      = (.ok s.1.session, s) := rfl
  rw [fetchNonce, run_bind_of_ok env hsession]
  refine (speaks_send env s .head url _ none).then fun r => ?_
  refine leaves_bind (leaves_wire (isReading_accept _) (leaves_accept _)) fun _ => ?_
  split
  · exact fun _ _ => rfl
  · exact fun _ _ => rfl

/-- What an errand for a nonce sends is not signed. -/
theorem Speaks.errand {c : Client} (h : s.1.Inquires c) : Speaks env .post url s (c, s.2) := by
  obtain ⟨new, hsent, hnew⟩ := h.sent
  exact .silent new hsent hnew

/-- An attempt speaks to the URL of its envelope, once the errand for its nonce is done. -/
theorem speaks_posted {m : Envelope} {a : Attempt} {connection : Connection}
    (hstart : a.start = s.1) (ha : a.IsMade env m)
    (hears : connection.Hears m.url (a.reply env m)) :
    Speaks env .post m.url s (a.posted m, connection) := by
  have hinquires := Client.inquires_takeNonce env a.start
  rw [ha.taking, hstart] at hinquires
  have hready : Speaks env .post m.url s (a.ready, s.2) := .errand hinquires
  exact hready.trans (.request (m.request a.document) rfl rfl rfl hears)

theorem speaks_postOnce (env : Environment) (s : Client × Connection) (url : String)
    (claims : Claims) (signing : Signing) (wanted : String) :
    Speaks env .post url s ((postOnce url claims signing wanted).run env s).2 := by
  cases hof : Envelope.of s.1.session url claims signing wanted with
  | error e =>
    rw [run_postOnce, hof]
    exact .silent [] (List.append_nil _).symm nofun
  | ok m =>
    obtain rfl : m.url = url := by
      obtain ⟨key, payload, -, -, rfl⟩ := Envelope.of_eq_ok.1 hof
      rfl
    have hnonce := Client.inquires_takeNonce env s.1
    have hout : Outcome env m s ((postOnce m.url claims signing wanted).run env s) :=
      outcome_postOnce hof
    generalize (postOnce m.url claims signing wanted).run env s = out at hout
    cases hout with
    | starved htake =>
      rw [htake] at hnonce
      exact .errand hnonce
    | unsigned htake _ =>
      rw [htake] at hnonce
      exact .errand hnonce
    | lost hstart ha hreply => exact speaks_posted hstart ha (by rw [hreply]; rfl)
    | @answered a r hstart ha hreply =>
      have hposted : Speaks env .post m.url s (a.posted m, ⟨some r, some m.url, none⟩) :=
        speaks_posted hstart ha (by rw [hreply]; rfl)
      exact hposted.trans (.of_wire (leaves_keepNonce r r.isOk env _))

/-- A signed request speaks to its URL once or twice. -/
theorem speaks_sendSigned (env : Environment) (s : Client × Connection) (url : String)
    (claims : Claims) (signing : Signing) (wanted : String) :
    Speaks env .post url s ((sendSigned url claims signing wanted).run env s).2 := by
  have hfirst := speaks_postOnce env s url claims signing wanted
  rw [sendSigned, run_bind]
  rcases hrun : (postOnce url claims signing wanted).run env s with ⟨e | status, t⟩
  · rw [hrun] at hfirst
    exact hfirst
  · rw [hrun] at hfirst
    refine hfirst.trans ?_
    dsimp only
    split
    · have hsame := run_refusesNonce env t
      rw [run_bind]
      rcases hverdict : refusesNonce.run env t with ⟨e | refused, u⟩
      · rw [hverdict] at hsame
        cases hsame
        exact .of_wire rfl
      · rw [hverdict] at hsame
        cases hsame
        cases refused with
        | true => exact speaks_postOnce env _ url claims signing wanted
        | false => exact .of_wire rfl
    · exact .of_wire rfl

/-- A call that sends leaves the connection with what it heard last. -/
theorem speaks_report {o : ConnectionOperation} {method : Method} {url : String}
    (ho : o.target? = some (method, url)) (env : Environment) (s : Client × Connection) :
    Speaks env method url s (o.report.run env s).2 := by
  cases o with
  | sendPlain url wanted =>
    cases ho
    rw [ConnectionOperation.report, run_report]
    exact speaks_sendPlain env s _ wanted
  | sendSigned url claims signing wanted =>
    cases ho
    rw [ConnectionOperation.report, run_report]
    exact speaks_sendSigned env s _ claims signing wanted
  | fetchNonce url =>
    cases ho
    rw [ConnectionOperation.report, run_report]
    exact speaks_fetchNonce env s _
  | accept | readJson | readCertificates | links | location | retryAfter | refuseEarly | nonce
  | close => cases ho

end Exchange

end AcmeClient
