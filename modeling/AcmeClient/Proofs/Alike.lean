import AcmeClient.Proofs.Likeness

/-!
# Clients that are alike

Two clients are alike when their keys are, and the requests that they sent, and everything else is
the same. Once a directory is known, its URL does not matter any more. What such clients read and
send keeps them alike:

* `Session.Alike`, `Client.Alike` — what two clients have in common;
* `Act.Matches`, `Act.IsSteady` — acts that are in step on clients that are alike;
* `steady_accept`, `steady_readJson`, … — what is read from an answer is the same;
* `steady_directory`, `steady_takeNonce` — so is the directory, and the nonce that is taken;
* `matches_send`, `matches_sendSigned` — requests of clients that are alike are alike.
-/

namespace AcmeClient

open Act

variable {σ τ α β : Type} {keys : Key → Key → Prop} {known : Option Directory}

/-- Whether two sessions have keys that are alike and the same of everything else; a directory that
is known makes up for its URL. -/
structure Session.Alike (keys : Key → Key → Prop) (known : Option Directory) (s s' : Session) :
    Prop where
  key : Option.Rel keys s.key s'.key
  rest : s' = { s with key := s'.key, directoryUrl := s'.directoryUrl }
  directory : ∀ d, known = some d → s.directory = some d
  directoryUrl : known = none → s'.directoryUrl = s.directoryUrl

/-- Whether two clients have sessions that are alike, sent requests that are alike, and read the
clock as often. -/
structure Client.Alike (keys : Key → Key → Prop) (known : Option Directory) (c c' : Client) :
    Prop where
  session : c.session.Alike keys known c'.session
  sent : List.Forall₂ (Request.Alike keys) c.sent c'.sent
  readings : c.readings = c'.readings

/-- Clients with the same keys sent the same requests. -/
theorem Client.sent_of_alike {c c' : Client} (h : c.Alike Eq known c') : c'.sent = c.sent := by
  have hsame : List.Forall₂ Eq c.sent c'.sent := h.sent.imp fun _ _ hr => Request.Alike.eq hr
  rw [List.forall₂_eq_eq_eq] at hsame
  exact hsame.symm

namespace Act

/-- Whether two acts of clients that are alike are in step. -/
abbrev Matches (keys : Key → Key → Prop) (known : Option Directory) (Q : α → α → Prop)
    (x x' : Act Client α) : Prop :=
  x.InStep (Client.Alike keys known) id Q x'

/-- The same for acts on something besides the client. -/
abbrev MatchesBeside (keys : Key → Key → Prop) (known : Option Directory) (Q : α → α → Prop)
    (x x' : Act (Client × τ) α) : Prop :=
  x.InStep (Beside (Client.Alike keys known)) Prod.fst Q x'

/-- Whether an act of a client is in step with itself on clients that are alike. -/
abbrev IsSteady (keys : Key → Key → Prop) (known : Option Directory) (x : Act Client α) : Prop :=
  x.Steady (Client.Alike keys known) id

/-- The same for acts on something besides the client. -/
abbrev IsSteadyBeside (keys : Key → Key → Prop) (known : Option Directory)
    (x : Act (Client × τ) α) : Prop :=
  x.Steady (Beside (Client.Alike keys known)) Prod.fst

variable {Q : α → α → Prop}

theorem matches_onFirst {x x' : Act Client α} (hx : x.Matches keys known Q x') :
    (onFirst x : Act (Client × τ) α).MatchesBeside keys known Q (onFirst x') :=
  inStep_onFirst hx

theorem matches_within {x x' : Act (Client × τ) α} (t : τ) (hx : x.MatchesBeside keys known Q x') :
    (within t x).Matches keys known Q (within t x') :=
  inStep_within t hx

theorem steady_onFirst {x : Act Client α} (hx : x.IsSteady keys known) :
    (onFirst x : Act (Client × τ) α).IsSteadyBeside keys known :=
  matches_onFirst hx

theorem steady_within {x : Act (Client × τ) α} (t : τ) (hx : x.IsSteadyBeside keys known) :
    (within t x).IsSteady keys known :=
  matches_within t hx

end Act

/-! ### Steps of a client -/

namespace Client

/-- The session is alike. -/
theorem matches_getSession :
    getSession.Matches keys known (Session.Alike keys known) getSession :=
  inStep_once (fun _ _ hc => hc) fun _ _ _ _ hc _ => .ok hc.session

/-- Changes that keep sessions alike. -/
theorem matches_modifySession {f f' : Session → Session}
    (hf : ∀ s s', s.Alike keys known s' → (f s).Alike keys known (f' s')) :
    (modifySession f).Matches keys known Eq (modifySession f') :=
  inStep_once (fun _ _ hc => ⟨hf _ _ hc.session, hc.sent, hc.readings⟩) fun _ _ _ _ _ _ => .ok rfl

theorem steady_now : now.IsSteady keys known := by
  refine inStep_once (fun _ _ hc => ⟨hc.session, hc.sent, congrArg (· + 1) hc.readings⟩) ?_
  intro env env' c c' hc hmeets
  rw [hmeets.clock, hc.readings]
  exact .ok rfl

/-- Requests that are alike are answered by what both sides are shown. -/
theorem matches_transmit {r r' : Request} (hr : r.Alike keys r') :
    (transmit r).Matches keys known Eq (transmit r') := by
  refine inStep_once ?_ ?_
  · exact fun _ _ hc => ⟨hc.session, List.rel_append hc.sent (.cons hr .nil), hc.readings⟩
  · intro env env' c c' _ hmeets
    exact .ok (hmeets.reply (List.concat_ne_nil _ _))

theorem alike_nonces {s s' : Session} (h : s.Alike keys known s') : s'.nonces = s.nonces := by
  rw [h.rest]

theorem steady_offerNonce (text : String) : (offerNonce text).IsSteady keys known := by
  refine steady_bind (steady_lift _) fun token => matches_modifySession fun s s' hs => ?_
  refine ⟨hs.key, ?_, hs.directory, hs.directoryUrl⟩
  rw [hs.rest]

theorem steady_takePooled : takePooled.IsSteady keys known := by
  refine inStep_once ?_ ?_
  · intro c c' hc
    refine ⟨⟨hc.session.key, ?_, hc.session.directory, hc.session.directoryUrl⟩, hc.sent,
      hc.readings⟩
    rw [hc.session.rest]
  · intro env env' c c' hc _
    rw [alike_nonces hc.session]
    exact .ok rfl

end Client

/-! ### Readings of an answer -/

namespace Exchange

theorem steady_connection : connection.IsSteadyBeside keys known :=
  steady_second

theorem steady_held : held.IsSteadyBeside keys known :=
  steady_bind steady_connection fun _ => steady_lift _

theorem steady_close : close.IsSteadyBeside keys known :=
  steady_modifySecond Connection.close

theorem steady_readProblem : readProblem.IsSteadyBeside keys known :=
  steady_bind steady_connection fun _ => steady_bind (steady_lift _) fun _ => steady_pure _

theorem steady_links (relation : String) : (links relation).IsSteadyBeside keys known := by
  refine steady_bind steady_connection fun c => steady_bind (steady_lift _) fun r => ?_
  split
  · exact steady_pure _
  · exact steady_mapM (fun _ => steady_lift _) _

theorem steady_refusalInstant (r : Response) : (refusalInstant r).IsSteadyBeside keys known := by
  unfold refusalInstant
  split
  · exact steady_pure _
  · refine steady_bind (steady_onFirst Client.steady_now) fun now => ?_
    split
    · exact steady_pure _
    · exact steady_pure _
    · exact steady_throw _

theorem steady_rejectionKind (r : Response) (code : Option String) :
    (rejectionKind r code).IsSteadyBeside keys known := by
  unfold rejectionKind
  split
  · exact steady_bind (steady_refusalInstant r) fun _ => steady_pure _
  · exact steady_pure _
  · exact steady_bind (steady_links _) fun _ => steady_pure _
  · exact steady_pure _

theorem steady_rejection (r : Response) : (rejection r).IsSteadyBeside keys known := by
  refine steady_bind steady_readProblem fun p => ?_
  split
  · exact steady_pure _
  · refine steady_bind (steady_lift _) fun code => ?_
    exact steady_bind (steady_rejectionKind r code) fun _ => steady_pure _

theorem steady_accept (codes : List Int) : (accept codes).IsSteadyBeside keys known := by
  refine steady_bind steady_held fun r => ?_
  split
  · exact steady_pure _
  · exact steady_bind (steady_rejection r) fun _ => steady_throw _

theorem steady_readJson : readJson.IsSteadyBeside keys known := by
  refine steady_bind steady_connection fun c => steady_bind (steady_lift _) fun r => ?_
  by_cases hempty : r.content.isEmpty
  · rw [if_pos hempty]
    refine steady_bind (steady_throw _) fun _ => ?_
    split
    · exact steady_pure _
    · exact steady_throw _
  · rw [if_neg hempty]
    split
    · exact steady_pure _
    · exact steady_throw _

theorem steady_readCertificates : readCertificates.IsSteadyBeside keys known :=
  steady_bind steady_held fun _ => steady_lift _

theorem steady_retryAfter : retryAfter.IsSteadyBeside keys known := by
  refine steady_bind steady_connection fun c => steady_bind (steady_lift _) fun r => ?_
  split
  · exact steady_pure _
  · split
    · exact steady_pure _
    · refine steady_bind (steady_onFirst Client.steady_now) fun now => ?_
      refine steady_bind (steady_lift _) fun t => ?_
      let kept (c : Connection) : Connection := { c with retryAfter := some t }
      exact steady_bind (steady_modifySecond kept) fun _ => steady_pure _

theorem steady_refuseEarly (message : String) : (refuseEarly message).IsSteadyBeside keys known := by
  refine steady_bind steady_retryAfter fun t => ?_
  split
  · exact steady_throw _
  · exact steady_pure _

theorem steady_location : location.IsSteadyBeside keys known := by
  refine steady_bind steady_connection fun c => steady_bind (steady_lift _) fun r => ?_
  split
  · exact steady_pure _
  · exact steady_bind (steady_lift _) fun _ => steady_pure _

theorem steady_nonce : nonce.IsSteadyBeside keys known :=
  steady_bind steady_held fun _ => steady_pure _

theorem steady_refusesNonce : refusesNonce.IsSteadyBeside keys known := by
  refine steady_bind steady_readProblem fun p => ?_
  split
  · exact steady_pure _
  · exact steady_bind (steady_lift _) fun _ => steady_pure _

theorem steady_answer : answer.IsSteadyBeside keys known :=
  steady_bind steady_readJson fun _ => steady_bind steady_retryAfter fun _ => steady_pure _

theorem steady_created (kind : ResourceKind) (name : String) :
    (created kind name).IsSteadyBeside keys known := by
  refine steady_bind steady_location fun l => ?_
  split
  · exact steady_throw _
  · exact steady_bind steady_readJson fun _ => steady_lift _

/-! ### Requests that are not signed -/

theorem matches_session : (onFirst Client.getSession : Exchange Session).MatchesBeside keys known
    (Session.Alike keys known) (onFirst Client.getSession) :=
  matches_onFirst Client.matches_getSession

/-- Sessions that are alike send the same headers. -/
theorem headersFor_of_alike {s s' : Session} (h : s.Alike keys known s') (wanted : Option String) :
    headersFor s' wanted = headersFor s wanted := by
  rw [h.rest]
  rfl

/-- Requests with documents that are alike. -/
theorem matches_send {body body' : Option Signed}
    (hbody : Option.Rel (Signed.Alike keys (Payload.Alike keys)) body body') (method : Method)
    (url : String) (headers : List (String × String)) :
    (send method url headers body).MatchesBeside keys known Eq (send method url headers body') := by
  refine inStep_bind steady_close fun _ _ _ => inStep_bind matches_session fun s s' hs => ?_
  refine inStep_bind (Q := Eq) (matches_onFirst (Client.matches_transmit ?_)) fun reply reply' h => ?_
  · refine ⟨rfl, rfl, rfl, ?_, ?_, hbody⟩
    · rw [hs.rest]
    · rw [hs.rest]
  · subst h
    cases reply with
    | failure text => exact inStep_throw _
    | response r =>
      let answered (_ : Connection) : Connection := ⟨some r, some url, none⟩
      exact steady_bind (steady_modifySecond answered) fun _ => steady_pure r

theorem steady_sendUnsigned (method : Method) (url : String) (headers : List (String × String)) :
    (send method url headers none).IsSteadyBeside keys known :=
  matches_send .none method url headers

theorem steady_keepNonce (r : Response) (isRequired : Bool) :
    (keepNonce r isRequired).IsSteadyBeside keys known := by
  unfold keepNonce
  split
  · exact steady_onFirst (Client.steady_offerNonce _)
  · split
    · exact steady_throw _
    · exact steady_pure _

theorem steady_sendPlain (url wanted : String) : (sendPlain url wanted).IsSteadyBeside keys known := by
  refine steady_of_inStep matches_session fun s s' hs => ?_
  rw [headersFor_of_alike hs]
  exact steady_bind (steady_sendUnsigned _ _ _) fun r =>
    steady_bind (steady_keepNonce r false) fun _ => steady_pure _

theorem steady_fetchNonce (url : String) : (fetchNonce url).IsSteadyBeside keys known := by
  refine steady_of_inStep matches_session fun s s' hs => ?_
  rw [headersFor_of_alike hs]
  refine steady_bind (steady_sendUnsigned _ _ _) fun r => ?_
  refine steady_bind (steady_accept _) fun _ => ?_
  split
  · exact steady_lift _
  · exact steady_throw _

end Exchange

/-! ### The directory -/

namespace Client

theorem steady_fetchDirectory (url : String) :
    (fetchDirectory url).IsSteadyBeside keys known := by
  refine steady_bind (Exchange.steady_sendPlain url _) fun _ => ?_
  refine steady_bind (steady_tryCatch ?_ ?_) fun _ => Exchange.steady_readJson
  · exact steady_bind (Exchange.steady_accept _) fun _ => steady_pure _
  · intro e
    split
    · exact steady_throw _
    · exact steady_throw _

/-- The directory is the one that is known, or asked for at one URL. -/
theorem steady_directory : directory.IsSteady keys known := by
  refine steady_of_inStep matches_getSession fun s s' hs => ?_
  have hsame : s'.directory = s.directory := by rw [hs.rest]
  rw [hsame]
  cases hknown : known with
  | some d =>
    rw [hs.directory d hknown]
    exact steady_pure d
  | none =>
    rw [hs.directoryUrl hknown]
    cases s.directory with
    | some d => exact steady_pure d
    | none =>
      refine steady_bind (steady_within _ (steady_fetchDirectory _)) fun ms => ?_
      refine steady_bind (steady_lift _) fun d => ?_
      refine steady_bind (matches_modifySession fun t t' ht => ?_) fun _ => steady_pure d
      refine ⟨ht.key, ?_, nofun, ht.directoryUrl⟩
      rw [ht.rest]

theorem steady_endpointUrl (name : String) : (endpointUrl name).IsSteady keys known :=
  steady_bind steady_directory fun _ => steady_lift _

theorem steady_takeNonce : takeNonce.IsSteady keys known := by
  refine steady_bind steady_takePooled fun token => ?_
  split
  · exact steady_pure _
  · exact steady_within _ (steady_bind (steady_onFirst (steady_endpointUrl _)) fun url =>
      Exchange.steady_fetchNonce url)

end Client

/-! ### Signed requests -/

section Signatures

variable (hkeys : Key.Likeness keys)
include hkeys

namespace Exchange

/-- Signed requests of keys that are alike are alike. -/
theorem matches_postOnce {claims claims' : Claims} {key key' : Option Key}
    (hclaims : claims.Alike keys claims') (hkey : Option.Rel keys key key') (url : String)
    (usesKid : Bool) (wanted : String) :
    (postOnce url claims ⟨key, usesKid⟩ wanted).MatchesBeside keys known Eq
      (postOnce url claims' ⟨key', usesKid⟩ wanted) := by
  refine inStep_bind matches_session fun s s' hs => ?_
  have hkid : s'.kid = s.kid := by rw [hs.rest]
  have hchosen := Key.rel_or hkey hs.key
  dsimp only
  generalize key.or s.key = chosen at hchosen ⊢
  generalize key'.or s'.key = chosen' at hchosen ⊢
  cases hchosen with
  | none => exact inStep_throw _
  | some hk =>
    rw [hkid]
    refine inStep_bind (inStep_lift hclaims) fun p p' hp => ?_
    refine inStep_then (steady_onFirst Client.steady_takeNonce) fun nonce => ?_
    refine inStep_bind (inStep_lift (Signed.agree_request hkeys hk hp _ _ _)) fun d d' hd => ?_
    refine inStep_bind matches_session fun t t' ht => ?_
    rw [headersFor_of_alike ht]
    refine inStep_then (matches_send (.some hd) _ _ _) fun r => ?_
    exact steady_bind (steady_keepNonce r r.isOk) fun _ => steady_pure _

/-- So is the second attempt. -/
theorem matches_sendSigned {claims claims' : Claims} {key key' : Option Key}
    (hclaims : claims.Alike keys claims') (hkey : Option.Rel keys key key') (url : String)
    (usesKid : Bool) (wanted : String) :
    (sendSigned url claims ⟨key, usesKid⟩ wanted).MatchesBeside keys known Eq
      (sendSigned url claims' ⟨key', usesKid⟩ wanted) := by
  have hpost : (postOnce url claims ⟨key, usesKid⟩ wanted).MatchesBeside keys known Eq
      (postOnce url claims' ⟨key', usesKid⟩ wanted) :=
    matches_postOnce hkeys hclaims hkey url usesKid wanted
  refine inStep_then hpost fun status => ?_
  by_cases herror : 400 ≤ status
  · rw [if_pos herror, if_pos herror]
    refine inStep_then steady_refusesNonce fun refused => ?_
    cases refused with
    | true => exact hpost
    | false => exact inStep_pure rfl
  · rw [if_neg herror, if_neg herror]
    exact inStep_pure rfl

theorem steady_sendSigned (url : String) (claims : Claims) (signing : Signing) (wanted : String) :
    (sendSigned url claims signing wanted).IsSteadyBeside keys known :=
  matches_sendSigned hkeys (.refl claims) (hkeys.refl_option signing.key) url signing.usesKid wanted

theorem steady_fetch (url wanted : String) : (fetch url wanted).IsSteadyBeside keys known := by
  refine steady_of_inStep matches_session fun s s' hs => ?_
  have hkid : s'.kid = s.kid := by rw [hs.rest]
  rw [hkid]
  by_cases hnamed : s.kid.isSome = true
  · rw [if_pos hnamed]
    exact steady_sendSigned hkeys _ _ _ _
  · rw [if_neg hnamed]
    exact steady_sendPlain _ _

end Exchange

end Signatures

end AcmeClient
