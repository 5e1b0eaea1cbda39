import AcmeClient.Proofs.Alike

/-!
# Operations of clients that are alike

Operations that are the same but for keys, which are alike, keep clients alike:

* `Operation.Alike` — such operations;
* `Act.matches_operation` — they are in step on clients that are alike;
* `Client.alike_after` — clients are alike after any number of them.
-/

namespace AcmeClient

open Act

variable {keys : Key → Key → Prop} {known : Option Directory}

/-- Whether two operations are the same but for the keys that they are given, which are alike. -/
inductive Operation.Alike (keys : Key → Key → Prop) : Operation → Operation → Prop where
  | same (o : Operation) : Operation.Alike keys o o
  | assign {key key' : Option Key} (h : Option.Rel keys key key') (kid locale : Option String)
      (userAgent : String) (verification timeout : Json) : Operation.Alike keys
        (.assign key kid locale userAgent verification timeout)
        (.assign key' kid locale userAgent verification timeout)
  | login {key key' : Option Key} (h : Option.Rel keys key key') (url : Json) :
      Operation.Alike keys (.login url key) (.login url key')
  | revoke {key key' : Option Key} (h : Option.Rel keys key key') (c : X509.Certificate)
      (reason : Json) : Operation.Alike keys (.revoke c reason key) (.revoke c reason key')
  | sendSigned {key key' : Option Key} (h : Option.Rel keys key key') (c : Connection)
      (url : String) (claims : Claims) (usesKid : Bool) (wanted : String) : Operation.Alike keys
        (.onConnection c (.sendSigned url claims ⟨key, usesKid⟩ wanted))
        (.onConnection c (.sendSigned url claims ⟨key', usesKid⟩ wanted))
  | changeKey {key key' : Key} (h : keys key key') (r : Resource) :
      Operation.Alike keys (.onResource r (.changeKey key)) (.onResource r (.changeKey key'))

variable (hkeys : Key.Likeness keys)
include hkeys

/-! ### Acts of a client -/

namespace Client

theorem steady_fetched (url : String) : (fetched url).IsSteady keys known :=
  steady_within _ (steady_bind (Exchange.steady_fetch hkeys _ _) fun _ =>
    steady_bind (Exchange.steady_accept _) fun _ => Exchange.steady_answer)

theorem steady_posted (url : String) (claims : Claims) (codes : List Int) :
    (posted url claims codes).IsSteady keys known :=
  steady_within _ (steady_bind (Exchange.steady_sendSigned hkeys _ _ _ _) fun _ =>
    steady_bind (Exchange.steady_accept _) fun _ => Exchange.steady_answer)

theorem steady_requested (endpoint : Endpoint) (b : DraftBook) (kind : ResourceKind)
    (name : String) : (requested endpoint b kind name).IsSteady keys known :=
  steady_within _ (steady_bind (steady_onFirst (steady_endpointUrl _)) fun _ =>
    steady_bind (Exchange.steady_sendSigned hkeys _ _ _ _) fun _ =>
      steady_bind (Exchange.steady_accept _) fun _ => Exchange.steady_created kind name)

theorem steady_bindResource (kind : ResourceKind) (registry : Registry) (location : Json) :
    (bind kind registry location).IsSteady keys known :=
  steady_bind (steady_lift _) fun _ => steady_bind (steady_fetched hkeys _) fun _ =>
    steady_bind (steady_lift _) fun _ => steady_bind (steady_lift _) fun _ => steady_pure _

theorem steady_newOrder (identifiers : Value) (notBefore notAfter : Option Value) :
    (newOrder identifiers notBefore notAfter).IsSteady keys known :=
  steady_bind (steady_lift _) fun _ => steady_requested hkeys _ _ _ _

theorem steady_preAuthorize (identifier : Value) : (preAuthorize identifier).IsSteady keys known :=
  steady_bind (steady_lift _) fun _ => steady_requested hkeys _ _ _ _

theorem steady_orderPage (url : String) : (orderPage url).IsSteady keys known :=
  steady_within _ (steady_bind (Exchange.steady_fetch hkeys _ _) fun _ =>
    steady_bind (Exchange.steady_accept _) fun _ =>
      steady_bind Exchange.steady_readJson fun _ =>
        steady_bind (steady_lift _) fun _ => steady_bind (steady_lift _) fun _ =>
          steady_bind (Exchange.steady_links _) fun _ => steady_pure _)

theorem steady_ordersFrom (limit : Nat) (visited : List String) (url : Option String) :
    (ordersFrom limit visited url).IsSteady keys known := by
  induction limit generalizing visited url with
  | zero =>
    cases url with
    | none => exact steady_pure _
    | some url =>
      unfold ordersFrom
      split
      · exact steady_pure _
      · exact steady_pure _
  | succ limit ih =>
    cases url with
    | none => exact steady_pure _
    | some url =>
      unfold ordersFrom
      split
      · exact steady_pure _
      · exact steady_bind (steady_orderPage hkeys url) fun _ => steady_bind (ih _ _) fun _ =>
          steady_pure _

omit hkeys in
/-- A session is given an account, and a key if there is one. -/
theorem matches_naming {key key' : Option Key} (hkey : Option.Rel keys key key')
    (kid : Option String) :
    (modifySession fun s => { s with key := key.or s.key, kid }).Matches keys known Eq
      (modifySession fun s => { s with key := key'.or s.key, kid }) := by
  refine matches_modifySession fun s s' hs => ?_
  refine ⟨Key.rel_or hkey hs.key, ?_, hs.directory, hs.directoryUrl⟩
  rw [hs.rest]

omit hkeys in
theorem matches_login {key key' : Option Key} (hkey : Option.Rel keys key key') (url : Json) :
    (login url key).Matches keys known Eq (login url key') :=
  inStep_then (steady_lift _) fun url =>
    inStep_then (matches_naming hkey (some url)) fun _ => steady_lift _

theorem steady_createAccount (w : AccountWishes) : (createAccount w).IsSteady keys known := by
  refine steady_of_inStep matches_getSession fun s s' hs => ?_
  rw [Key.isNone_of_rel hs.key]
  split
  · exact steady_throw_bind _ _
  · refine steady_bind (steady_lift _) fun b => ?_
    refine steady_bind (steady_within _ ?_) fun r => ?_
    · exact steady_bind (steady_onFirst (steady_endpointUrl _)) fun _ =>
        steady_bind (Exchange.steady_sendSigned hkeys _ _ _ _) fun _ =>
          steady_bind (Exchange.steady_accept _) fun _ => Exchange.steady_created _ _
    · exact steady_bind (matches_naming .none r.location) fun _ => steady_pure r

theorem matches_revoke {key key' : Option Key} (hkey : Option.Rel keys key key')
    (c : X509.Certificate) (reason : Json) :
    (revoke c reason key).Matches keys known Eq (revoke c reason key') := by
  refine inStep_then (steady_lift _) fun b => ?_
  refine inStep_then (steady_endpointUrl _) fun url => ?_
  rw [Key.isNone_of_rel hkey]
  refine matches_within _ (inStep_then ?_ fun _ => ?_)
  · exact Exchange.matches_sendSigned hkeys (.refl _) hkey url key.isNone _
  · exact inStep_then (Exchange.steady_accept _) fun _ => steady_pure ()

/-- The change of a key for another sends documents that are alike, and leaves keys that are. -/
theorem matches_changeKey {newKey newKey' : Key} (hnew : keys newKey newKey') (location : String) :
    (changeKey location newKey).Matches keys known Eq (changeKey location newKey') := by
  refine inStep_then (steady_endpointUrl _) fun url => ?_
  refine inStep_bind matches_getSession fun s s' hs => ?_
  have hold := hs.key
  generalize s.key = oldKey at hold ⊢
  generalize s'.key = oldKey' at hold ⊢
  cases hold with
  | none => exact inStep_throw _
  | some hold =>
    refine inStep_bind (inStep_lift (agree_keyChange hkeys hold hnew location url)) ?_
    intro inner inner' hinner
    refine inStep_then (matches_within _ (inStep_then ?_ fun _ => ?_)) fun _ => ?_
    · exact Exchange.matches_sendSigned hkeys (Claims.alike_enclosing hinner) .none url true _
    · exact inStep_then (Exchange.steady_accept _) fun _ => steady_pure ()
    · refine matches_modifySession fun t t' ht => ?_
      refine ⟨.some hnew, ?_, ht.directory, ht.directoryUrl⟩
      rw [ht.rest]

end Client

/-! ### Operations on a resource -/

namespace Loading

omit hkeys in
theorem steady_resource : resource.IsSteadyBeside keys known :=
  steady_second

omit hkeys in
theorem steady_requireLocation : requireLocation.IsSteadyBeside keys known :=
  steady_bind steady_resource fun _ => steady_lift _

omit hkeys in
theorem steady_bindTo (location : Json) : (bindTo location).IsSteadyBeside keys known :=
  steady_bind steady_resource fun _ => steady_bind (steady_lift _) fun placed =>
    steady_modifySecond fun _ => placed

omit hkeys in
theorem steady_unmarshall (ms : Members) : (unmarshall ms).IsSteadyBeside keys known := by
  let loaded (r : Resource) : Resource := { r with body := ms }
  refine steady_bind steady_resource fun r => ?_
  refine steady_bind (steady_lift _) fun url => steady_bind (steady_lift _) fun _ => ?_
  refine steady_bind (steady_modifySecond loaded) fun _ => ?_
  split
  · exact steady_bindTo _
  · exact steady_pure _

omit hkeys in
theorem steady_adopt (ms : Members) (t : Option Calendar.Instant) :
    (adopt ms t).IsSteadyBeside keys known :=
  let advised (r : Resource) : Resource := { r with retryAfter := t }
  steady_bind (steady_unmarshall ms) fun _ => steady_modifySecond advised

theorem steady_update : update.IsSteadyBeside keys known := by
  refine steady_bind steady_requireLocation fun url => ?_
  refine steady_bind (steady_onFirst (Client.steady_fetched hkeys url)) fun answer => ?_
  refine steady_bind (steady_adopt _ _) fun _ => ?_
  split
  · exact steady_bind steady_resource fun _ => steady_throw _
  · exact steady_pure _

theorem steady_post (url : String) (claims : Claims) (codes : List Int) :
    (post url claims codes).IsSteadyBeside keys known :=
  steady_bind (steady_onFirst (Client.steady_posted hkeys _ _ _)) fun _ => steady_adopt _ _

theorem steady_postHere (claims : Claims) (codes : List Int) :
    (postHere claims codes).IsSteadyBeside keys known :=
  steady_bind steady_requireLocation fun _ => steady_post hkeys _ _ _

omit hkeys in
theorem matches_key : key.MatchesBeside keys known (Option.Rel keys) key :=
  inStep_bind (matches_onFirst Client.matches_getSession) fun _ _ hs => inStep_pure hs.key

/-- The claims for a challenge show the public part of the key. -/
theorem steady_respond (b : DraftBook) : (respond b).IsSteadyBeside keys known := by
  refine steady_bind steady_resource fun r => steady_of_inStep matches_key fun key key' hkey => ?_
  rw [Resource.respond_of_alike hkeys hkey]
  exact steady_lift _

theorem steady_loading (o : LoadingOperation) : o.act.IsSteadyBeside keys known := by
  cases o with
  | unmarshall ms => exact steady_unmarshall ms
  | update => exact steady_update hkeys
  | trigger => exact steady_bind (steady_respond hkeys _) fun _ => steady_postHere hkeys _ _
  | finalize form =>
    refine steady_bind (steady_lift _) fun der => ?_
    refine steady_bind steady_resource fun r => steady_bind (steady_lift _) fun url => ?_
    split
    · exact steady_throw _
    · exact steady_post hkeys _ _ _
  | deactivate => exact steady_bind (steady_lift _) fun _ => steady_postHere hkeys _ _
  | modify contact =>
    exact steady_bind (steady_lift _) fun _ => steady_bind (steady_lift _) fun _ =>
      steady_postHere hkeys _ _

theorem steady_orders (limit : Nat) : (orders limit).IsSteadyBeside keys known :=
  steady_bind steady_resource fun _ => steady_bind (steady_lift _) fun url =>
    steady_onFirst (Client.steady_ordersFrom hkeys limit [] url)

theorem matches_changeKey {newKey newKey' : Key} (h : keys newKey newKey') :
    (changeKey newKey).MatchesBeside keys known Eq (changeKey newKey') :=
  inStep_then steady_requireLocation fun location =>
    matches_onFirst (Client.matches_changeKey hkeys h location)

end Loading

/-! ### Operations on a certificate -/

namespace Holding

omit hkeys in
theorem steady_resource : resource.IsSteadyBeside keys known :=
  steady_second

theorem steady_download : download.IsSteadyBeside keys known := by
  refine steady_bind steady_resource fun r => steady_bind (steady_lift _) fun url => ?_
  refine steady_bind (steady_onFirst (steady_within _ ?_)) fun answer => ?_
  · exact steady_bind (Exchange.steady_fetch hkeys _ _) fun _ =>
      steady_bind (Exchange.steady_accept _) fun _ =>
        steady_bind Exchange.steady_readCertificates fun _ =>
          steady_bind (Exchange.steady_links _) fun _ => steady_pure _
  · let downloaded (r : CertificateResource) : CertificateResource :=
      { r with chain := some answer.1, alternates := answer.2 }
    exact steady_modifySecond downloaded

theorem steady_ensure : ensure.IsSteadyBeside keys known := by
  refine steady_bind steady_resource fun r => ?_
  split
  · exact steady_download hkeys
  · exact steady_pure _

theorem steady_chain : chain.IsSteadyBeside keys known :=
  steady_bind (steady_ensure hkeys) fun _ => steady_bind steady_resource fun _ => steady_pure _

theorem steady_leaf : leaf.IsSteadyBeside keys known := by
  refine steady_bind (steady_chain hkeys) fun chain => ?_
  split
  · exact steady_pure _
  · exact steady_throw _

theorem steady_alternates : alternates.IsSteadyBeside keys known :=
  steady_bind (steady_ensure hkeys) fun _ => steady_bind steady_resource fun _ => steady_pure _

theorem steady_certificate (o : CertificateOperation) : o.act.IsSteadyBeside keys known := by
  cases o with
  | bindTo location =>
    exact steady_bind steady_resource fun _ => steady_bind (steady_lift _) fun placed =>
      steady_modifySecond fun _ => placed
  | download => exact steady_download hkeys
  | chain => exact steady_bind (steady_chain hkeys) fun _ => steady_pure _
  | leaf => exact steady_bind (steady_leaf hkeys) fun _ => steady_pure _
  | alternates => exact steady_bind (steady_alternates hkeys) fun _ => steady_pure _
  | alternateCertificates =>
    refine steady_bind (steady_bind (steady_alternates hkeys) fun urls => ?_) fun _ => steady_pure _
    exact steady_mapM (fun _ => steady_lift _) urls
  | writtenChain =>
    exact steady_bind (steady_bind (steady_chain hkeys) fun _ => steady_pure _) fun _ =>
      steady_pure _
  | revoke reason =>
    exact steady_bind (steady_leaf hkeys) fun c =>
      steady_onFirst (Client.matches_revoke hkeys .none c reason)

end Holding

/-! ### All operations -/

theorem Exchange.steady_operation (o : ConnectionOperation) : o.act.IsSteadyBeside keys known := by
  cases o with
  | sendPlain url wanted => exact steady_bind (steady_sendPlain _ _) fun _ => steady_pure _
  | sendSigned url claims signing wanted =>
    exact steady_bind (steady_sendSigned hkeys _ _ _ _) fun _ => steady_pure _
  | fetchNonce url => exact steady_bind (steady_fetchNonce url) fun _ => steady_pure _
  | accept codes => exact steady_bind (steady_accept codes) fun _ => steady_pure _
  | readJson => exact steady_bind steady_readJson fun _ => steady_pure _
  | readCertificates => exact steady_bind steady_readCertificates fun _ => steady_pure _
  | links relation => exact steady_bind (steady_links relation) fun _ => steady_pure _
  | location => exact steady_bind steady_location fun _ => steady_pure _
  | retryAfter => exact steady_bind steady_retryAfter fun _ => steady_pure _
  | refuseEarly message => exact steady_refuseEarly message
  | nonce => exact steady_bind steady_nonce fun _ => steady_pure _
  | close => exact steady_close

theorem Loading.steady_operation (o : ResourceOperation) : o.act.IsSteadyBeside keys known := by
  cases o with
  | load o => exact steady_loading hkeys o
  | bindTo location => exact steady_bindTo location
  | respond b => exact steady_bind (steady_respond hkeys b) fun _ => steady_pure _
  | orders limit => exact steady_bind (steady_orders hkeys limit) fun _ => steady_pure _
  | changeKey newKey => exact matches_changeKey hkeys (hkeys.refl newKey)

omit hkeys in
/-- Attributes are set to keys that are alike, and to the same of everything else. -/
theorem Client.matches_assign {key key' : Option Key} (hkey : Option.Rel keys key key')
    (kid locale : Option String) (userAgent : String) (verification timeout : Json) :
    (Operation.assign key kid locale userAgent verification timeout).act.Matches keys known Eq
      (Operation.assign key' kid locale userAgent verification timeout).act := by
  unfold Operation.act
  refine matches_modifySession fun s s' hs => ?_
  refine ⟨hkey, ?_, hs.directory, hs.directoryUrl⟩
  rw [hs.rest]

theorem Client.steady_operation (o : Operation) : o.act.IsSteady keys known := by
  cases o with
  | assign key kid locale userAgent verification timeout =>
    exact matches_assign (hkeys.refl_option key) _ _ _ _ _
  | directory => exact steady_bind steady_directory fun _ => steady_pure _
  | endpointUrl name => exact steady_bind (steady_endpointUrl name) fun _ => steady_pure _
  | takeNonce => exact steady_bind steady_takeNonce fun _ => steady_pure _
  | login url key =>
    exact steady_bind (matches_login (hkeys.refl_option key) url) fun _ => steady_pure _
  | createAccount w => exact steady_bind (steady_createAccount hkeys w) fun _ => steady_pure _
  | newOrder identifiers notBefore notAfter =>
    exact steady_bind (steady_newOrder hkeys _ _ _) fun _ => steady_pure _
  | preAuthorize identifier =>
    exact steady_bind (steady_preAuthorize hkeys _) fun _ => steady_pure _
  | bind kind registry location =>
    exact steady_bind (steady_bindResource hkeys _ _ _) fun _ => steady_pure _
  | revoke c reason key => exact matches_revoke hkeys (hkeys.refl_option key) c reason
  | onConnection c o => exact steady_within c (Exchange.steady_operation hkeys o)
  | onResource r o => exact steady_within r (Loading.steady_operation hkeys o)
  | onCertificate r o => exact steady_within r (Holding.steady_certificate hkeys o)

/-- Operations that are alike are in step on clients that are alike. -/
theorem Act.matches_operation {o o' : Operation} (h : o.Alike keys o') :
    o.act.Matches keys known Eq o'.act := by
  cases h with
  | same o => exact Client.steady_operation hkeys o
  | assign h => exact Client.matches_assign h _ _ _ _ _
  | login h url => exact inStep_then (Client.matches_login h url) fun _ => steady_pure _
  | revoke h c reason => exact Client.matches_revoke hkeys h c reason
  | sendSigned h c url claims usesKid wanted =>
    exact matches_within c (inStep_then
      (Exchange.matches_sendSigned hkeys (.refl claims) h url usesKid wanted) fun _ =>
        steady_pure _)
  | changeKey h r => exact matches_within r (Loading.matches_changeKey hkeys h)

/-! ### Runs -/

namespace Client

omit hkeys in
/-- An operation leaves what was sent on record. -/
theorem follows_record (o : Operation) :
    o.act.Follows ((Discipline.related Extends).onto id) (fun _ _ => True) () :=
  Discipline.covers_record.follows_operation o trivial

omit hkeys in
theorem extends_after (env : Environment) (c : Client) (os : List Operation) :
    c.Extends (c.after env os) := by
  induction os generalizing c with
  | nil => exact .refl c
  | cons o os ih =>
    have hfirst : c.Extends (o.act.run env c).2 :=
      related_run Extends.refl Extends.trans (follows_record o) env c
    exact hfirst.trans (ih (o.act.run env c).2)

/-- **Clients that are alike stay alike.** They are alike after operations that are alike, if on the
way their surroundings show them the same. -/
theorem alike_after {os os' : List Operation} (hos : List.Forall₂ (Operation.Alike keys) os os')
    {env env' : Environment} {c c' : Client} (hc : c.Alike keys known c')
    (hmeets : ∀ t t', t.Alike keys known t' → t.Extends (c.after env os) →
      t'.Extends (c'.after env' os') → Meets env env' t t') :
    (c.after env os).Alike keys known (c'.after env' os') := by
  induction hos generalizing c c' with
  | nil => exact hc
  | @cons o o' os os' ho _ ih =>
    have hnext : (o.act.run env c).2.Alike keys known (o'.act.run env' c').2 := by
      refine ((matches_operation hkeys ho).run (follows_record o) (follows_record o') hc ?_).2
      -- what the first operations sent is still on record after the last
      intro t t' ht hextends hextends'
      exact hmeets t t' ht (hextends.trans (extends_after _ _ _))
        (hextends'.trans (extends_after _ _ _))
    exact ih hnext hmeets

end Client

end AcmeClient
