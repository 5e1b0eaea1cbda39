import AcmeClient.Proofs.Results

/-!
# Acts that decide at once

The fault that asks to come back is kept for the end of an update: nothing that leads there fails
with it, neither the exchange with the server nor the reading of the answer.

* `Act.IsPrompt` — an act whose failures are all of another sort, in whatever state its steps start;
* `isPrompt_bind`, `isPrompt_tryCatch`, … — how such acts are composed;
* `Client.isPrompt_fetched` — what leads to the end of an update.
-/

namespace AcmeClient

/-! ### Acts -/

namespace Act

variable {σ τ α β : Type}

/-- Whether no failure of an act asks to come back later, in whatever state its steps start. -/
def IsPrompt : Act σ α → Prop
  | .done r => Prompt r
  | .step _ k => ∀ env s, (k env s).IsPrompt

theorem isPrompt_lift {r : Except Fault α} (h : Prompt r) : (liftM r : Act σ α).IsPrompt :=
  h

theorem isPrompt_pure (a : α) : (pure a : Act σ α).IsPrompt :=
  prompt_ok a

theorem isPrompt_throw {e : Fault} (h : e.IsPrompt) : (throw e : Act σ α).IsPrompt :=
  prompt_error h

/-- An act of one step that succeeds. -/
theorem isPrompt_once (f : σ → σ) (r : Environment → σ → α) :
    (once f fun env s => .ok (r env s)).IsPrompt :=
  fun _ _ => prompt_ok _

theorem isPrompt_get : (get : Act σ σ).IsPrompt :=
  isPrompt_once id fun _ s => s

theorem isPrompt_modify (f : σ → σ) : (modify f : Act σ PUnit).IsPrompt :=
  isPrompt_once f fun _ _ => ()

theorem isPrompt_bind {x : Act σ α} {y : α → Act σ β} (hx : x.IsPrompt)
    (hy : ∀ a, (y a).IsPrompt) : (x >>= y).IsPrompt := by
  induction x with
  | done r =>
    cases r with
    | error e => exact prompt_error (hx e rfl)
    | ok a => exact hy a
  | step f k ih => exact fun env s => ih env s (hx env s)

/-- What is done after a failure may rely on the failure. -/
theorem isPrompt_tryCatch {x : Act σ α} {y : Fault → Act σ α} (hx : x.IsPrompt)
    (hy : ∀ e, e.IsPrompt → (y e).IsPrompt) : (tryCatch x y).IsPrompt := by
  induction x with
  | done r =>
    cases r with
    | error e => exact hy e (hx e rfl)
    | ok a => exact hx
  | step f k ih => exact fun env s => ih env s (hx env s)

theorem isPrompt_onFirst {x : Act σ α} (hx : x.IsPrompt) :
    (onFirst x : Act (σ × τ) α).IsPrompt := by
  induction x with
  | done r => exact hx
  | step f k ih => exact fun env s => ih env s.1 (hx env s.1)

theorem isPrompt_within {x : Act (σ × τ) α} (t : τ) (hx : x.IsPrompt) :
    (within t x).IsPrompt := by
  induction x generalizing t with
  | done r => exact hx
  | step f k ih => exact fun env s => ih env (s, t) (f (s, t)).2 (hx env (s, t))

theorem isPrompt_mapM {f : α → Act σ β} (hf : ∀ a, (f a).IsPrompt) (xs : List α) :
    (xs.mapM f).IsPrompt := by
  induction xs with
  | nil => exact isPrompt_pure []
  | cons x xs ih =>
    rw [List.mapM_cons]
    exact isPrompt_bind (hf x) fun _ => isPrompt_bind ih fun _ => isPrompt_pure _

/-- In a run, too, no failure asks to come back. -/
theorem IsPrompt.run {x : Act σ α} (hx : x.IsPrompt) (env : Environment) (s : σ) :
    Prompt (x.run env s).1 := by
  induction x generalizing s with
  | done r => exact hx
  | step f k ih => exact ih env s (hx env s) (f s)

-- the rules above open the definition; a search for a rule must not run the act
attribute [irreducible] IsPrompt

end Act

/-! ### Exchanges -/

open Act

theorem Client.isPrompt_getSession : getSession.IsPrompt :=
  isPrompt_once id fun _ (c : Client) => c.session

namespace Exchange

theorem isPrompt_getSession : (onFirst Client.getSession : Exchange Session).IsPrompt :=
  isPrompt_onFirst Client.isPrompt_getSession

theorem isPrompt_connection : connection.IsPrompt :=
  isPrompt_bind isPrompt_get fun _ => isPrompt_pure _

theorem isPrompt_heldIn (c : Connection) : (liftM c.held : Exchange Response).IsPrompt := by
  refine isPrompt_lift ?_
  unfold Connection.held
  split
  · exact prompt_ok _
  · exact prompt_error trivial

theorem isPrompt_held : held.IsPrompt :=
  isPrompt_bind isPrompt_connection fun c => isPrompt_heldIn c

theorem isPrompt_now : (onFirst Client.now : Exchange Calendar.Instant).IsPrompt :=
  isPrompt_onFirst (isPrompt_once _ fun env (c : Client) => env.clock c.readings)

theorem isPrompt_send (method : Method) (url : String) (headers : List (String × String))
    (body : Option Signed) : (send method url headers body).IsPrompt := by
  refine isPrompt_bind (isPrompt_modify _) fun _ => isPrompt_bind isPrompt_getSession fun _ => ?_
  refine isPrompt_bind (isPrompt_onFirst (isPrompt_once _ fun env c => _)) fun reply => ?_
  cases reply with
  | failure text =>
    refine isPrompt_throw ?_
    unfold Unreachable.fault
    split
    · trivial
    · trivial
  | response r => exact isPrompt_bind (isPrompt_modify _) fun _ => isPrompt_pure _

theorem isPrompt_keepNonce (r : Response) (isRequired : Bool) :
    (keepNonce r isRequired).IsPrompt := by
  unfold keepNonce
  split
  · refine isPrompt_onFirst (isPrompt_bind (isPrompt_lift (prompt_decodeHeaderNonce _)) fun _ => ?_)
    exact isPrompt_once _ fun _ _ => ()
  · cases isRequired with
    | true => exact isPrompt_throw trivial
    | false => exact isPrompt_pure _

theorem isPrompt_sendPlain (url wanted : String) : (sendPlain url wanted).IsPrompt :=
  isPrompt_bind isPrompt_getSession fun _ => isPrompt_bind (isPrompt_send _ _ _ _) fun _ =>
    isPrompt_bind (isPrompt_keepNonce _ _) fun _ => isPrompt_pure _

theorem isPrompt_readProblem : readProblem.IsPrompt :=
  isPrompt_bind isPrompt_connection fun c =>
    isPrompt_bind (isPrompt_heldIn c) fun _ => isPrompt_pure _

theorem isPrompt_links (relation : String) : (links relation).IsPrompt := by
  refine isPrompt_bind isPrompt_connection fun c => isPrompt_bind (isPrompt_heldIn c) fun r => ?_
  split
  · exact isPrompt_pure _
  · exact isPrompt_mapM (fun _ => isPrompt_lift (prompt_wellSplit _)) _

theorem isPrompt_refusalInstant (r : Response) : (refusalInstant r).IsPrompt := by
  unfold refusalInstant
  split
  · exact isPrompt_pure _
  · refine isPrompt_bind isPrompt_now fun now => ?_
    split
    · exact isPrompt_pure _
    · exact isPrompt_pure _
    · rename_i e _ he
      exact isPrompt_throw (prompt_parse _ _ e he)

theorem isPrompt_rejection (r : Response) : (rejection r).IsPrompt := by
  have hkind : ∀ code, (rejectionKind r code).IsPrompt := by
    intro code
    unfold rejectionKind
    split
    · exact isPrompt_bind (isPrompt_refusalInstant r) fun _ => isPrompt_pure _
    · exact isPrompt_pure _
    · exact isPrompt_bind (isPrompt_links _) fun _ => isPrompt_pure _
    · exact isPrompt_pure _
  refine isPrompt_bind isPrompt_readProblem fun p => ?_
  split
  · exact isPrompt_pure _
  · exact isPrompt_bind (isPrompt_lift (prompt_code? _)) fun _ =>
      isPrompt_bind (hkind _) fun _ => isPrompt_pure _

theorem isPrompt_accept (codes : List Int) : (accept codes).IsPrompt := by
  refine isPrompt_bind isPrompt_held fun r => ?_
  split
  · exact isPrompt_pure _
  · exact isPrompt_bind (isPrompt_rejection r) fun _ => isPrompt_throw trivial

theorem isPrompt_readJson : readJson.IsPrompt := by
  refine isPrompt_bind isPrompt_connection fun c => isPrompt_bind (isPrompt_heldIn c) fun r => ?_
  by_cases h : r.content.isEmpty
  · simp only [h, if_true]
    refine isPrompt_bind (isPrompt_throw trivial) fun _ => ?_
    split
    · exact isPrompt_pure _
    · exact isPrompt_throw trivial
  · rw [if_neg h]
    split
    · exact isPrompt_pure _
    · exact isPrompt_throw trivial

theorem isPrompt_retryAfter : retryAfter.IsPrompt := by
  refine isPrompt_bind isPrompt_connection fun c => isPrompt_bind (isPrompt_heldIn c) fun r => ?_
  split
  · exact isPrompt_pure _
  · split
    · exact isPrompt_pure _
    · exact isPrompt_bind isPrompt_now fun now =>
        isPrompt_bind (isPrompt_lift (prompt_parse _ now)) fun _ =>
          isPrompt_bind (isPrompt_modify _) fun _ => isPrompt_pure _

theorem isPrompt_answer : answer.IsPrompt :=
  isPrompt_bind isPrompt_readJson fun _ => isPrompt_bind isPrompt_retryAfter fun _ =>
    isPrompt_pure _

theorem isPrompt_fetchNonce (url : String) : (fetchNonce url).IsPrompt := by
  refine isPrompt_bind isPrompt_getSession fun _ => isPrompt_bind (isPrompt_send _ _ _ _) fun r =>
    isPrompt_bind (isPrompt_accept _) fun _ => ?_
  split
  · exact isPrompt_lift (prompt_decodeHeaderNonce _)
  · exact isPrompt_throw trivial

end Exchange

namespace Client

theorem isPrompt_directory : directory.IsPrompt := by
  refine isPrompt_bind isPrompt_getSession fun session => ?_
  split
  · exact isPrompt_pure _
  · refine isPrompt_bind (isPrompt_within _ ?_) fun ms =>
      isPrompt_bind (isPrompt_lift (prompt_readDirectory ms)) fun _ =>
        isPrompt_bind (isPrompt_once _ fun _ _ => ()) fun _ => isPrompt_pure _
    refine isPrompt_bind (Exchange.isPrompt_sendPlain _ _) fun _ =>
      isPrompt_bind (isPrompt_tryCatch (isPrompt_bind (Exchange.isPrompt_accept _) fun _ =>
        isPrompt_pure _) ?_) fun _ => Exchange.isPrompt_readJson
    intro e he
    split
    · refine isPrompt_throw ?_
      unfold directoryFault
      split
      · trivial
      · trivial
    · exact isPrompt_throw he

theorem isPrompt_takeNonce : takeNonce.IsPrompt := by
  refine isPrompt_bind (isPrompt_once _ fun _ c => _) fun t => ?_
  split
  · exact isPrompt_pure _
  · refine isPrompt_within _ (isPrompt_bind (isPrompt_onFirst ?_) fun _ =>
      Exchange.isPrompt_fetchNonce _)
    exact isPrompt_bind isPrompt_directory fun d => isPrompt_lift (prompt_url d _)

end Client

theorem Exchange.isPrompt_fetch (url wanted : String) : (fetch url wanted).IsPrompt := by
  have hpost : (postOnce url .nothing .session wanted).IsPrompt := by
    refine isPrompt_bind isPrompt_getSession fun session => ?_
    split
    · exact isPrompt_throw trivial
    · exact isPrompt_bind (isPrompt_lift (prompt_ok _)) fun _ =>
        isPrompt_bind (isPrompt_onFirst Client.isPrompt_takeNonce) fun _ =>
          isPrompt_bind (isPrompt_lift (prompt_request _ _ _ _ _)) fun _ =>
            isPrompt_bind isPrompt_getSession fun _ => isPrompt_bind (isPrompt_send _ _ _ _) fun _ =>
              isPrompt_bind (isPrompt_keepNonce _ _) fun _ => isPrompt_pure _
  have hrefuses : refusesNonce.IsPrompt := by
    refine isPrompt_bind isPrompt_readProblem fun p => ?_
    split
    · exact isPrompt_pure _
    · exact isPrompt_bind (isPrompt_lift (prompt_code? _)) fun _ => isPrompt_pure _
  refine isPrompt_bind isPrompt_getSession fun session => ?_
  split
  · refine isPrompt_bind hpost fun status => ?_
    split
    · refine isPrompt_bind hrefuses fun refused => ?_
      split
      · exact hpost
      · exact isPrompt_pure _
    · exact isPrompt_pure _
  · exact isPrompt_sendPlain _ _

/-- The exchange of an update fails with no fault that asks to come back. -/
theorem Client.isPrompt_fetched (url : String) : (fetched url).IsPrompt :=
  isPrompt_within _ (isPrompt_bind (Exchange.isPrompt_fetch _ _) fun _ =>
    isPrompt_bind (Exchange.isPrompt_accept _) fun _ => Exchange.isPrompt_answer)

end AcmeClient
