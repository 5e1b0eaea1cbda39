import AcmeClient.Proofs.Frame

/-!
# Acts in step

Two acts run side by side, each on a state of its own and in surroundings of its own. They are in
step when they take the same steps as long as their surroundings show them the same:

* `Agree` — two results that fail alike, or succeed with values that go together;
* `Meets` — surroundings that show two clients the same clock and the same reply;
* `Act.InStep` — all steps of two acts keep the states together;
* `inStep_bind`, `inStep_tryCatch`, `inStep_onFirst`, `inStep_within` — composed acts are in step
  when their parts are;
* `Act.Steady` — an act that is in step with itself, with the same rules;
* `InStep.run` — acts in step that are shown the same end alike.
-/

namespace AcmeClient

variable {σ τ α β : Type}

/-! ### Results -/

/-- Whether two results fail alike, or succeed with values that go together. -/
inductive Agree (Q : α → α → Prop) : Except Fault α → Except Fault α → Prop where
  | ok {a a' : α} : Q a a' → Agree Q (.ok a) (.ok a')
  | error (e : Fault) : Agree Q (.error e) (.error e)

theorem Agree.refl {Q : α → α → Prop} (hQ : ∀ a, Q a a) (r : Except Fault α) : Agree Q r r := by
  cases r with
  | error e => exact .error e
  | ok a => exact .ok (hQ a)

theorem Agree.bind {Q : α → α → Prop} {S : β → β → Prop} {r r' : Except Fault α}
    {f f' : α → Except Fault β} (h : Agree Q r r') (hf : ∀ a a', Q a a' → Agree S (f a) (f' a')) :
    Agree S (r >>= f) (r' >>= f') := by
  cases h with
  | ok hQ => exact hf _ _ hQ
  | error e => exact .error e

/-! ### What two clients are shown -/

/-- Whether two surroundings show two clients the same: the same clock, and the same reply to the
last request, if there is one. -/
structure Meets (env env' : Environment) (c c' : Client) : Prop where
  clock : env.clock = env'.clock
  reply : c.sent ≠ [] → env.server c.sent = env'.server c'.sent

/-- Whether what was sent stays on record. -/
def Client.Extends (c c' : Client) : Prop :=
  c.sent <+: c'.sent

namespace Client

theorem Extends.refl (c : Client) : c.Extends c :=
  List.prefix_rfl

theorem Extends.trans {c₁ c₂ c₃ : Client} (h : c₁.Extends c₂) (h' : c₂.Extends c₃) :
    c₁.Extends c₃ :=
  List.IsPrefix.trans h h'

theorem Extends.of_sent {c c' : Client} (h : c'.sent = c.sent) : c.Extends c' := by
  refine ⟨[], ?_⟩
  rw [List.append_nil, h]

theorem Extends.of_concat {c c' : Client} {r : Request} (h : c'.sent = c.sent ++ [r]) :
    c.Extends c' :=
  ⟨[r], h.symm⟩

theorem admits_record : Admits Extends where
  reading _ _ _ hr := .of_sent hr
  asking _ _ _ _ _ hr := .of_concat hr
  adding _ _ := .of_sent rfl
  taking _ := .of_sent rfl
  learning _ _ := .of_sent rfl

end Client

/-- All operations leave what was sent on record. -/
theorem Discipline.covers_record : (Discipline.related Client.Extends).Covers Anyhow :=
  Client.admits_record.covers (fun _ _ _ _ hr => .of_concat hr) fun _ _ _ => .of_sent rfl

/-! ### Steps that are taken together -/

namespace Act

/-- Whether two acts take the same steps on states that are near to each other: each step keeps the
states near, and if both clients are then shown the same, what follows is in step, too. The results
go together at the end. -/
def InStep (near : σ → σ → Prop) (client : σ → Client) (Q : α → α → Prop) :
    Act σ α → Act σ α → Prop
  | .done r, .done r' => Agree Q r r'
  | .step f k, .step f' k' => ∀ env env' s s', near s s' → near (f s) (f' s') ∧
      (Meets env env' (client (f s)) (client (f' s')) → (k env s).InStep near client Q (k' env' s'))
  | .done _, .step _ _ => False
  | .step _ _, .done _ => False

/-- States that are near in their first half, and have the second half in common. -/
def Beside (near : σ → σ → Prop) (s s' : σ × τ) : Prop :=
  near s.1 s'.1 ∧ s.2 = s'.2

variable {near : σ → σ → Prop} {client : σ → Client} {Q : α → α → Prop} {S : β → β → Prop}
  {x x' : Act σ α}

theorem inStep_done {r r' : Except Fault α} :
    (Act.done r).InStep near client Q (.done r') ↔ Agree Q r r' :=
  Iff.rfl

theorem inStep_pure {a a' : α} (h : Q a a') : (pure a : Act σ α).InStep near client Q (pure a') :=
  inStep_done.2 (.ok h)

theorem inStep_throw (e : Fault) : (throw e : Act σ α).InStep near client Q (throw e) :=
  inStep_done.2 (.error e)

theorem inStep_lift {r r' : Except Fault α} (h : Agree Q r r') :
    (liftM r : Act σ α).InStep near client Q (liftM r') :=
  h

/-- Acts of one step. -/
theorem inStep_once {f f' : σ → σ} {r r' : Environment → σ → Except Fault α}
    (hf : ∀ s s', near s s' → near (f s) (f' s'))
    (hr : ∀ env env' s s', near s s' → Meets env env' (client (f s)) (client (f' s')) →
      Agree Q (r env s) (r' env' s')) : (once f r).InStep near client Q (once f' r') :=
  fun env env' s s' hs => ⟨hf s s' hs, hr env env' s s' hs⟩

theorem inStep_get : (get : Act σ σ).InStep near client near get :=
  inStep_once (fun _ _ hs => hs) fun _ _ _ _ hs _ => .ok hs

theorem inStep_modify {f f' : σ → σ} (hf : ∀ s s', near s s' → near (f s) (f' s')) :
    (modify f : Act σ PUnit).InStep near client Eq (modify f') :=
  inStep_once hf fun _ _ _ _ _ _ => .ok rfl

/-- The steps of composed acts are those of their parts. -/
theorem inStep_bind {y y' : α → Act σ β} (hx : x.InStep near client Q x')
    (hy : ∀ a a', Q a a' → (y a).InStep near client S (y' a')) :
    (x >>= y).InStep near client S (x' >>= y') := by
  induction x generalizing x' with
  | done r =>
    cases x' with
    | step f' k' => cases hx
    | done r' =>
      cases inStep_done.1 hx with
      | ok h => exact hy _ _ h
      | error e => exact inStep_throw e
  | step f k ih =>
    cases x' with
    | done r' => cases hx
    | step f' k' =>
      intro env env' s s' hs
      obtain ⟨hnear, hrest⟩ := hx env env' s s' hs
      exact ⟨hnear, fun hmeets => ih env s (hrest hmeets)⟩

/-- What follows acts with the same result. -/
theorem inStep_then {y y' : α → Act σ β} (hx : x.InStep near client Eq x')
    (hy : ∀ a, (y a).InStep near client S (y' a)) :
    (x >>= y).InStep near client S (x' >>= y') := by
  refine inStep_bind hx fun a a' h => ?_
  rw [h]
  exact hy a'

/-- What is done after a failure is in step when the failures are alike. -/
theorem inStep_tryCatch {y y' : Fault → Act σ α} (hx : x.InStep near client Q x')
    (hy : ∀ e, (y e).InStep near client Q (y' e)) :
    (tryCatch x y).InStep near client Q (tryCatch x' y') := by
  induction x generalizing x' with
  | done r =>
    cases x' with
    | step f' k' => cases hx
    | done r' =>
      cases inStep_done.1 hx with
      | ok h => exact inStep_pure h
      | error e => exact hy e
  | step f k ih =>
    cases x' with
    | done r' => cases hx
    | step f' k' =>
      intro env env' s s' hs
      obtain ⟨hnear, hrest⟩ := hx env env' s s' hs
      exact ⟨hnear, fun hmeets => ih env s (hrest hmeets)⟩

theorem inStep_onFirst (hx : x.InStep near client Q x') :
    (onFirst x : Act (σ × τ) α).InStep (Beside near) (fun s => client s.1) Q (onFirst x') := by
  induction x generalizing x' with
  | done r =>
    cases x' with
    | step f' k' => cases hx
    | done r' => exact hx
  | step f k ih =>
    cases x' with
    | done r' => cases hx
    | step f' k' =>
      intro env env' s s' hs
      obtain ⟨hnear, hrest⟩ := hx env env' s.1 s'.1 hs.1
      exact ⟨⟨hnear, hs.2⟩, fun hmeets => ih env s.1 (hrest hmeets)⟩

theorem inStep_within {z z' : Act (σ × τ) α} (t : τ)
    (hz : z.InStep (Beside near) (fun s => client s.1) Q z') :
    (within t z).InStep near client Q (within t z') := by
  -- both second halves change, and stay the same as each other
  suffices h : ∀ t t' : τ, t = t' → (within t z).InStep near client Q (within t' z') from h t t rfl
  induction z generalizing z' with
  | done r =>
    cases z' with
    | step f' k' => cases hz
    | done r' => exact fun _ _ _ => hz
  | step f k ih =>
    cases z' with
    | done r' => cases hz
    | step f' k' =>
      intro t t' ht env env' s s' hs
      obtain ⟨hnear, hrest⟩ := hz env env' (s, t) (s', t') ⟨hs, ht⟩
      exact ⟨hnear.1, fun hmeets => ih env (s, t) (hrest hmeets) _ _ hnear.2⟩

/-! ### Acts in step with themselves -/

/-- Whether an act is in step with itself, and gives the same result on states near to each other. -/
def Steady (near : σ → σ → Prop) (client : σ → Client) (x : Act σ α) : Prop :=
  x.InStep near client Eq x

theorem steady_pure (a : α) : (pure a : Act σ α).Steady near client :=
  inStep_pure rfl

theorem steady_throw (e : Fault) : (throw e : Act σ α).Steady near client :=
  inStep_throw e

/-- Nothing follows a failure. -/
theorem steady_throw_bind (e : Fault) (y : α → Act σ β) :
    ((throw e : Act σ α) >>= y).Steady near client :=
  inStep_throw e

theorem steady_lift (r : Except Fault α) : (liftM r : Act σ α).Steady near client :=
  inStep_lift (.refl (fun _ => rfl) r)

theorem steady_bind {y : α → Act σ β} (hx : x.Steady near client)
    (hy : ∀ a, (y a).Steady near client) : (x >>= y).Steady near client :=
  inStep_then hx hy

theorem steady_tryCatch {y : Fault → Act σ α} (hx : x.Steady near client)
    (hy : ∀ e, (y e).Steady near client) : (tryCatch x y).Steady near client :=
  inStep_tryCatch hx hy

theorem steady_mapM {f : β → Act σ α} (hf : ∀ b, (f b).Steady near client) (bs : List β) :
    (bs.mapM f).Steady near client := by
  induction bs with
  | nil => exact steady_pure []
  | cons b bs ih =>
    rw [List.mapM_cons]
    exact steady_bind (hf b) fun a => steady_bind ih fun as => steady_pure (a :: as)

/-- What follows an act whose results go together. -/
theorem steady_of_inStep {y : α → Act σ β} (hx : x.InStep near client Q x)
    (hy : ∀ a a', Q a a' → (y a).InStep near client Eq (y a')) : (x >>= y).Steady near client :=
  inStep_bind hx hy

/-- The second half of a state is the same on both sides. -/
theorem steady_second {client : σ × τ → Client} :
    (do return (← get).2 : Act (σ × τ) τ).Steady (Beside near) client :=
  inStep_bind inStep_get fun _ _ hs => inStep_pure hs.2

/-- A change of the second half only. -/
theorem steady_modifySecond {client : σ × τ → Client} (f : τ → τ) :
    (modify fun s => (s.1, f s.2) : Act (σ × τ) PUnit).Steady (Beside near) client :=
  inStep_modify fun _ _ hs => ⟨hs.1, congrArg f hs.2⟩

/-! ### Runs -/

/-- **Runs in step.** Acts in step that start from states near to each other end alike, in states
near to each other, if on the way their surroundings show them the same. -/
theorem InStep.run {P P' : α → Unit → Prop} (h : x.InStep near client Q x')
    (hx : x.Follows ((Discipline.related Client.Extends).onto client) P ())
    (hx' : x'.Follows ((Discipline.related Client.Extends).onto client) P' ())
    {env env' : Environment} {s s' : σ} (hs : near s s')
    (hmeets : ∀ t t', near t t' → (client t).Extends (client (x.run env s).2) →
      (client t').Extends (client (x'.run env' s').2) → Meets env env' (client t) (client t')) :
    Agree Q (x.run env s).1 (x'.run env' s').1 ∧ near (x.run env s).2 (x'.run env' s').2 := by
  induction x generalizing x' s s' with
  | done r =>
    cases x' with
    | step f' k' => cases h
    | done r' => exact ⟨h, hs⟩
  | step f k ih =>
    cases x' with
    | done r' => cases h
    | step f' k' =>
      obtain ⟨hnear, hrest⟩ := h env env' s s' hs
      obtain ⟨_, -, hx⟩ := follows_step.1 hx env s trivial
      obtain ⟨_, -, hx'⟩ := follows_step.1 hx' env' s' trivial
      -- what is on record after the step is still there at the end
      have hextends := related_run Client.Extends.refl Client.Extends.trans hx env (f s)
      have hextends' := related_run Client.Extends.refl Client.Extends.trans hx' env' (f' s')
      have hnext := hrest (hmeets _ _ hnear hextends hextends')
      exact ih env s hnext hx hx' hnear hmeets

-- the rules above open the definition; a search for a rule must not run the acts
attribute [irreducible] InStep

end Act

end AcmeClient
