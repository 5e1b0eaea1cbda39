import AcmeClient.Client.Act

/-!
# Disciplines for the steps of acts

What is true of every step of an act is true of every run of it, alone or in turns with other acts.
A discipline keeps account of what an act has in hand, and says which steps it may take with it:

* `Discipline` — where an account fits a state, and which steps are allowed;
* `Act.Follows` — all steps of an act are allowed, whatever happens between them, and its result
  goes with what it has in hand at the end;
* `follows_bind`, `follows_tryCatch`, `follows_onFirst`, `follows_within` — composed acts follow a
  discipline when their parts do;
* `Discipline.Reachable` and `reachable_run` — what a run in a row leads to.
-/

namespace AcmeClient

/-- A way of keeping account `γ` of what acts on a state `σ` have in hand. -/
structure Discipline (γ σ : Type) where
  fits : γ → σ → Prop
  allows : Environment → γ → σ → γ → σ → Prop

namespace Discipline

variable {γ σ τ : Type}

/-- A discipline for a part of the state. -/
def onto (d : Discipline γ σ) (part : τ → σ) : Discipline γ τ :=
  ⟨fun g t => d.fits g (part t), fun env g t g' t' => d.allows env g (part t) g' (part t')⟩

/-- The accounts and states that allowed steps lead to. -/
inductive Reachable (d : Discipline γ σ) (env : Environment) (g : γ) (s : σ) : γ → σ → Prop where
  | refl : Reachable d env g s g s
  | step {g₁ g₂ : γ} {s₁ s₂ : σ} : Reachable d env g s g₁ s₁ → d.allows env g₁ s₁ g₂ s₂ →
      Reachable d env g s g₂ s₂

theorem Reachable.trans {d : Discipline γ σ} {env : Environment} {g₁ g₂ g₃ : γ} {s₁ s₂ s₃ : σ}
    (h : d.Reachable env g₁ s₁ g₂ s₂) (h' : d.Reachable env g₂ s₂ g₃ s₃) :
    d.Reachable env g₁ s₁ g₃ s₃ := by
  induction h' with
  | refl => exact h
  | step _ hs ih => exact ih.step hs

end Discipline

namespace Act

variable {γ σ τ α β : Type}

/-- Whether all steps of an act are allowed, in whatever state that fits the account each of them
starts, and whether a result goes with the account at the end. -/
def Follows (d : Discipline γ σ) (Q : α → γ → Prop) : γ → Act σ α → Prop
  | g, .done r => ∀ a, r = .ok a → Q a g
  | g, .step f k => ∀ env s, d.fits g s →
      ∃ g', d.allows env g s g' (f s) ∧ (k env s).Follows d Q g'

variable {d : Discipline γ σ} {Q R : α → γ → Prop} {g : γ}

theorem follows_done {r : Except Fault α} :
    (Act.done r : Act σ α).Follows d Q g ↔ ∀ a, r = .ok a → Q a g :=
  Iff.rfl

theorem follows_step {f : σ → σ} {k : Environment → σ → Act σ α} :
    (Act.step f k).Follows d Q g ↔
      ∀ env s, d.fits g s → ∃ g', d.allows env g s g' (f s) ∧ (k env s).Follows d Q g' :=
  Iff.rfl

theorem follows_pure {a : α} (h : Q a g) : (pure a : Act σ α).Follows d Q g := by
  intro b hb
  cases hb
  exact h

theorem follows_throw (e : Fault) : (throw e : Act σ α).Follows d Q g := by
  intro b hb
  cases hb

/-- Nothing follows a failure. -/
theorem follows_throw_bind {S : β → γ → Prop} (e : Fault) (y : α → Act σ β) :
    ((throw e : Act σ α) >>= y).Follows d S g := by
  intro b hb
  cases hb

theorem follows_lift (r : Except Fault α) (h : ∀ a, r = .ok a → Q a g) :
    (liftM r : Act σ α).Follows d Q g :=
  h

/-- An act of one step. -/
theorem follows_once {f : σ → σ} {r : Environment → σ → Except Fault α}
    (h : ∀ env s, d.fits g s → ∃ g', d.allows env g s g' (f s) ∧ ∀ a, r env s = .ok a → Q a g') :
    (once f r).Follows d Q g :=
  h

theorem follows_mono {x : Act σ α} (hx : x.Follows d Q g) (h : ∀ a g, Q a g → R a g) :
    x.Follows d R g := by
  induction x generalizing g with
  | done r =>
    intro a ha
    exact h a g (hx a ha)
  | step f k ih =>
    intro env s hs
    obtain ⟨g', hallow, hrest⟩ := hx env s hs
    exact ⟨g', hallow, ih env s hrest⟩

/-- What follows an act starts with what the act has in hand at its end. -/
theorem follows_bind {S : β → γ → Prop} {x : Act σ α} {y : α → Act σ β}
    (hx : x.Follows d Q g) (hy : ∀ a g, Q a g → (y a).Follows d S g) :
    (x >>= y).Follows d S g := by
  induction x generalizing g with
  | done r =>
    cases r with
    | ok a => exact hy a g (hx a rfl)
    | error e => exact follows_throw e
  | step f k ih =>
    intro env s hs
    obtain ⟨g', hallow, hrest⟩ := hx env s hs
    exact ⟨g', hallow, ih env s hrest⟩

/-- What is done after a failure starts with whatever is in hand then. -/
theorem follows_tryCatch {x : Act σ α} {y : Fault → Act σ α} (hx : x.Follows d Q g)
    (hy : ∀ e g, (y e).Follows d Q g) : (tryCatch x y).Follows d Q g := by
  induction x generalizing g with
  | done r =>
    cases r with
    | ok a => exact hx
    | error e => exact hy e g
  | step f k ih =>
    intro env s hs
    obtain ⟨g', hallow, hrest⟩ := hx env s hs
    exact ⟨g', hallow, ih env s hrest⟩

theorem follows_onFirst {x : Act σ α} (hx : x.Follows d Q g) :
    (onFirst x : Act (σ × τ) α).Follows (d.onto Prod.fst) Q g := by
  induction x generalizing g with
  | done r => exact hx
  | step f k ih =>
    intro env s hs
    obtain ⟨g', hallow, hrest⟩ := hx env s.1 hs
    exact ⟨g', hallow, ih env s.1 hrest⟩

theorem follows_within {x : Act (σ × τ) α} (t : τ) (hx : x.Follows (d.onto Prod.fst) Q g) :
    (within t x).Follows d Q g := by
  induction x generalizing g t with
  | done r => exact hx
  | step f k ih =>
    intro env s hs
    obtain ⟨g', hallow, hrest⟩ := hx env (s, t) hs
    exact ⟨g', hallow, ih env (s, t) (f (s, t)).2 hrest⟩

/-- A run in a row leads where allowed steps lead, when these keep the account fitting. -/
theorem reachable_run (hd : ∀ env g s g' s', d.fits g s → d.allows env g s g' s' → d.fits g' s')
    {x : Act σ α} (hx : x.Follows d Q g) (env : Environment) {s : σ} (hs : d.fits g s) :
    ∃ g', d.Reachable env g s g' (x.run env s).2 ∧ ∀ a, (x.run env s).1 = .ok a → Q a g' := by
  induction x generalizing g s with
  | done r => exact ⟨g, .refl, hx⟩
  | step f k ih =>
    obtain ⟨g₁, hallow, hrest⟩ := hx env s hs
    obtain ⟨g', hreach, hQ⟩ := ih env s hrest (hd env g s g₁ (f s) hs hallow)
    exact ⟨g', (Discipline.Reachable.refl.step hallow).trans hreach, hQ⟩

-- the rules above open the definition; a search for a rule must not run the act
attribute [irreducible] Follows

end Act

end AcmeClient
