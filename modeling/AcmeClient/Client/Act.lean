import AcmeClient.Fault.Basic
import AcmeClient.Http.Exchange

/-!
# Acts

What a client does depends on a server and a clock, changes a state step by step, and may fail. A
failure keeps what was done before it. Every step happens at once; several acts on one state take
turns between their steps.

* **`Environment`** is the server and the clock.
* **`Act σ α`** is an act on a state `σ` with the result `α`; **`Act.run`** does all its steps in a
  row.
* **`Act.once`** is an act of one step.
* **`Act.onFirst`** acts on the first half of a pair, **`Act.within`** adds a second half for the time
  of an act.
-/

namespace AcmeClient

open Calendar

/-- What surrounds a client: a server, and a clock with an instant for each reading. -/
structure Environment where
  server : Server
  clock : Nat → Instant

/-- An act on a state: it is over, or a step changes the state and what follows depends on the
surroundings and on the state before the step. -/
inductive Act (σ α : Type) : Type where
  | done (r : Except Fault α) : Act σ α
  | step (f : σ → σ) (k : Environment → σ → Act σ α) : Act σ α

namespace Act

variable {σ τ α β : Type}

/-- The result of an act and the state that it leaves when nothing else happens in between. -/
def run : Act σ α → Environment → σ → Except Fault α × σ
  | .done r, _, s => (r, s)
  | .step f k, env, s => (k env s).run env (f s)

instance : CoeFun (Act σ α) fun _ => Environment → σ → Except Fault α × σ :=
  ⟨Act.run⟩

/-- One step that changes the state by `f`, with a result. -/
def once (f : σ → σ) (r : Environment → σ → Except Fault α) : Act σ α :=
  .step f fun env s => .done (r env s)

protected def pure (a : α) : Act σ α :=
  .done (.ok a)

/-- One act after another; the second is left out when the first fails. -/
protected def bind : Act σ α → (α → Act σ β) → Act σ β
  | .done (.ok a), g => g a
  | .done (.error e), _ => .done (.error e)
  | .step f k, g => .step f fun env s => (k env s).bind g

instance : Monad (Act σ) where
  pure := Act.pure
  bind := Act.bind

protected theorem bind_pure (x : Act σ α) : x.bind Act.pure = x := by
  induction x with
  | done r => cases r <;> rfl
  | step f k ih => exact congrArg (step f) (funext fun env => funext fun s => ih env s)

protected theorem bind_assoc (x : Act σ α) (g : α → Act σ β) {γ : Type} (h : β → Act σ γ) :
    (x.bind g).bind h = x.bind fun a => (g a).bind h := by
  induction x with
  | done r => cases r <;> rfl
  | step f k ih => exact congrArg (step f) (funext fun env => funext fun s => ih env s)

instance : LawfulMonad (Act σ) :=
  LawfulMonad.mk' (Act σ) Act.bind_pure (fun _ _ => rfl) fun x g h => Act.bind_assoc x g h

def fail (e : Fault) : Act σ α :=
  .done (.error e)

/-- An act, and what to do when it fails, in the state that the failure left. -/
def orElse : Act σ α → (Fault → Act σ α) → Act σ α
  | .done (.ok a), _ => .done (.ok a)
  | .done (.error e), handle => handle e
  | .step f k, handle => .step f fun env s => (k env s).orElse handle

instance : MonadExceptOf Fault (Act σ) where
  throw := fail
  tryCatch := orElse

instance : MonadStateOf σ (Act σ) where
  get := once id fun _ s => .ok s
  set s := once (fun _ => s) fun _ _ => .ok ()
  modifyGet f := once (fun s => (f s).2) fun _ s => .ok (f s).1

/-- A result that is known without acting. -/
def ofExcept (r : Except Fault α) : Act σ α :=
  .done r

instance : MonadLift (Except Fault) (Act σ) where
  monadLift := ofExcept

/-- An act on the first half of a pair. -/
def onFirst : Act σ α → Act (σ × τ) α
  | .done r => .done r
  | .step f k => .step (fun s => (f s.1, s.2)) fun env s => (k env s.1).onFirst

/-- An act on a pair whose second half is there for the time of the act only. -/
def within : τ → Act (σ × τ) α → Act σ α
  | _, .done r => .done r
  | t, .step f k =>
      .step (fun s => (f (s, t)).1) fun env s => (k env (s, t)).within (f (s, t)).2

/-! ### Runs of composed acts -/

variable (env : Environment)

@[simp] theorem run_once (f : σ → σ) (r : Environment → σ → Except Fault α) (s : σ) :
    (once f r).run env s = (r env s, f s) := rfl

@[simp] theorem run_pure (a : α) (s : σ) : (pure a : Act σ α).run env s = (.ok a, s) := rfl

@[simp] theorem run_throw (e : Fault) (s : σ) :
    (throw e : Act σ α).run env s = (.error e, s) := rfl

@[simp] theorem run_get (s : σ) : (get : Act σ σ).run env s = (.ok s, s) := rfl

@[simp] theorem run_modify (f : σ → σ) (s : σ) :
    (modify f : Act σ PUnit).run env s = (.ok (), f s) := rfl

@[simp] theorem run_lift (r : Except Fault α) (s : σ) :
    (liftM r : Act σ α).run env s = (r, s) := rfl

theorem run_bind (x : Act σ α) (g : α → Act σ β) (s : σ) :
    (x >>= g).run env s =
      match x.run env s with
      | (.ok a, t) => (g a).run env t
      | (.error e, t) => (.error e, t) := by
  induction x generalizing s with
  | done r => cases r <;> rfl
  | step f k ih => exact ih env s (f s)

theorem run_tryCatch (x : Act σ α) (handle : Fault → Act σ α) (s : σ) :
    (tryCatch x handle).run env s =
      match x.run env s with
      | (.error e, t) => (handle e).run env t
      | r => r := by
  induction x generalizing s with
  | done r => cases r <;> rfl
  | step f k ih => exact ih env s (f s)

@[simp] theorem run_onFirst (x : Act σ α) (s : σ × τ) :
    (onFirst x).run env s = ((x.run env s.1).1, ((x.run env s.1).2, s.2)) := by
  induction x generalizing s with
  | done r => rfl
  | step f k ih => exact ih env s.1 (f s.1, s.2)

@[simp] theorem run_within (t : τ) (x : Act (σ × τ) α) (s : σ) :
    (within t x).run env s = ((x.run env (s, t)).1, (x.run env (s, t)).2.1) := by
  induction x generalizing s t with
  | done r => rfl
  | step f k ih => exact ih env (s, t) (f (s, t)).2 (f (s, t)).1

/-- What follows a step that succeeds starts from the state that the step leaves. -/
theorem run_bind_of_ok {x : Act σ α} {g : α → Act σ β} {s t : σ} {a : α}
    (h : x.run env s = (.ok a, t)) : (x >>= g).run env s = (g a).run env t := by
  rw [run_bind, h]

/-- Nothing follows a step that fails. -/
theorem run_bind_of_error {x : Act σ α} {g : α → Act σ β} {s t : σ} {e : Fault}
    (h : x.run env s = (.error e, t)) : (x >>= g).run env s = (.error e, t) := by
  rw [run_bind, h]

/-- An act whose result is left out runs as it does with it. -/
theorem run_discard (x : Act σ α) (s : σ) :
    (do let _ ← x : Act σ Unit).run env s = ((x.run env s).1.map fun _ => (), (x.run env s).2) := by
  rw [run_bind]
  rcases x.run env s with ⟨_ | a, t⟩
  · rfl
  · rfl

/-- A composed act succeeds when both parts do. -/
theorem run_bind_eq_ok {x : Act σ α} {g : α → Act σ β} {s u : σ} {b : β} :
    (x >>= g).run env s = (.ok b, u) ↔
      ∃ a t, x.run env s = (.ok a, t) ∧ (g a).run env t = (.ok b, u) := by
  rw [run_bind]
  rcases x.run env s with ⟨_ | a, t⟩
  · simp
  · simp [and_assoc]

end Act

end AcmeClient
