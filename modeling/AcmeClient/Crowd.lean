import AcmeClient.Operation
import Mathlib.Logic.Relation

/-!
# Operations in turns

Several operations run on one session at once, as on several connections. Each goes on step by step,
and the steps of different operations follow each other in any order. The pool of nonces is a set:
which of its tokens comes first may change at any time.

* **`Crowd`** is a client with what is left of the operations that began.
* **`Crowd.Step`** begins an operation, takes a step of one, or shuffles the pool;
  **`Crowd.Reaches`** are any number of steps.
* **`Crowd.reaches_after`** says that operations may also run one after the other.
-/

namespace AcmeClient

/-- A client, and what is left of the operations that began. -/
structure Crowd where
  client : Client
  running : List (Act Client Unit)

namespace Crowd

/-- A client for which no operation began. -/
def ofSession (s : Session) : Crowd := ⟨.ofSession s, []⟩

/-- An operation begins, one that began takes a step, or the pool is put into another order. -/
inductive Step (env : Environment) : Crowd → Crowd → Prop where
  | begin {c : Client} {running : List (Act Client Unit)} (o : Operation) :
      Step env ⟨c, running⟩ ⟨c, running ++ [o.act]⟩
  | advance {c : Client} {before after : List (Act Client Unit)} {f : Client → Client}
      {k : Environment → Client → Act Client Unit} :
      Step env ⟨c, before ++ .step f k :: after⟩ ⟨f c, before ++ k env c :: after⟩
  | shuffle {c : Client} {running : List (Act Client Unit)} {tokens : List (List UInt8)} :
      tokens.Perm c.session.nonces.tokens →
      Step env ⟨c, running⟩ ⟨{ c with session := { c.session with nonces := ⟨tokens⟩ } }, running⟩

/-- Any number of steps. -/
abbrev Reaches (env : Environment) : Crowd → Crowd → Prop :=
  Relation.ReflTransGen (Step env)

/-- The steps of an operation may follow each other in a row. -/
theorem reaches_run (env : Environment) (before : List (Act Client Unit)) (x : Act Client Unit)
    (c : Client) :
    Reaches env ⟨c, before ++ [x]⟩ ⟨(x.run env c).2, before ++ [.done (x.run env c).1]⟩ := by
  induction x generalizing c with
  | done r => exact .refl
  | step f k ih => exact (Relation.ReflTransGen.single .advance).trans (ih env c (f c))

/-- Operations may begin and run one after the other. -/
theorem reaches_after (env : Environment) (os : List Operation) (c : Client)
    (running : List (Act Client Unit)) :
    ∃ running', Reaches env ⟨c, running⟩ ⟨c.after env os, running'⟩ := by
  induction os generalizing c running with
  | nil => exact ⟨running, .refl⟩
  | cons o os ih =>
    obtain ⟨running', h⟩ := ih (o.act.run env c).2 (running ++ [.done (o.act.run env c).1])
    refine ⟨running', ?_⟩
    have hbegin : Reaches env ⟨c, running⟩ ⟨c, running ++ [o.act]⟩ := .single (.begin o)
    exact (hbegin.trans (reaches_run env running o.act c)).trans h

end Crowd

end AcmeClient
