import AcmeClient.Proofs.Results
import Mathlib.Data.List.Perm.Basic

/-!
# Pools that clients share

Clients offer nonces to one pool and take them out of it, call after call. The pool is a set: which
of its tokens a client gets is left open.

* `NoncePool.IsOrdered` — pools without repetition, which calls lead to;
* `NoncePool.takes_iff` — a token that waits is taken, whichever it is, and `takes_take`: the least
  one is among them;
* `NoncePool.Step`, `NoncePool.Run` — one call of a client, and calls in a row;
* `NonceCall.waitsAfter`, `freshOffers`, `handedOut` — what calls say about a token;
* `NoncePool.step_cases` — a call adds the token it offers, hands one out, or changes nothing;
* `NoncePool.Run.balance` — what is handed out and what waits are what was offered;
* `NoncePool.calls_are_accounted` — the account of all calls on a new pool.
-/

namespace AcmeClient

namespace NoncePool

/-! ### Pools as sets -/

/-- Whether the tokens ascend, so that none is repeated. -/
def IsOrdered (p : NoncePool) : Prop :=
  p.tokens.Pairwise (· < ·)

/-- Whether a client may take something, or nothing, out of a pool and leave another one: it takes
what comes first in some order of the tokens. -/
def Takes (p : NoncePool) (r : Option (List UInt8)) (q : NoncePool) : Prop :=
  ∃ order : NoncePool, order.tokens.Perm p.tokens ∧ order.take.1 = r ∧
    order.take.2.tokens.Perm q.tokens ∧ q.IsOrdered

theorem mem_insert {t u : List UInt8} {ts : List (List UInt8)} :
    u ∈ insert t ts ↔ u = t ∨ u ∈ ts := by
  induction ts with
  | nil => simp [insert]
  | cons v ts ih =>
    rw [insert]
    split
    · rename_i heq
      simp [heq]
    split
    · simp
    · rw [List.mem_cons, ih, List.mem_cons, or_left_comm]

theorem pairwise_insert {t : List UInt8} {ts : List (List UInt8)} (h : ts.Pairwise (· < ·)) :
    (insert t ts).Pairwise (· < ·) := by
  induction ts with
  | nil => exact List.pairwise_singleton _ t
  | cons v ts ih =>
    obtain ⟨hv, hts⟩ := List.pairwise_cons.1 h
    rw [insert]
    by_cases heq : t = v
    · rw [if_pos heq]
      exact h
    by_cases hlt : t < v
    · rw [if_neg heq, if_pos hlt]
      refine List.pairwise_cons.2 ⟨fun u hu => ?_, h⟩
      rcases List.mem_cons.1 hu with rfl | hu
      · exact hlt
      · exact List.lt_trans hlt (hv u hu)
    · rw [if_neg heq, if_neg hlt]
      have hgt : v < t := Std.lt_of_le_of_ne (List.not_lt.1 hlt) (Ne.symm heq)
      refine List.pairwise_cons.2 ⟨fun u hu => ?_, ih hts⟩
      rcases mem_insert.1 hu with rfl | hu
      · exact hgt
      · exact hv u hu

variable {p q : NoncePool} {t : List UInt8}

theorem isOrdered_empty : empty.IsOrdered :=
  List.Pairwise.nil

theorem IsOrdered.add (h : p.IsOrdered) (t : List UInt8) : (p.add t).IsOrdered :=
  pairwise_insert h

theorem IsOrdered.nodup (h : p.IsOrdered) : p.tokens.Nodup :=
  List.Pairwise.imp (fun {t u} (hlt : t < u) (heq : t = u) => List.lt_irrefl u (heq ▸ hlt)) h

/-- Pools with the same tokens are the same. -/
theorem IsOrdered.eq_of_perm (hp : p.IsOrdered) (hq : q.IsOrdered) (h : p.tokens.Perm q.tokens) :
    p = q := by
  obtain ⟨ts⟩ := p
  obtain ⟨us⟩ := q
  have heq : ts = us :=
    h.eq_of_pairwise (fun _ _ _ _ hlt hgt => absurd hgt (List.lt_asymm hlt)) hp hq
  rw [heq]

/-- Nothing is taken of an empty pool, and of another one any of its tokens. -/
theorem takes_iff (hp : p.IsOrdered) {r : Option (List UInt8)} :
    p.Takes r q ↔ (p.tokens = [] ∧ r = none ∧ q = p) ∨
      ∃ t ∈ p.tokens, r = some t ∧ q = ⟨p.tokens.erase t⟩ := by
  have herase : ∀ t, IsOrdered ⟨p.tokens.erase t⟩ := fun t => hp.sublist List.erase_sublist
  constructor
  · rintro ⟨⟨order⟩, hperm, hr, hleft, hq⟩
    cases order with
    | nil =>
      have hnil : p.tokens = [] := hperm.nil_eq.symm
      refine .inl ⟨hnil, hr.symm, hq.eq_of_perm hp ?_⟩
      rw [hnil]
      exact hleft.symm
    | cons t rest =>
      refine .inr ⟨t, hperm.subset List.mem_cons_self, hr.symm, hq.eq_of_perm (herase t) ?_⟩
      exact hleft.symm.trans (List.cons_perm_iff_perm_erase.1 hperm).2
  · rintro (⟨hnil, rfl, rfl⟩ | ⟨t, ht, rfl, rfl⟩)
    · have htake : q.take = (none, q) := by rw [take, hnil]
      exact ⟨q, .refl _, by rw [htake], by rw [htake], hp⟩
    · exact ⟨⟨t :: p.tokens.erase t⟩, (List.perm_cons_erase ht).symm, rfl, .refl _, herase t⟩

/-- What is taken and what is left make up the pool. -/
theorem Takes.perm (h : p.Takes (some t) q) : (t :: q.tokens).Perm p.tokens := by
  obtain ⟨⟨order⟩, hperm, htake, hleft, -⟩ := h
  cases order with
  | nil => cases htake
  | cons u rest =>
    obtain rfl : u = t := Option.some.inj htake
    exact (hleft.symm.cons u).trans hperm

/-- A token may be taken if it waits. -/
theorem exists_takes_iff (hp : p.IsOrdered) : (∃ q, p.Takes (some t) q) ↔ t ∈ p.tokens := by
  constructor
  · rintro ⟨q, hq⟩
    rcases (takes_iff hp).1 hq with ⟨-, hnone, -⟩ | ⟨u, hu, hsome, -⟩
    · cases hnone
    · cases hsome
      exact hu
  · exact fun ht => ⟨_, (takes_iff hp).2 (.inr ⟨t, ht, rfl, rfl⟩)⟩

/-- To take the least token is one of the ways to take one. -/
theorem takes_take (hp : p.IsOrdered) : p.Takes p.take.1 p.take.2 := by
  obtain ⟨ts⟩ := p
  refine ⟨⟨ts⟩, .refl _, rfl, .refl _, ?_⟩
  cases ts with
  | nil => exact hp
  | cons t rest => exact List.Pairwise.of_cons hp

end NoncePool

/-! ### Calls -/

/-- A call of one of some clients, with what came of it. -/
inductive NonceCall (ι : Type) where
  | offer (client : ι) (text : String) (result : Except Fault Unit)
  | take (client : ι) (result : Option (List UInt8))

variable {ι : Type}

namespace NonceCall

/-- The token that an offer brings in if it is accepted. -/
def offered? : NonceCall ι → Option (List UInt8)
  | .offer _ text (.ok ()) => (decodeHeaderNonce text).toOption
  | .offer _ _ (.error _) => none
  | .take _ _ => none

/-- The token that is handed out. -/
def handed? : NonceCall ι → Option (List UInt8)
  | .offer _ _ _ => none
  | .take _ r => r

/-- Whether a token waits after a call, by whether it waits before. -/
def waitsAfter (t : List UInt8) (waits : Bool) (e : NonceCall ι) : Bool :=
  if e.offered? = some t then true else if e.handed? = some t then false else waits

end NonceCall

/-- How often calls hand a token out. -/
def handedOut (t : List UInt8) (es : List (NonceCall ι)) : Nat :=
  es.countP fun e => e.handed? = some t

/-- How often calls offer a token that does not wait already. -/
def freshOffers (t : List UInt8) : Bool → List (NonceCall ι) → Nat
  | _, [] => 0
  | waits, e :: es =>
      (if e.offered? = some t ∧ waits = false then 1 else 0) + freshOffers t (e.waitsAfter t waits) es

namespace NoncePool

def waits (p : NoncePool) (t : List UInt8) : Bool :=
  decide (t ∈ p.tokens)

/-- A call of a client. -/
inductive Step (p : NoncePool) : NonceCall ι → NoncePool → Prop where
  | offer {text : String} {q : NoncePool} (client : ι) : p.offer text = .ok q →
      Step p (.offer client text (.ok ())) q
  | refuse {text : String} {f : Fault} (client : ι) : p.offer text = .error f →
      Step p (.offer client text (.error f)) p
  | take {r : Option (List UInt8)} {q : NoncePool} (client : ι) : p.Takes r q →
      Step p (.take client r) q

/-- Calls, one after the other. -/
inductive Run : NoncePool → List (NonceCall ι) → NoncePool → Prop where
  | nil {p : NoncePool} : Run p [] p
  | cons {p p' q : NoncePool} {e : NonceCall ι} {es : List (NonceCall ι)} :
      Step p e p' → Run p' es q → Run p (e :: es) q

variable {p q : NoncePool} {t : List UInt8} {e : NonceCall ι} {es : List (NonceCall ι)}

/-! ### One call -/

/-- A call adds the token that it offers, hands one out that waits, or leaves the pool alone. -/
theorem step_cases (hp : p.IsOrdered) (h : Step p e q) :
    (∃ t, e.offered? = some t ∧ e.handed? = none ∧ q = p.add t) ∨
      (∃ t ∈ p.tokens, e.offered? = none ∧ e.handed? = some t ∧ q = ⟨p.tokens.erase t⟩) ∨
      (e.offered? = none ∧ e.handed? = none ∧ q = p) := by
  cases h with
  | offer client hoffer =>
    obtain ⟨t, hdecode, rfl⟩ := map_eq_ok.1 hoffer
    exact .inl ⟨t, by rw [NonceCall.offered?, hdecode]; rfl, rfl, rfl⟩
  | refuse client hoffer => exact .inr (.inr ⟨rfl, rfl, rfl⟩)
  | take client htakes =>
    rcases (takes_iff hp).1 htakes with ⟨-, rfl, rfl⟩ | ⟨t, ht, rfl, rfl⟩
    · exact .inr (.inr ⟨rfl, rfl, rfl⟩)
    · exact .inr (.inl ⟨t, ht, rfl, rfl, rfl⟩)

theorem Step.isOrdered (h : Step p e q) (hp : p.IsOrdered) : q.IsOrdered := by
  rcases step_cases hp h with ⟨t, -, -, rfl⟩ | ⟨t, -, -, -, rfl⟩ | ⟨-, -, rfl⟩
  · exact hp.add t
  · exact hp.sublist List.erase_sublist
  · exact hp

/-- Which tokens wait after a call can be told from the call. -/
theorem Step.waits_eq (h : Step p e q) (hp : p.IsOrdered) (t : List UInt8) :
    q.waits t = e.waitsAfter t (p.waits t) := by
  rw [NonceCall.waitsAfter]
  rcases step_cases hp h with ⟨u, hoff, hhand, rfl⟩ | ⟨u, hu, hoff, hhand, rfl⟩ | ⟨hoff, hhand, rfl⟩
  · by_cases htu : u = t
    · simp [hoff, htu, waits, NoncePool.add, mem_insert]
    · simp [hoff, hhand, htu, Ne.symm htu, waits, NoncePool.add, mem_insert]
  · by_cases htu : u = t
    · simp [hoff, hhand, htu, waits, hp.nodup.mem_erase_iff]
    · simp [hoff, hhand, htu, Ne.symm htu, waits, hp.nodup.mem_erase_iff]
  · simp [hoff, hhand]

/-- A call hands out what waits, and what it offers waits. -/
theorem Step.balance (h : Step p e q) (hp : p.IsOrdered) (t : List UInt8) :
    (if e.handed? = some t then 1 else 0) + (q.waits t).toNat
      = (p.waits t).toNat + (if e.offered? = some t ∧ p.waits t = false then 1 else 0) := by
  have hwaits := h.waits_eq hp t
  rw [NonceCall.waitsAfter] at hwaits
  rcases step_cases hp h with ⟨u, hoff, hhand, -⟩ | ⟨u, hu, hoff, hhand, -⟩ | ⟨hoff, hhand, -⟩
  · by_cases htu : u = t
    · cases hw : p.waits t <;> simp [hwaits, hoff, hhand, htu]
    · simp [hwaits, hoff, hhand, htu]
  · -- only what waits is handed out
    by_cases htu : u = t
    · have hw : p.waits t = true := decide_eq_true (htu ▸ hu)
      simp [hwaits, hoff, hhand, htu, hw]
    · simp [hwaits, hoff, hhand, htu]
  · simp [hwaits, hoff, hhand]

/-! ### Calls in a row -/

theorem Run.isOrdered (h : Run p es q) (hp : p.IsOrdered) : q.IsOrdered := by
  induction h with
  | nil => exact hp
  | cons hstep _ ih => exact ih (hstep.isOrdered hp)

theorem run_append {fs : List (NonceCall ι)} :
    Run p (es ++ fs) q ↔ ∃ p', Run p es p' ∧ Run p' fs q := by
  constructor
  · intro h
    induction es generalizing p with
    | nil => exact ⟨p, .nil, h⟩
    | cons e es ih =>
      cases h with
      | cons hstep hrest =>
        obtain ⟨p', hes, hfs⟩ := ih hrest
        exact ⟨p', .cons hstep hes, hfs⟩
  · rintro ⟨p', hes, hfs⟩
    induction hes with
    | nil => exact hfs
    | cons hstep _ ih => exact .cons hstep (ih hfs)

/-- A call in a row of calls is made on the pool that the calls before it leave. -/
theorem run_append_cons {fs : List (NonceCall ι)} : Run p (es ++ e :: fs) q ↔
    ∃ p' q', Run p es p' ∧ Step p' e q' ∧ Run q' fs q := by
  rw [run_append]
  constructor
  · rintro ⟨p', hes, hrest⟩
    cases hrest with
    | cons hstep hfs => exact ⟨p', _, hes, hstep, hfs⟩
  · rintro ⟨p', q', hes, hstep, hfs⟩
    exact ⟨p', hes, .cons hstep hfs⟩

/-- Which tokens wait can be told from the calls. -/
theorem Run.waits_eq (h : Run p es q) (hp : p.IsOrdered) (t : List UInt8) :
    q.waits t = es.foldl (NonceCall.waitsAfter t) (p.waits t) := by
  induction h with
  | nil => rfl
  | cons hstep _ ih => rw [List.foldl_cons, ← hstep.waits_eq hp, ih (hstep.isOrdered hp)]

/-- What was handed out and what waits are what waited and what was offered. -/
theorem Run.balance (h : Run p es q) (hp : p.IsOrdered) (t : List UInt8) :
    handedOut t es + (q.waits t).toNat = (p.waits t).toNat + freshOffers t (p.waits t) es := by
  induction h with
  | nil => simp [handedOut, freshOffers]
  | @cons p p' q e es hstep _ ih =>
    have hhere := hstep.balance hp t
    have hrest := ih (hstep.isOrdered hp)
    have hcount : handedOut t (e :: es)
        = handedOut t es + (if e.handed? = some t then 1 else 0) := by
      simp [handedOut, List.countP_cons]
    rw [freshOffers, ← hstep.waits_eq hp, hcount]
    omega

/-- What waits was offered unless it waited before. -/
theorem Run.exists_offered (h : Run p es q) (hp : p.IsOrdered) (ht : q.waits t = true) :
    p.waits t = true ∨ ∃ e ∈ es, e.offered? = some t := by
  induction h with
  | nil => exact .inl ht
  | @cons p p' q e es hstep _ ih =>
    rcases ih (hstep.isOrdered hp) ht with hwaits | ⟨e', he', hoff⟩
    · rw [hstep.waits_eq hp, NonceCall.waitsAfter] at hwaits
      by_cases hoff : e.offered? = some t
      · exact .inr ⟨e, List.mem_cons_self, hoff⟩
      · rw [if_neg hoff] at hwaits
        split at hwaits
        · cases hwaits
        · exact .inl hwaits
    · exact .inr ⟨e', List.mem_cons_of_mem _ he', hoff⟩

/-- What waited waits or was handed out. -/
theorem Run.waits_or_handed (h : Run p es q) (hp : p.IsOrdered) (ht : p.waits t = true) :
    q.waits t = true ∨ ∃ e ∈ es, e.handed? = some t := by
  induction h with
  | nil => exact .inl ht
  | @cons p p' q e es hstep _ ih =>
    by_cases hhand : e.handed? = some t
    · exact .inr ⟨e, List.mem_cons_self, hhand⟩
    · have hwaits : p'.waits t = true := by
        rw [hstep.waits_eq hp, NonceCall.waitsAfter, if_neg hhand, ht, ite_self]
      rcases ih (hstep.isOrdered hp) hwaits with hq | ⟨e', he', hhand'⟩
      · exact .inl hq
      · exact .inr ⟨e', List.mem_cons_of_mem _ he', hhand'⟩

/-! ### The account -/

/-- The account of calls that leave a pool: the calls tell which tokens wait; of each token what was
handed out and what waits are the offers that found it gone; what is handed out was offered; an
offer that was accepted waits or was handed out after it; and nothing is handed out just if nothing
waits. -/
structure IsAccounted (es : List (NonceCall ι)) (q : NoncePool) : Prop where
  waiting : ∀ t, t ∈ q.tokens ↔ es.foldl (NonceCall.waitsAfter t) false = true
  balance : ∀ t, handedOut t es + (if t ∈ q.tokens then 1 else 0) = freshOffers t false es
  handed : ∀ before client t after, es = before ++ .take client (some t) :: after →
    ∃ e ∈ before, e.offered? = some t
  kept : ∀ before client text after, es = before ++ .offer client text (.ok ()) :: after →
    ∃ t, decodeHeaderNonce text = .ok t ∧ (t ∈ q.tokens ∨ ∃ e ∈ after, e.handed? = some t)
  none_iff : ∀ before client r after, es = before ++ .take client r :: after →
    ∃ p p', Run empty before p ∧ Step p (.take client r) p' ∧ Run p' after q ∧
      (r = none ↔ p.tokens = [])

/-- **Nonces are accounted for.** Whatever clients call, in any order and whichever tokens they
get, the calls on a new pool are accounted for. -/
theorem calls_are_accounted (h : Run empty es q) : IsAccounted es q := by
  have hwaits := h.waits_eq isOrdered_empty
  have hbalance := h.balance isOrdered_empty
  constructor
  case waiting =>
    intro t
    rw [← show empty.waits t = false from rfl, ← hwaits t]
    exact decide_eq_true_iff.symm
  case balance =>
    intro t
    have hcount : handedOut t es + (q.waits t).toNat = freshOffers t false es :=
      (hbalance t).trans (Nat.zero_add _)
    rw [← hcount, waits]
    split <;> simp [*]
  case handed =>
    rintro before client t after rfl
    obtain ⟨p, q', hbefore, hstep, -⟩ := run_append_cons.1 h
    have hp := hbefore.isOrdered isOrdered_empty
    cases hstep with
    | take _ htakes =>
      rcases (takes_iff hp).1 htakes with ⟨-, hr, -⟩ | ⟨u, hu, hr, -⟩
      · cases hr
      · cases hr
        rcases hbefore.exists_offered isOrdered_empty (decide_eq_true hu) with hempty | hoff
        · cases hempty
        · exact hoff
  case kept =>
    rintro before client text after rfl
    obtain ⟨p, q', hbefore, hstep, hafter⟩ := run_append_cons.1 h
    have hq' := hstep.isOrdered (hbefore.isOrdered isOrdered_empty)
    cases hstep with
    | offer _ hoffer =>
      obtain ⟨t, hdecode, rfl⟩ := map_eq_ok.1 hoffer
      have ht : (p.add t).waits t = true := decide_eq_true (mem_insert.2 (.inl rfl))
      exact ⟨t, hdecode, (hafter.waits_or_handed hq' ht).imp_left of_decide_eq_true⟩
  case none_iff =>
    rintro before client r after rfl
    obtain ⟨p, q', hbefore, hstep, hafter⟩ := run_append_cons.1 h
    refine ⟨p, q', hbefore, hstep, hafter, ?_⟩
    cases hstep with
    | take _ htakes =>
      rcases (takes_iff (hbefore.isOrdered isOrdered_empty)).1 htakes with
        ⟨hnil, rfl, -⟩ | ⟨t, ht, rfl, -⟩
      · exact iff_of_true rfl hnil
      · exact iff_of_false (Option.some_ne_none t) (List.ne_nil_of_mem ht)

/-- Two clients. The text of one nonce is offered by both, and once more after it was taken. -/
def sampleCalls : List (NonceCall Bool) :=
  [.offer true "Zm9v" (.ok ()), .offer false "Zm9v" (.ok ()), .offer false "YmFy" (.ok ()),
    .take true (some [102, 111, 111]), .offer true "Zm9v" (.ok ()),
    .take false (some [102, 111, 111])]

theorem calls_are_accounted_sample :
    Run empty sampleCalls ⟨[[98, 97, 114]]⟩ ∧ IsAccounted sampleCalls ⟨[[98, 97, 114]]⟩ ∧
      handedOut [102, 111, 111] sampleCalls = 2 := by
  have hboth : IsOrdered ⟨[[98, 97, 114], [102, 111, 111]]⟩ :=
    (by decide : List.Pairwise (· < ·) [[98, 97, 114], [102, 111, (111 : UInt8)]])
  have hfoo : Takes ⟨[[98, 97, 114], [102, 111, 111]]⟩ (some [102, 111, 111]) ⟨[[98, 97, 114]]⟩ :=
    (takes_iff hboth).2 (.inr ⟨_, by decide, rfl, by decide⟩)
  have hfirst : empty.offer "Zm9v" = .ok ⟨[[102, 111, 111]]⟩ :=
    eq_ok_of_toOption (by decide +kernel)
  have hagain : offer ⟨[[102, 111, 111]]⟩ "Zm9v" = .ok ⟨[[102, 111, 111]]⟩ :=
    eq_ok_of_toOption (by decide +kernel)
  have hother : offer ⟨[[102, 111, 111]]⟩ "YmFy" = .ok ⟨[[98, 97, 114], [102, 111, 111]]⟩ :=
    eq_ok_of_toOption (by decide +kernel)
  have hlater : offer ⟨[[98, 97, 114]]⟩ "Zm9v" = .ok ⟨[[98, 97, 114], [102, 111, 111]]⟩ :=
    eq_ok_of_toOption (by decide +kernel)
  have hrun : Run empty sampleCalls ⟨[[98, 97, 114]]⟩ :=
    .cons (.offer true hfirst) <| .cons (.offer false hagain) <| .cons (.offer false hother) <|
      .cons (.take true hfoo) <| .cons (.offer true hlater) <| .cons (.take false hfoo) .nil
  exact ⟨hrun, calls_are_accounted hrun, by decide⟩

end NoncePool

end AcmeClient
