import AcmeClient.Crowd
import AcmeClient.Proofs.Nonces
import Mathlib.Algebra.BigOperators.Group.List.Basic

/-!
# Nonces are used once

However many operations take turns on a session, what waits in the pool, what they have in hand and
what was signed with never exceeds what the answers of the server carried:

* `received` — the nonces that the replies to some requests carried;
* `Accounted` — that balance, and that each signed request uses a nonce of an earlier reply;
* `accounted_handles` — one step preserves it, whoever takes it;
* `Crowd.accounted_of_reaches` — so does a run of operations in turns;
* `Crowd.posts_use_distinct_nonces` — no two signed requests use the same nonce.
-/

namespace AcmeClient

/-- The nonces that the replies to some requests carried, one reply after the other. -/
def received (server : Server) (sent : List Request) : List (List UInt8) :=
  (List.range sent.length).filterMap fun i => (server (sent.take (i + 1))).token?

/-- The nonces that requests were signed with. -/
def spentIn (sent : List Request) : Multiset (List UInt8) :=
  (sent.map Request.spent).sum

theorem spentIn_cons (r : Request) (sent : List Request) :
    spentIn (r :: sent) = r.spent + spentIn sent := by
  simp [spentIn]

theorem spentIn_concat (sent : List Request) (r : Request) :
    spentIn (sent ++ [r]) = spentIn sent + r.spent := by
  simp [spentIn]

theorem received_concat (server : Server) (sent : List Request) (r : Request) :
    received server (sent ++ [r])
      = received server sent ++ (server (sent ++ [r])).token?.toList := by
  have hold : (List.range sent.length).filterMap
        (fun i => (server ((sent ++ [r]).take (i + 1))).token?)
      = received server sent := by
    apply List.filterMap_congr
    intro i hi
    have hlt : i + 1 ≤ sent.length := List.mem_range.1 hi
    rw [List.take_append_of_le_length hlt]
  have hnew : (sent ++ [r]).take (sent.length + 1) = sent ++ [r] :=
    List.take_of_length_le (by simp)
  rw [received, List.length_append, List.length_singleton, List.range_succ, List.filterMap_append,
    hold, List.filterMap_cons, hnew, List.filterMap_nil]
  cases (server (sent ++ [r])).token? <;> rfl

/-- What a client has received: in the pool, in hand or spent, and spent only after it came. -/
structure Accounted (env : Environment) (c : Client) (h : Multiset (List UInt8)) : Prop where
  balance : c.pooled + h + spentIn c.sent ≤ received env.server c.sent
  earlier : ∀ i r, c.sent[i]? = some r → r.method = .post →
    ∃ t, r.nonce? = some t ∧ t ∈ received env.server (c.sent.take i)

namespace Accounted

variable {env : Environment} {c c' : Client} {others h : Multiset (List UInt8)} {r : Request}

/-- What is in hand came with a reply. -/
theorem mem_received (ha : Accounted env c (others + h)) {t : List UInt8} (ht : t ∈ h) :
    t ∈ received env.server c.sent := by
  have hle := Multiset.count_le_of_le t ha.balance
  simp only [Multiset.count_add] at hle
  have hone := Multiset.one_le_count_iff_mem.2 ht
  rw [← Multiset.mem_coe, ← Multiset.one_le_count_iff_mem]
  omega

/-- A request that is signed with what is in hand uses a nonce of an earlier reply. -/
theorem earlier_send (ha : Accounted env c (others + h)) (hsent : c'.sent = c.sent ++ [r])
    (hsome : r.method = .post → r.nonce?.isSome) (hspent : r.spent ≤ h) (i : Nat) (q : Request)
    (hi : c'.sent[i]? = some q) (hpost : q.method = .post) :
    ∃ t, q.nonce? = some t ∧ t ∈ received env.server (c'.sent.take i) := by
  rw [hsent] at hi ⊢
  by_cases hlt : i < c.sent.length
  · rw [List.getElem?_append_left hlt] at hi
    rw [List.take_append_of_le_length (by omega)]
    exact ha.earlier i q hi hpost
  · -- the new request
    have hlen : i = c.sent.length := by
      have hbound := (List.getElem?_eq_some_iff.1 hi).1
      rw [List.length_append, List.length_singleton] at hbound
      omega
    subst hlen
    obtain rfl : r = q := by simpa using hi
    obtain ⟨t, ht⟩ := Option.isSome_iff_exists.1 (hsome hpost)
    refine ⟨t, ht, ?_⟩
    have hmem : t ∈ r.spent := by
      rw [Request.spent, if_pos hpost, ht]
      exact Multiset.mem_singleton_self t
    rw [List.take_left]
    exact ha.mem_received (Multiset.mem_of_le hspent hmem)

/-- A request is paid for with what is in hand, and the reply gives out what is received anew. -/
theorem balance_send (ha : Accounted env c (others + h)) (hsent : c'.sent = c.sent ++ [r])
    (hsession : c'.session = c.session) (hspent : r.spent ≤ h) :
    c'.pooled + (others + (env.server c'.sent).given) + spentIn c'.sent
      ≤ received env.server c'.sent := by
  have hpool : c'.pooled = c.pooled := by rw [Client.pooled, Client.pooled, hsession]
  have hrec : (received env.server c'.sent : Multiset (List UInt8))
      = received env.server c.sent + (env.server c'.sent).given := by
    rw [hsent, received_concat]
    rfl
  have hspentIn : spentIn c'.sent = spentIn c.sent + r.spent := by
    rw [hsent, spentIn_concat]
  rw [hpool, hspentIn, hrec, Multiset.le_iff_count]
  intro t
  have h1 := Multiset.count_le_of_le t hspent
  have h2 := Multiset.count_le_of_le t ha.balance
  simp only [Multiset.count_add] at h1 h2 ⊢
  omega

/-- Nothing is lost or made up between the pool and the hands. -/
theorem balance_keep {h' : Multiset (List UInt8)} (ha : Accounted env c (others + h))
    (hsent : c'.sent = c.sent) (hle : c'.pooled + h' ≤ c.pooled + h) :
    c'.pooled + (others + h') + spentIn c'.sent ≤ received env.server c'.sent := by
  rw [hsent, Multiset.le_iff_count]
  intro t
  have h1 := Multiset.count_le_of_le t hle
  have h2 := Multiset.count_le_of_le t ha.balance
  simp only [Multiset.count_add] at h1 h2 ⊢
  omega

end Accounted

/-- One step preserves the balance, and what others have in hand is no part of it. -/
theorem accounted_handles {env : Environment} {c c' : Client} {others h h' : Multiset (List UInt8)}
    (ha : Accounted env c (others + h)) (hs : Handles env h c h' c') :
    Accounted env c' (others + h') := by
  cases hs with
  | keep hsent hle => exact ⟨ha.balance_keep hsent hle, by rw [hsent]; exact ha.earlier⟩
  | send r hsent hsession hsome hspent =>
    exact ⟨ha.balance_send hsent hsession hspent, ha.earlier_send hsent hsome hspent⟩

namespace Crowd

/-- Whether what runs keeps account of its nonces, and all of it together of what was received. -/
def IsAccounted (env : Environment) (crowd : Crowd) : Prop :=
  ∃ owned : List (Multiset (List UInt8) × Act Client Unit),
    owned.map Prod.snd = crowd.running ∧
    (∀ p ∈ owned, p.2.Follows Discipline.nonces (fun _ _ => True) p.1) ∧
    Accounted env crowd.client (owned.map Prod.fst).sum

theorem isAccounted_ofSession (env : Environment) {s : Session} (hs : s.nonces = .empty) :
    IsAccounted env (ofSession s) := by
  refine ⟨[], rfl, by simp, ?_, by simp [ofSession, Client.ofSession]⟩
  show (s.nonces.tokens : Multiset (List UInt8)) + 0 + 0 ≤ 0
  rw [hs]
  exact le_refl _

/-- An operation that begins has nothing in hand. -/
theorem isAccounted_begin {env : Environment} {c : Client} {running : List (Act Client Unit)}
    (h : IsAccounted env ⟨c, running⟩) (o : Operation) :
    IsAccounted env ⟨c, running ++ [o.act]⟩ := by
  obtain ⟨owned, hrunning, hfollows, hacc⟩ := h
  refine ⟨owned ++ [(0, o.act)], by simp [hrunning], ?_, by simpa using hacc⟩
  intro p hp
  rcases List.mem_append.1 hp with hp | hp
  · exact hfollows p hp
  · obtain rfl := List.mem_singleton.1 hp
    exact Discipline.covers_nonces.follows_operation o rfl

/-- An operation that takes a step changes only what is in its own hands. -/
theorem isAccounted_advance {env : Environment} {c : Client} {before after : List (Act Client Unit)}
    {f : Client → Client} {k : Environment → Client → Act Client Unit}
    (h : IsAccounted env ⟨c, before ++ .step f k :: after⟩) :
    IsAccounted env ⟨f c, before ++ k env c :: after⟩ := by
  obtain ⟨owned, hrunning, hfollows, hacc⟩ := h
  -- the owner of the act that takes the step
  obtain ⟨owned₁, rest, rfl, hbefore, hrest⟩ := List.map_eq_append_iff.1 hrunning
  obtain ⟨⟨hand, x⟩, owned₂, rfl, hx, hafter⟩ := List.map_eq_cons_iff.1 hrest
  obtain rfl : x = .step f k := hx
  obtain ⟨hand', hstep, hnext⟩ :=
    Act.follows_step.1 (hfollows (hand, .step f k) (by simp)) env c trivial
  refine ⟨owned₁ ++ (hand', k env c) :: owned₂, by simp [hbefore, hafter], ?_, ?_⟩
  · intro p hp
    rcases List.mem_append.1 hp with hp | hp
    · exact hfollows p (by simp [hp])
    · rcases List.mem_cons.1 hp with rfl | hp
      · exact hnext
      · exact hfollows p (by simp [hp])
  · have hsum : ∀ (g : Multiset (List UInt8)) (x : Act Client Unit),
        ((owned₁ ++ (g, x) :: owned₂).map Prod.fst).sum
          = ((owned₁ ++ owned₂).map Prod.fst).sum + g := by
      intro g x
      simp only [List.map_append, List.map_cons, List.sum_append, List.sum_cons]
      rw [add_comm g, add_assoc]
    rw [hsum] at hacc ⊢
    exact accounted_handles hacc hstep

/-- One step of a crowd preserves the account. -/
theorem isAccounted_step {env : Environment} {crowd crowd' : Crowd}
    (h : IsAccounted env crowd) (hs : Step env crowd crowd') : IsAccounted env crowd' := by
  cases hs with
  | begin o => exact isAccounted_begin h o
  | advance => exact isAccounted_advance h
  | @shuffle c running tokens hperm =>
    obtain ⟨owned, hrunning, hfollows, hacc⟩ := h
    refine ⟨owned, hrunning, hfollows, ?_, hacc.earlier⟩
    have hpool : (tokens : Multiset (List UInt8)) = c.pooled := Multiset.coe_eq_coe.2 hperm
    show (tokens : Multiset (List UInt8)) + _ + _ ≤ _
    rw [hpool]
    exact hacc.balance

/-- A run of operations in turns keeps the account. -/
theorem isAccounted_of_reaches {env : Environment} {s : Session} (hs : s.nonces = .empty)
    {crowd : Crowd} (h : Reaches env (ofSession s) crowd) : IsAccounted env crowd := by
  induction h with
  | refl => exact isAccounted_ofSession env hs
  | tail _ hstep ih => exact isAccounted_step ih hstep

end Crowd

/-- The signed requests among some requests. -/
def posts (sent : List Request) : List Request :=
  sent.filter fun r => r.method = .post

/-- The nonces of signed requests are what was spent on them. -/
theorem coe_nonces_posts {sent : List Request}
    (h : ∀ r ∈ sent, r.method = .post → r.nonce?.isSome) :
    ((posts sent).map Request.nonce? : Multiset (Option (List UInt8)))
      = (spentIn sent).map some := by
  induction sent with
  | nil => rfl
  | cons r sent ih =>
    have ih' := ih fun q hq => h q (by simp [hq])
    by_cases hr : r.method = .post
    · obtain ⟨t, ht⟩ := Option.isSome_iff_exists.1 (h r (by simp) hr)
      have hspent : r.spent = {t} := by
        rw [Request.spent, if_pos hr, ht]
        rfl
      have hposts : posts (r :: sent) = r :: posts sent := by simp [posts, hr]
      rw [hposts, List.map_cons, ← Multiset.cons_coe, ih', spentIn_cons, hspent, Multiset.map_add,
        Multiset.map_singleton, Multiset.singleton_add, ht]
    · have hspent : r.spent = 0 := by rw [Request.spent, if_neg hr]
      have hposts : posts (r :: sent) = posts sent := by simp [posts, hr]
      rw [hposts, ih', spentIn_cons, hspent, zero_add]

namespace Crowd

/-- **Nonces are used once.** In every run of operations in turns on a new session, whose server
gives out no nonce twice, no two signed requests use the same nonce, and each uses one that an
earlier answer carried. -/
theorem posts_use_distinct_nonces (env : Environment) (s : Session) (hs : s.nonces = .empty)
    (crowd : Crowd) (h : Reaches env (ofSession s) crowd)
    (hd : (received env.server crowd.client.sent).Nodup) :
    ((posts crowd.client.sent).map Request.nonce?).Nodup ∧
      ∀ i r, crowd.client.sent[i]? = some r → r.method = .post →
        ∃ t, r.nonce? = some t ∧
          ∃ j < i, (env.server (crowd.client.sent.take (j + 1))).token? = some t := by
  obtain ⟨owned, -, -, hacc⟩ := isAccounted_of_reaches hs h
  refine ⟨?_, ?_⟩
  · have hsome : ∀ r ∈ crowd.client.sent, r.method = .post → r.nonce?.isSome := by
      intro r hr hpost
      obtain ⟨i, hi⟩ := List.mem_iff_getElem?.1 hr
      obtain ⟨t, ht, -⟩ := hacc.earlier i r hi hpost
      rw [ht]
      rfl
    have hle : spentIn crowd.client.sent ≤ received env.server crowd.client.sent :=
      le_trans (Multiset.le_add_left _ _) hacc.balance
    have hspent : (spentIn crowd.client.sent).Nodup :=
      Multiset.nodup_of_le hle (Multiset.coe_nodup.2 hd)
    rw [← Multiset.coe_nodup, coe_nonces_posts hsome]
    exact hspent.map (Option.some_injective _)
  · intro i r hi hpost
    obtain ⟨t, ht, hmem⟩ := hacc.earlier i r hi hpost
    refine ⟨t, ht, ?_⟩
    obtain ⟨j, hj, htoken⟩ := List.mem_filterMap.1 hmem
    have hlt : j < (crowd.client.sent.take i).length := List.mem_range.1 hj
    have hji : j < i := by
      rw [List.length_take] at hlt
      omega
    refine ⟨j, hji, ?_⟩
    rwa [List.take_take, Nat.min_eq_left (by omega)] at htoken

theorem posts_use_distinct_nonces_counting :
    let sent := ((Client.ofSession .sample).after countingEnvironment threeRequests).sent
    (posts sent).length = 2 ∧ ((posts sent).map Request.nonce?).Nodup := by
  obtain ⟨running, h⟩ := reaches_after countingEnvironment threeRequests (Client.ofSession .sample) []
  have hd : (received countingServer
      ((Client.ofSession .sample).after countingEnvironment threeRequests).sent).Nodup := by
    decide +kernel
  refine ⟨by decide +kernel, ?_⟩
  exact (posts_use_distinct_nonces countingEnvironment .sample rfl _ h hd).1

end Crowd

end AcmeClient
