import AcmeClient.Proofs.Destinations
import AcmeClient.Proofs.Listings
import Mathlib.Data.Finset.Card
import Mathlib.Data.Finset.Option

/-!
# Pages of orders

The orders of an account are on pages, and each page may name the next one. The links are the
server's, so they may lead back to a page that was read:

* `OrderPage.IsRead` — what a page is that a client read, and what was sent for it;
* `PagesFrom` — pages that were read one after another, each where the one before leads to;
* `PagesEnd` — how the reading ends after them;
* `reads_ordersFrom` — the orders are those of pages that were read, no page twice;
* `ReadsPages.length_le` and `ReadsPages.ne_cut` — there are few, when links lead to few places;
* `Loading.orders_read_pages` — all of this for the orders of an account.
-/

namespace AcmeClient

open Act

/-! ### One page -/

/-- A page of orders that was read: where it is, the answer of the server, the orders on it and the
URL of the next page. -/
structure OrderPage where
  url : String
  answer : Response
  orders : List Resource
  next : Option String

/-- Whether a list of orders is what a document lists. -/
def Members.ListsOrders (ms : Members) (orders : List Resource) : Prop :=
  (ms.field "orders").Lists ⟨.order, none, [], none⟩ (Resource.IsLinkedTo .order) orders

/-- Whether a client read a page: it asked there and got an answer that lists the orders, and whose
first link to a next page, if any, is the URL of the next page. -/
structure OrderPage.IsRead (p : OrderPage) (env : Environment) (c c' : Client) : Prop where
  run : (Client.orderPage p.url).run env c = (.ok (p.orders, p.next), c')
  reaches : c.Reaches p.url c'
  reply : env.server c'.sent = .response p.answer
  asked : ∃ q, c'.sent.getLast? = some q ∧ q.url = p.url
  status : p.answer.status = 200
  lists : ∃ ms, (Body.octets p.answer.content).document = .ok ms ∧ ms.ListsOrders p.orders
  leads : ∃ urls, p.answer.links p.url "next" = .ok urls ∧ p.next = urls.head?

namespace Client

variable {env : Environment} {c c' : Client} {url : String} {orders : List Resource}
  {next : Option String}

/-- A page is asked for at its URL. -/
theorem goesTo_orderPage (url : String) : (orderPage url).GoesTo url id := by
  refine goesTo_within _ (goesTo_first (Exchange.goesTo_fetch url _) fun _ =>
    headsFor_of_isReading ?_)
  refine isReading_bind (Exchange.isReading_accept _) fun _ => ?_
  refine isReading_bind Exchange.isReading_readJson fun ms => ?_
  refine isReading_bind (isReading_lift _) fun items => ?_
  refine isReading_bind (isReading_lift _) fun orders => ?_
  exact isReading_bind (Exchange.isReading_links _) fun _ => isReading_pure _

/-- What comes of asking for a page, if it succeeds, is on a page that was read. -/
theorem isRead_of_run (h : (orderPage url).run env c = (.ok (orders, next), c')) :
    ∃ answer, OrderPage.IsRead ⟨url, answer, orders, next⟩ env c c' := by
  obtain ⟨connection, hrun⟩ := run_connected_eq_ok.1 h
  obtain ⟨_, ⟨c₁, s₁⟩, hfetch, hrun⟩ := (run_bind_eq_ok env).1 hrun
  obtain ⟨r, hheld, hreply, hasked⟩ := Exchange.holds_fetch hfetch
  obtain rfl : s₁ = ⟨some r, some url, none⟩ := hheld
  obtain ⟨_, s₂, haccept, hrun⟩ := (run_bind_eq_ok env).1 hrun
  obtain ⟨hstatus, rfl⟩ := Exchange.mem_of_run_accept haccept rfl
  obtain ⟨ms, s₃, hjson, hrun⟩ := (run_bind_eq_ok env).1 hrun
  obtain ⟨hdocument, rfl⟩ := Exchange.readJson_eq_ok.1 hjson
  obtain ⟨items, s₄, harray, hrun⟩ := (run_bind_eq_ok env).1 hrun
  obtain ⟨hitems, rfl⟩ := Exchange.run_lift_eq_ok.1 harray
  obtain ⟨orders', s₅, hmapped, hrun⟩ := (run_bind_eq_ok env).1 hrun
  obtain ⟨horders, rfl⟩ := Exchange.run_lift_eq_ok.1 hmapped
  obtain ⟨urls, s₆, hlinks, hrun⟩ := (run_bind_eq_ok env).1 hrun
  rw [Exchange.run_links env c₁ rfl] at hlinks
  obtain ⟨hurls, rfl⟩ := Prod.ext_iff.1 hlinks
  cases hrun
  have hgoes := goesTo_orderPage url env c
  rw [h] at hgoes
  exact ⟨r, {
    run := h
    reaches := hgoes
    reply := hreply
    asked := hasked
    status := List.mem_singleton.1 hstatus
    lists := ⟨ms, hdocument,
      ((Resource.linked_readsList .order _).ok_iff _).1 (bind_eq_ok.2 ⟨items, hitems, horders⟩)⟩
    leads := ⟨urls, hurls, rfl⟩ }⟩

end Client

/-! ### Pages in a row -/

/-- Pages that were read one after another from a URL on: the first is there, and each of the others
where the page before it leads to. -/
inductive PagesFrom (env : Environment) :
    Client → Option String → List OrderPage → Client → Option String → Prop where
  | nil (c : Client) (next : Option String) : PagesFrom env c next [] c next
  | cons {p : OrderPage} {ps : List OrderPage} {c c₁ c' : Client} {next : Option String} :
      p.IsRead env c c₁ → PagesFrom env c₁ p.next ps c' next →
      PagesFrom env c (some p.url) (p :: ps) c' next

/-- How reading ends that leads to another page: there is none, or it was read already; or asking for
it fails; or there is no room for it. -/
inductive PagesEnd (env : Environment) (read : List String) (room : Nat) (orders : List Resource)
    (c : Client) (next : Option String) : Except Fault (Option (List Resource)) × Client → Prop where
  | complete : (∀ u, next = some u → u ∈ read) →
      PagesEnd env read room orders c next (.ok (some orders), c)
  | failed {u : String} {e : Fault} {c' : Client} : next = some u → u ∉ read → 0 < room →
      (Client.orderPage u).run env c = (.error e, c') →
      PagesEnd env read room orders c next (.error e, c')
  | cut {u : String} : next = some u → u ∉ read → room = 0 →
      PagesEnd env read room orders c next (.ok none, c)

/-- Whether some pages are those that are read from a URL on, apart from pages visited before: none
is read twice, and their orders are what comes of it. -/
structure ReadsPages (env : Environment) (limit : Nat) (visited : List String) (c : Client)
    (first : Option String) (ps : List OrderPage)
    (outcome : Except Fault (Option (List Resource)) × Client) : Prop where
  once : (ps.map OrderPage.url).Nodup
  new : ∀ p ∈ ps, p.url ∉ visited
  within_limit : ps.length ≤ limit
  ends : ∃ c' next, PagesFrom env c first ps c' next ∧
    PagesEnd env (ps.map OrderPage.url ++ visited) (limit - ps.length) (ps.flatMap OrderPage.orders)
      c' next outcome

namespace Client

variable {env : Environment} {c : Client} {limit : Nat} {visited : List String} {url : String}
  {next : Option String}

/-- Nothing is left to read without a page that is new. -/
theorem run_ordersFrom_of_mem (h : ∀ u, next = some u → u ∈ visited) :
    (ordersFrom limit visited next).run env c = (.ok (some []), c) := by
  cases next with
  | none =>
    rw [ordersFrom]
    rfl
  | some u =>
    rw [ordersFrom.eq_def]
    dsimp only
    rw [if_pos (List.contains_iff_mem.2 (h u rfl))]
    rfl

theorem run_ordersFrom_zero (h : url ∉ visited) :
    (ordersFrom 0 visited (some url)).run env c = (.ok none, c) := by
  rw [ordersFrom.eq_def]
  dsimp only
  rw [if_neg fun hmem => h (List.contains_iff_mem.1 hmem)]
  rfl

/-- A page that is new is asked for, and what comes after it is read from where it leads to. -/
theorem run_ordersFrom_succ (h : url ∉ visited) :
    (ordersFrom (limit + 1) visited (some url)).run env c =
      match (orderPage url).run env c with
      | (.error e, c') => (.error e, c')
      | (.ok (orders, next), c') =>
          (((ordersFrom limit (url :: visited) next).run env c').1.map (Option.map (orders ++ ·)),
            ((ordersFrom limit (url :: visited) next).run env c').2) := by
  rw [ordersFrom.eq_def]
  dsimp only
  rw [if_neg fun hmem => h (List.contains_iff_mem.1 hmem), run_bind]
  rcases (orderPage url).run env c with ⟨e | ⟨orders, next⟩, c'⟩
  · rfl
  · dsimp only
    rw [run_bind]
    rcases (ordersFrom limit (url :: visited) next).run env c' with ⟨e | rest, c''⟩
    · rfl
    · rfl

end Client

/-- A page in front of others adds its orders to theirs. -/
theorem ReadsPages.cons {env : Environment} {limit : Nat} {visited : List String} {c c₁ : Client}
    {p : OrderPage} {ps : List OrderPage} {outcome : Except Fault (Option (List Resource)) × Client}
    (hp : p.IsRead env c c₁) (hnew : p.url ∉ visited)
    (h : ReadsPages env limit (p.url :: visited) c₁ p.next ps outcome) :
    ReadsPages env (limit + 1) visited c (some p.url) (p :: ps)
      (outcome.1.map (Option.map (p.orders ++ ·)), outcome.2) := by
  have hread : ∀ u, u ∈ (p :: ps).map OrderPage.url ++ visited ↔
      u ∈ ps.map OrderPage.url ++ p.url :: visited := by
    intro u
    simp only [List.map_cons, List.cons_append, List.mem_cons, List.mem_append]
    tauto
  have hroom : limit + 1 - (p :: ps).length = limit - ps.length := by
    rw [List.length_cons]
    omega
  obtain ⟨c', next, hfrom, hends⟩ := h.ends
  refine {
    once := ?_
    new := ?_
    within_limit := Nat.succ_le_succ h.within_limit
    ends := ⟨c', next, .cons hp hfrom, ?_⟩ }
  · refine List.nodup_cons.2 ⟨fun hmem => ?_, h.once⟩
    obtain ⟨q, hq, hurl⟩ := List.mem_map.1 hmem
    exact h.new q hq (hurl ▸ List.mem_cons_self)
  · intro q hq
    rcases List.mem_cons.1 hq with rfl | hq
    · exact hnew
    · exact fun hmem => h.new q hq (List.mem_cons_of_mem _ hmem)
  · rw [hroom, List.flatMap_cons]
    cases hends with
    | complete hmem => exact .complete fun u hu => (hread u).2 (hmem u hu)
    | failed hnext hmem hpos hrun =>
      exact .failed hnext (fun h' => hmem ((hread _).1 h')) hpos hrun
    | cut hnext hmem hzero => exact .cut hnext (fun h' => hmem ((hread _).1 h')) hzero

/-- **The orders are those of pages that were read.** The induction is on the room that is left;
what was visited grows by each page. -/
theorem reads_ordersFrom (env : Environment) (limit : Nat) (visited : List String) (c : Client)
    (first : Option String) :
    ∃ ps, ReadsPages env limit visited c first ps
      ((Client.ordersFrom limit visited first).run env c) := by
  -- reading that ends at once has read no page
  have hnone : ∀ {limit visited c first outcome},
      PagesEnd env visited limit [] c first outcome →
        ReadsPages env limit visited c first [] outcome := fun hends =>
    ⟨List.nodup_nil, nofun, Nat.zero_le _, _, _, .nil _ _, hends⟩
  induction limit generalizing visited c first with
  | zero =>
    refine ⟨[], hnone ?_⟩
    by_cases hmem : ∀ u, first = some u → u ∈ visited
    · rw [Client.run_ordersFrom_of_mem hmem]
      exact .complete hmem
    · push Not at hmem
      obtain ⟨u, rfl, hnew⟩ := hmem
      rw [Client.run_ordersFrom_zero hnew]
      exact .cut rfl hnew rfl
  | succ limit ih =>
    by_cases hmem : ∀ u, first = some u → u ∈ visited
    · rw [Client.run_ordersFrom_of_mem hmem]
      exact ⟨[], hnone (.complete hmem)⟩
    · push Not at hmem
      obtain ⟨u, rfl, hnew⟩ := hmem
      rw [Client.run_ordersFrom_succ hnew]
      rcases hpage : (Client.orderPage u).run env c with ⟨e | ⟨orders, next⟩, c₁⟩
      · exact ⟨[], hnone (.failed rfl hnew (Nat.succ_pos _) hpage)⟩
      · obtain ⟨answer, hread⟩ := Client.isRead_of_run hpage
        obtain ⟨ps, hps⟩ := ih (u :: visited) c₁ next
        exact ⟨_ :: ps, .cons hread hnew hps⟩

/-- What comes of reading that was not cut short is the same with more room. -/
theorem Client.run_ordersFrom_of_le {env : Environment} {limit limit' : Nat} (hle : limit ≤ limit')
    {visited : List String} {c : Client} {first : Option String}
    (h : ((ordersFrom limit visited first).run env c).1 ≠ .ok none) :
    (ordersFrom limit' visited first).run env c = (ordersFrom limit visited first).run env c := by
  induction limit generalizing limit' visited c first with
  | zero =>
    by_cases hmem : ∀ u, first = some u → u ∈ visited
    · rw [run_ordersFrom_of_mem hmem, run_ordersFrom_of_mem hmem]
    · push Not at hmem
      obtain ⟨u, rfl, hnew⟩ := hmem
      rw [run_ordersFrom_zero hnew] at h
      exact absurd rfl h
  | succ limit ih =>
    obtain ⟨limit', rfl⟩ : ∃ n, limit' = n + 1 := ⟨limit' - 1, by omega⟩
    by_cases hmem : ∀ u, first = some u → u ∈ visited
    · rw [run_ordersFrom_of_mem hmem, run_ordersFrom_of_mem hmem]
    · push Not at hmem
      obtain ⟨u, rfl, hnew⟩ := hmem
      rw [run_ordersFrom_succ hnew] at h ⊢
      rw [run_ordersFrom_succ hnew]
      rcases hpage : (orderPage u).run env c with ⟨e | ⟨orders, next⟩, c₁⟩
      · rfl
      · have hrest : ((ordersFrom limit (u :: visited) next).run env c₁).1 ≠ .ok none := by
          intro hcut
          rw [hpage] at h
          dsimp only at h
          rw [hcut] at h
          exact h rfl
        dsimp only
        rw [ih (Nat.le_of_succ_le_succ hle) hrest]

/-! ### How many pages there are -/

/-- Whether the first links to next pages, in all answers of a server, lead to some places only. -/
def Server.LinksWithin (server : Server) (places : Finset String) : Prop :=
  ∀ sent q r urls u, server (sent ++ [q]) = .response r → r.links q.url "next" = .ok urls →
    urls.head? = some u → u ∈ places

section Bound

variable {env : Environment} {limit : Nat} {c c' : Client} {first next : Option String}
  {ps : List OrderPage} {places : Finset String}

theorem OrderPage.IsRead.next_mem {p : OrderPage} (hp : p.IsRead env c c')
    (hplaces : env.server.LinksWithin places) {u : String} (hu : p.next = some u) : u ∈ places := by
  obtain ⟨q, hlast, hurl⟩ := hp.asked
  obtain ⟨sent, hsent⟩ := List.getLast?_eq_some_iff.1 hlast
  obtain ⟨urls, hurls, hnext⟩ := hp.leads
  have hreply := hp.reply
  rw [hsent] at hreply
  rw [← hurl] at hurls
  exact hplaces sent q p.answer urls u hreply hurls (hnext.symm.trans hu)

/-- Pages are where reading starts or where links lead to, and so is the next one. -/
theorem PagesFrom.mem (h : PagesFrom env c first ps c' next)
    (hplaces : env.server.LinksWithin places) :
    (∀ p ∈ ps, p.url ∈ places ∪ first.toFinset) ∧ ∀ u, next = some u → u ∈ places ∪ first.toFinset := by
  induction h with
  | nil c next =>
    refine ⟨nofun, fun u hu => ?_⟩
    rw [hu]
    simp
  | @cons p ps c c₁ c' next hp _ ih =>
    have hwithin : ∀ u, u ∈ places ∪ p.next.toFinset → u ∈ places ∪ (some p.url).toFinset := by
      intro u hu
      rcases Finset.mem_union.1 hu with hu | hu
      · exact Finset.mem_union_left _ hu
      · exact Finset.mem_union_left _ (hp.next_mem hplaces (Option.mem_toFinset.1 hu))
    refine ⟨fun q hq => ?_, fun u hu => hwithin u (ih.2 u hu)⟩
    rcases List.mem_cons.1 hq with rfl | hq
    · simp
    · exact hwithin _ (ih.1 q hq)

/-- Places that are all different, where reading starts or where links lead to, are few. -/
theorem length_le_of_nodup {urls : List String} (honce : urls.Nodup)
    (hmem : ∀ u ∈ urls, u ∈ places ∪ first.toFinset) : urls.length ≤ places.card + 1 := by
  have hfirst : first.toFinset.card ≤ 1 := by cases first <;> simp
  calc urls.length = urls.toFinset.card := (List.toFinset_card_of_nodup honce).symm
    _ ≤ (places ∪ first.toFinset).card :=
      Finset.card_le_card fun u hu => hmem u (List.mem_toFinset.1 hu)
    _ ≤ places.card + first.toFinset.card := Finset.card_union_le _ _
    _ ≤ places.card + 1 := Nat.add_le_add_left hfirst _

variable {outcome : Except Fault (Option (List Resource)) × Client}

/-- There is at most one page more than places that links lead to. -/
theorem ReadsPages.length_le (h : ReadsPages env limit [] c first ps outcome)
    (hplaces : env.server.LinksWithin places) : ps.length ≤ places.card + 1 := by
  obtain ⟨c', next, hfrom, -⟩ := h.ends
  have hmem := (hfrom.mem hplaces).1
  rw [← List.length_map OrderPage.url]
  exact length_le_of_nodup h.once (List.forall_mem_map.2 hmem)

/-- With room for more pages than places that links lead to, reading is not cut short. -/
theorem ReadsPages.ne_cut (h : ReadsPages env limit [] c first ps outcome)
    (hplaces : env.server.LinksWithin places) (hlimit : places.card < limit) :
    outcome.1 ≠ .ok none := by
  obtain ⟨c', next, hfrom, hends⟩ := h.ends
  cases hends with
  | complete _ => nofun
  | failed _ _ _ _ => nofun
  | @cut u hnext hnew hroom =>
    -- the page that there is no room for would be one more at another place
    rw [List.append_nil] at hnew
    obtain ⟨hpages, hu⟩ := hfrom.mem hplaces
    have hmem : ∀ v ∈ u :: ps.map OrderPage.url, v ∈ places ∪ first.toFinset :=
      List.forall_mem_cons.2 ⟨hu u hnext, List.forall_mem_map.2 hpages⟩
    have hall := length_le_of_nodup (List.nodup_cons.2 ⟨hnew, h.once⟩) hmem
    rw [List.length_cons, List.length_map] at hall
    omega

end Bound

/-! ### The orders of an account -/

theorem Loading.run_orders (env : Environment) (c : Client) (r : Resource) (limit : Nat) :
    (orders limit).run env (c, r) =
      match r.ordersUrl with
      | .error e => (.error e, (c, r))
      | .ok first => (((Client.ordersFrom limit [] first).run env c).1,
          (((Client.ordersFrom limit [] first).run env c).2, r)) := by
  rw [orders, resource]
  simp only [run_bind, run_get, run_pure, run_lift]
  cases r.ordersUrl with
  | error e => rfl
  | ok first => exact run_onFirst env _ _

/-- **Orders are read page by page.** An account whose document does not tell where its orders are
fails at once. Otherwise there are pages, the first where the document tells and each other where the
page before leads to, no two at one place, and the orders are theirs, page after page; the reading
ends when there is no next page or when it was read already, unless asking for it fails or there is no
room for it. There are no more than one page for each place that links lead to and one more, so with
this room it is never cut short, and more room makes no difference. -/
theorem Loading.orders_read_pages (env : Environment) (c : Client) (r : Resource) (limit : Nat) :
    (∀ e, r.ordersUrl = .error e → (orders limit).run env (c, r) = (.error e, (c, r))) ∧
    ∀ first, r.ordersUrl = .ok first → ∃ ps outcome,
      (orders limit).run env (c, r) = (outcome.1, (outcome.2, r)) ∧
      ReadsPages env limit [] c first ps outcome ∧
      (outcome.1 ≠ .ok none → ∀ limit', limit ≤ limit' →
        (orders limit').run env (c, r) = (outcome.1, (outcome.2, r))) ∧
      ∀ places, env.server.LinksWithin places →
        ps.length ≤ places.card + 1 ∧ (places.card < limit → outcome.1 ≠ .ok none) := by
  refine ⟨fun e he => by rw [run_orders, he], fun first hfirst => ?_⟩
  obtain ⟨ps, hps⟩ := reads_ordersFrom env limit [] c first
  refine ⟨ps, _, ?_, hps, fun huncut limit' hle => ?_, fun places hplaces =>
    ⟨hps.length_le hplaces, hps.ne_cut hplaces⟩⟩
  · rw [run_orders, hfirst]
  · rw [run_orders, hfirst]
    dsimp only
    rw [Client.run_ordersFrom_of_le hle huncut]

/-- An answer with one order and a link to the next page. -/
def Response.leading (reference : String) : Response :=
  ⟨200, none, ⟨[("Link", "<" ++ reference ++ ">;rel=\"next\"")]⟩,
    Text.Utf8.encode "\x7b\"orders\": [\"https://acme.test/order/1\"]\x7d"⟩

/-- A server of three pages; the last one leads back to the second. -/
def Server.paged : Server := fun sent =>
  match sent.getLast?.map Request.url with
  | some "https://acme.test/o/1" => .response (.leading "2")
  | some "https://acme.test/o/2" => .response (.leading "3")
  | some "https://acme.test/o/3" => .response (.leading "2")
  | _ => .failure ""

/-- The links of that server lead to the second page and to the third, and each page is read once. -/
theorem Loading.orders_read_pages_cycle :
    let env : Environment := ⟨.paged, fun _ => ⟨0, some 0⟩⟩
    let c := Client.ofSession { Session.sample with kid := none }
    let r : Resource := ⟨.account, none, [("orders", .string "https://acme.test/o/1")], none⟩
    let places : Finset String := {"https://acme.test/o/2", "https://acme.test/o/3"}
    r.ordersUrl = .ok (some "https://acme.test/o/1") ∧ env.server.LinksWithin places ∧
      ∃ ps outcome, outcome.1 = .ok (some (ps.flatMap OrderPage.orders)) ∧
        ReadsPages env 3 [] c (some "https://acme.test/o/1") ps outcome ∧
        outcome.2.sent.map Request.url =
          ["https://acme.test/o/1", "https://acme.test/o/2", "https://acme.test/o/3"] ∧
        ∀ limit, 3 ≤ limit → (orders limit).run env (c, r) = (outcome.1, (outcome.2, r)) := by
  intro env c r places
  have hfirst : r.ordersUrl = .ok (some "https://acme.test/o/1") :=
    eq_ok_of_toOption (by decide +kernel)
  have hplaces : env.server.LinksWithin places := by
    intro sent q answer urls u hanswer hurls hu
    replace hanswer : Server.paged (sent ++ [q]) = .response answer := hanswer
    -- what is asked for at each of the pages is known, and so is the link in the answer
    have hlink : ∀ {url reference place : String}, some q.url = some url →
        Reply.response (.leading reference) = .response answer → place ∈ places →
        ((Response.leading reference).links url "next").toOption = some [place] → u ∈ places := by
      intro url reference place hurl hanswer hplace hfound
      cases hanswer
      rw [Option.some.inj hurl, eq_ok_of_toOption hfound] at hurls
      cases hurls
      exact Option.some.inj hu ▸ hplace
    have hsecond : "https://acme.test/o/2" ∈ places := by decide
    have hthird : "https://acme.test/o/3" ∈ places := by decide
    rw [Server.paged, List.getLast?_concat, Option.map_some] at hanswer
    split at hanswer
    · rename_i hurl
      exact hlink hurl hanswer hsecond (by decide +kernel)
    · rename_i hurl
      exact hlink hurl hanswer hthird (by decide +kernel)
    · rename_i hurl
      exact hlink hurl hanswer hsecond (by decide +kernel)
    · cases hanswer
  have hsome : ((orders 3).run env (c, r)).1.toOption.isSome = true := by decide +kernel
  have hsent : ((orders 3).run env (c, r)).2.1.sent.map Request.url =
      ["https://acme.test/o/1", "https://acme.test/o/2", "https://acme.test/o/3"] := by
    decide +kernel
  obtain ⟨ps, outcome, hrun, hreads, hstable, hbound⟩ :=
    (orders_read_pages env c r 3).2 _ hfirst
  have huncut := (hbound places hplaces).2 (by decide)
  rw [hrun] at hsome hsent
  refine ⟨hfirst, hplaces, ps, outcome, ?_, hreads, hsent, hstable huncut⟩
  obtain ⟨c', next, -, hends⟩ := hreads.ends
  cases hends with
  | complete _ => rfl
  | failed _ _ _ _ => cases hsome
  | cut _ _ _ => exact absurd rfl huncut

end AcmeClient
