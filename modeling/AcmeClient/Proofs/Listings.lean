import AcmeClient.Proofs.Json.Octets
import AcmeClient.Proofs.Operations
import AcmeClient.Proofs.Placement

/-!
# Lists in documents

A list is read entry by entry, in the order of the array, and an entry is converted as a field is: one
that is `null` counts as missing, and gives what a missing field gives.

* `Field.Lists` — the list that a field holds, with a hole for each entry that is `null`;
* `Field.RefusesList` — why a list is not read;
* `ReadsList` and `readsList_mapM` — a reader gives exactly the list that the field holds;
* `identifiers_readsList`, `contacts_readsList`, `subproblems_readsList`, `linked_readsList` — the
  readers of lists;
* `Client.run_orderPage` — a page of orders is read from the document that lists them;
* `lists_are_read_by_entry` — all of this for each list of the protocol.
-/

namespace AcmeClient

open Act

/-! ### What a field lists -/

namespace Field

variable {α : Type}

/-- The entries of an array in a field, as fields of their own. -/
def entries (f : Field) : List Field :=
  match f.value with
  | .array items => items.mapIdx fun i j => ⟨f.path ++ "[" ++ toString i ++ "]", j⟩
  | _ => []

/-- Whether a list is what a field lists: nothing without a value; for an array one element for each
entry, in order, and a hole where the entry is `null`. -/
def Lists (f : Field) (hole : α) (IsElement : Json → α → Prop) (xs : List α) : Prop :=
  (f.value = .null ∧ xs = []) ∨
    ∃ items, f.value = .array items ∧
      List.Forall₂ (fun j x => (j = .null ∧ x = hole) ∨ IsElement j x) items xs

/-- Whether a fault refuses the field or one of its entries, or escapes from the conversion of
one. -/
def RefusesList (f : Field) (a : Accessor) (e : Fault) : Prop :=
  f.Refuses e ∨ ∃ entry ∈ f.entries, entry.Refuses e ∨ a.Escapes entry e

/-- The items of an array are its entries. -/
theorem array_eq_ok {f : Field} {fields : List Field} :
    f.array = .ok fields ↔
      fields = f.entries ∧ (f.value = .null ∨ ∃ items, f.value = .array items) := by
  cases hv : f.value with
  | null => simp [array, entries, hv, eq_comm]
  | array items => simp [array, entries, hv, eq_comm]
  | _ => simp [array, hv, refuse]

/-- The entries have the items for their values. -/
theorem map_value_entries {f : Field} {items : List Json} (h : f.value = .array items) :
    f.entries.map value = items := by
  rw [entries, h]
  exact List.ext_getElem (by simp) fun i hi hi' => by simp

/-- A list has an element of each entry exactly when no entry is `null`. -/
theorem Lists.filled_iff {f : Field} {hole : α} {IsElement : Json → α → Prop} {items : List Json}
    {xs : List α} (h : f.Lists hole IsElement xs) (hnull : ∀ x, ¬ IsElement .null x)
    (hitems : f.value = .array items) : List.Forall₂ IsElement items xs ↔ .null ∉ items := by
  obtain ⟨hmissing, -⟩ | ⟨items', hitems', hxs⟩ := h
  · rw [hmissing] at hitems
    cases hitems
  · rw [hitems] at hitems'
    cases hitems'
    clear hitems
    induction hxs with
    | nil => simp
    | cons hhead _ ih =>
      rw [List.forall₂_cons, ih, List.mem_cons, not_or]
      refine and_congr_left fun _ => ⟨?_, fun hne => hhead.resolve_left fun hhole => hne hhole.1.symm⟩
      rintro helement rfl
      exact hnull _ helement

end Field

/-- Whether a result is what a field lists, or a fault that tells why it lists nothing: `hole` is made
of an entry that is `null`, and an element of any other. -/
structure ReadsList {α : Type} (result : Except Fault (List α)) (f : Field) (a : Accessor)
    (hole : α) (IsElement : Json → α → Prop) : Prop where
  ok_iff : ∀ xs, result = .ok xs ↔ f.Lists hole IsElement xs
  filled_iff : ∀ items xs, f.value = .array items → result = .ok xs →
    (List.Forall₂ IsElement items xs ↔ .null ∉ items)
  fails : FailsOnly (f.RefusesList a) result

/-- **A list is read entry by entry.** It is read when each entry can be converted, and otherwise a
conversion fails as it does for a single field. -/
theorem readsList_mapM {α : Type} {a : Accessor} {convert : Field → Except Fault α} {hole : α}
    {IsElement : Json → α → Prop} (hnull : ∀ x, ¬ IsElement .null x)
    (hok : ∀ g x, convert g = .ok x ↔ (g.value = .null ∧ x = hole) ∨ IsElement g.value x)
    (hfails : ∀ g, FailsOnly (fun e => g.Refuses e ∨ a.Escapes g e) (convert g)) (f : Field) :
    ReadsList (f.array >>= fun fields => fields.mapM convert) f a hole IsElement := by
  have hlists : ∀ xs, (f.array >>= fun fields => fields.mapM convert) = .ok xs ↔
      f.Lists hole IsElement xs := by
    intro xs
    have hentries : ∀ items, f.value = .array items →
        (f.entries.mapM convert = .ok xs ↔
          List.Forall₂ (fun j x => (j = .null ∧ x = hole) ∨ IsElement j x) items xs) := by
      intro items hitems
      simp only [mapM_eq_ok, hok]
      rw [← Field.map_value_entries hitems, List.forall₂_map_left_iff]
    rw [bind_eq_ok, Field.Lists]
    constructor
    · rintro ⟨fields, hfields, hxs⟩
      obtain ⟨rfl, hmissing | ⟨items, hitems⟩⟩ := Field.array_eq_ok.1 hfields
      · rw [Field.entries, hmissing] at hxs
        cases hxs
        exact .inl ⟨hmissing, rfl⟩
      · exact .inr ⟨items, hitems, (hentries items hitems).1 hxs⟩
    · rintro (⟨hmissing, rfl⟩ | ⟨items, hitems, hxs⟩)
      · refine ⟨f.entries, Field.array_eq_ok.2 ⟨rfl, .inl hmissing⟩, ?_⟩
        rw [Field.entries, hmissing]
        rfl
      · exact ⟨f.entries, Field.array_eq_ok.2 ⟨rfl, .inr ⟨items, hitems⟩⟩,
          (hentries items hitems).2 hxs⟩
  refine ⟨hlists, fun items xs hitems hxs => ((hlists xs).1 hxs).filled_iff hnull hitems, ?_⟩
  refine failsOnly_bind (Field.failsOnly_array fun e he => .inl he) fun fields hfields e he => ?_
  obtain ⟨rfl, -⟩ := Field.array_eq_ok.1 hfields
  obtain ⟨xs, hxs, -⟩ | ⟨entry, hentry, e', he', hfail⟩ := mapM_cases convert f.entries
  · rw [hxs] at he
    cases he
  · rw [hfail] at he
    cases he
    exact .inr ⟨entry, hentry, hfails entry e he'⟩

/-! ### The readers of lists -/

namespace Resource

/-- Whether a resource is one that was not loaded, at the URL that a value spells. -/
def IsLinkedTo (kind : ResourceKind) (j : Json) (r : Resource) : Prop :=
  ∃ u, j = .string u ∧ isAbsolute u = .ok true ∧ r = ⟨kind, some u, [], none⟩

theorem linked_eq_ok {kind : ResourceKind} {f : Field} {r : Resource} :
    linked kind f = .ok r ↔
      (f.value = .null ∧ r = ⟨kind, none, [], none⟩) ∨ IsLinkedTo kind f.value r := by
  rw [linked, bind_eq_ok]
  constructor
  · rintro ⟨url, hurl, h⟩
    obtain ⟨hnull, rfl⟩ | ⟨u, hu, habsolute, rfl⟩ := Field.url?_eq_ok.1 hurl
    · cases h
      exact .inl ⟨hnull, rfl⟩
    · have hmade : unloaded kind (some u) = .ok ⟨kind, some u, [], none⟩ :=
        make_of_isAbsolute kind habsolute
      rw [hmade] at h
      cases h
      exact .inr ⟨u, hu, habsolute, rfl⟩
  · rintro (⟨hnull, rfl⟩ | ⟨u, hu, habsolute, rfl⟩)
    · exact ⟨none, Field.url?_eq_ok.2 (.inl ⟨hnull, rfl⟩), rfl⟩
    · exact ⟨some u, Field.url?_eq_ok.2 (.inr ⟨u, hu, habsolute, rfl⟩),
        make_of_isAbsolute kind habsolute⟩

/-- A link fails as the URL in it does. -/
theorem failsOnly_linked (kind : ResourceKind) (f : Field) :
    FailsOnly (fun e => f.Refuses e ∨ Accessor.url.Escapes f e) (linked kind f) := by
  refine failsOnly_bind
    (Field.failsOnly_url? (fun _ => .inl) fun s d hs hd => .inr (.url hs hd)) fun url hurl => ?_
  obtain ⟨-, rfl⟩ | ⟨u, -, habsolute, rfl⟩ := Field.url?_eq_ok.1 hurl
  · exact failsOnly_ok _
  · have hmade : unloaded kind (some u) = .ok ⟨kind, some u, [], none⟩ :=
      make_of_isAbsolute kind habsolute
    rw [hmade]
    exact failsOnly_ok _

/-- A list of links gives a resource for each, and one without a location for an entry that is
`null`. -/
theorem linked_readsList (kind : ResourceKind) (f : Field) :
    ReadsList (f.array >>= fun fields => fields.mapM (linked kind)) f .url
      ⟨kind, none, [], none⟩ (IsLinkedTo kind) :=
  readsList_mapM (fun _ h => nomatch h) (fun _ _ => linked_eq_ok) (failsOnly_linked kind) f

theorem identifiers_readsList (r : Resource) :
    ReadsList r.identifiers (r.field "identifiers") .identifier none Field.IsIdentifier :=
  readsList_mapM (fun _ h => nomatch h) (fun _ _ => Field.identifier?_eq_ok)
    (fun _ => Field.failsOnly_identifier? (fun _ => .inl) fun _ _ _ hms hkind hvalue hd =>
      .inr (.identifier hms hkind hvalue hd)) _

theorem contacts_readsList (r : Resource) :
    ReadsList r.contacts (r.field "contact") .uri none Field.IsUri :=
  readsList_mapM (fun _ h => nomatch h) (fun _ _ => Field.uri?_eq_ok)
    (fun _ => Field.failsOnly_uri? (fun _ => .inl) fun _ _ hs hd => .inr (.uri hs hd)) _

end Resource

namespace Problem

/-- Whether a problem is the document in a value, with a base URL. -/
def IsDocument (baseUrl : Option String) (j : Json) (p : Problem) : Prop :=
  ∃ ms, j = .object ms ∧ p = ⟨ms, baseUrl⟩

theorem ofItem_eq_ok {p q : Problem} {f : Field} :
    p.ofItem f = .ok q ↔
      (f.value = .null ∧ q = ⟨[], p.baseUrl⟩) ∨ IsDocument p.baseUrl f.value q := by
  rw [ofItem, bind_eq_ok]
  constructor
  · rintro ⟨object, hobject, h⟩
    cases h
    obtain ⟨hnull, rfl⟩ | ⟨ms, hms, rfl⟩ := Field.object?_eq_ok.1 hobject
    · exact .inl ⟨hnull, rfl⟩
    · exact .inr ⟨ms, hms, rfl⟩
  · rintro (⟨hnull, rfl⟩ | ⟨ms, hms, rfl⟩)
    · exact ⟨none, Field.object?_eq_ok.2 (.inl ⟨hnull, rfl⟩), rfl⟩
    · exact ⟨some ms, Field.object?_eq_ok.2 (.inr ⟨ms, hms, rfl⟩), rfl⟩

theorem subproblems_readsList (p : Problem) :
    ReadsList p.subproblems (Members.field p.members "subproblems") .object ⟨[], p.baseUrl⟩
      (IsDocument p.baseUrl) :=
  readsList_mapM (fun _ h => nomatch h) (fun _ _ => ofItem_eq_ok)
    (fun _ => failsOnly_bind (Field.failsOnly_object? fun _ => .inl) fun _ _ => failsOnly_ok _) _

end Problem

/-! ### Pages of orders -/

def Members.orders (ms : Members) : Except Fault (List Resource) := do
  (← (ms.field "orders").array).mapM (Resource.linked .order)

/-- An answer to the request for a page gives the orders that its document lists, and its first link
to a next page. -/
theorem Client.run_orderPage {env : Environment} {c c₁ : Client} {url : String} {status : Int}
    {r : Response} {ms : Members}
    (hfetch : (Exchange.fetch url Exchange.jsonType).run env (c, .idle)
      = (.ok status, (c₁, ⟨some r, some url, none⟩)))
    (hstatus : r.status = 200) (hdocument : (Body.octets r.content).document = .ok ms) :
    (orderPage url).run env c = ((do
      let orders ← ms.orders
      let urls ← r.links url "next"
      return (orders, urls.head?) : Except Fault _), c₁) := by
  have haccept : (Exchange.accept [200]).run env (c₁, ⟨some r, some url, none⟩)
      = (.ok r.status, (c₁, ⟨some r, some url, none⟩)) :=
    Exchange.run_accept_of_mem (List.mem_singleton.2 hstatus)
  have hjson : Exchange.readJson.run env (c₁, ⟨some r, some url, none⟩)
      = (.ok ms, (c₁, ⟨some r, some url, none⟩)) := Exchange.readJson_eq_ok.2 ⟨hdocument, rfl⟩
  have hlinks : (Exchange.links "next").run env (c₁, ⟨some r, some url, none⟩)
      = (r.links url "next", (c₁, ⟨some r, some url, none⟩)) := Exchange.run_links env c₁ rfl "next"
  rw [orderPage, connected, run_within, run_bind_of_ok env hfetch, run_bind_of_ok env haccept,
    run_bind_of_ok env hjson, Members.orders]
  cases harray : (ms.field "orders").array with
  | error e => rfl
  | ok items =>
    simp only [run_bind, run_lift, ok_bind]
    cases items.mapM (Resource.linked .order) with
    | error e => rfl
    | ok orders =>
      dsimp only
      rw [hlinks]
      cases r.links url "next" with
      | error e => rfl
      | ok urls => rfl

/-- **Lists are read entry by entry.** The authorizations and the identifiers of an order, the contacts
of an account, the problems within a problem and the orders on a page are what the document lists: one
for each entry of the array, in order, a resource with the URL in the entry for a location, but a hole
where the entry is `null`. So a list has an element of each entry exactly when no entry is `null`. When
a list is not read, then the field or an entry is refused by name, or the conversion of an entry fails
with a fault of its own. -/
theorem lists_are_read_by_entry (r : Resource) (p : Problem) (ms : Members) :
    (ReadsList r.authorizations (r.field "authorizations") .url ⟨.authorization, none, [], none⟩
        (Resource.IsLinkedTo .authorization) ∧
      ReadsList r.identifiers (r.field "identifiers") .identifier none Field.IsIdentifier ∧
      ReadsList r.contacts (r.field "contact") .uri none Field.IsUri) ∧
    ReadsList p.subproblems (Members.field p.members "subproblems") .object ⟨[], p.baseUrl⟩
      (Problem.IsDocument p.baseUrl) ∧
    ReadsList ms.orders (ms.field "orders") .url ⟨.order, none, [], none⟩
      (Resource.IsLinkedTo .order) ∧
    ∀ (env : Environment) (c c₁ : Client) (url : String) (status : Int) (answer : Response),
      (Exchange.fetch url Exchange.jsonType).run env (c, .idle)
        = (.ok status, (c₁, ⟨some answer, some url, none⟩)) →
      answer.status = 200 → (Body.octets answer.content).document = .ok ms →
      (Client.orderPage url).run env c = ((do
        let orders ← ms.orders
        let urls ← answer.links url "next"
        return (orders, urls.head?) : Except Fault _), c₁) :=
  ⟨⟨Resource.linked_readsList .authorization _, r.identifiers_readsList, r.contacts_readsList⟩,
    p.subproblems_readsList, Resource.linked_readsList .order _,
    fun _ _ _ _ _ _ => Client.run_orderPage⟩

/-- An entry that is `null` leaves a hole among the authorizations of an order, and on a page of
orders. -/
theorem lists_are_read_by_entry_null :
    let r : Resource := ⟨.order, none,
      [("authorizations", .array [.null, .string "https://acme.test/1"])], none⟩
    let ms : Members := [("orders", .array [.null])]
    let answer : Response := ⟨200, none, ⟨[]⟩, Text.Utf8.encode ((Json.object ms).render .plain)⟩
    let env : Environment := ⟨fun _ => .response answer, fun _ => ⟨0, some 0⟩⟩
    let c := Client.ofSession { Session.sample with kid := none }
    r.authorizations = .ok [⟨.authorization, none, [], none⟩,
      ⟨.authorization, some "https://acme.test/1", [], none⟩] ∧
    (Body.octets answer.content).document = .ok ms ∧
    ∃ c₁, (Client.orderPage "https://acme.test/o").run env c
      = (.ok ([⟨.order, none, [], none⟩], none), c₁) := by
  intro r ms answer env c
  obtain ⟨⟨hresources, -, -⟩, -, hlisted, hpages⟩ := lists_are_read_by_entry r ⟨[], none⟩ ms
  have hauthorizations : (r.field "authorizations").Lists ⟨.authorization, none, [], none⟩
      (Resource.IsLinkedTo .authorization) [⟨.authorization, none, [], none⟩,
        ⟨.authorization, some "https://acme.test/1", [], none⟩] :=
    .inr ⟨_, rfl, .cons (.inl ⟨rfl, rfl⟩) (.cons (.inr ⟨"https://acme.test/1", rfl,
      eq_ok_of_toOption (by decide +kernel), rfl⟩) .nil)⟩
  have hdocument : (Body.octets answer.content).document = .ok ms :=
    Body.document_plain (by simp [ms, Json.Legible, Json.LegibleItems, Json.LegibleMembers])
  have horders : ms.orders = .ok [⟨.order, none, [], none⟩] :=
    (hlisted.ok_iff _).2 (.inr ⟨_, rfl, .cons (.inl ⟨rfl, rfl⟩) .nil⟩)
  refine ⟨(hresources.ok_iff _).2 hauthorizations, hdocument, ?_⟩
  -- the page is asked for, and the answer is held
  have hok : ((Exchange.fetch "https://acme.test/o" Exchange.jsonType).run env (c, .idle)).1
      = .ok 200 := eq_ok_of_toOption (by decide +kernel)
  rcases hfetch : (Exchange.fetch "https://acme.test/o" Exchange.jsonType).run env (c, .idle)
    with ⟨result, c₁, connection⟩
  rw [hfetch] at hok
  obtain rfl : result = .ok 200 := hok
  obtain ⟨q, hheld, hreply, -⟩ := Exchange.holds_fetch hfetch
  obtain rfl : answer = q := Reply.response.inj hreply
  obtain rfl : connection = ⟨some answer, some "https://acme.test/o", none⟩ := hheld
  exact ⟨c₁, (hpages env c c₁ _ 200 answer hfetch rfl hdocument).trans (by rw [horders]; rfl)⟩

end AcmeClient
