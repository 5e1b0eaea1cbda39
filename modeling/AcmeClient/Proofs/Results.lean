import AcmeClient.Resource.Loading
import Mathlib.Data.List.Forall2

/-!
# Results that do not ask to come back

Of all faults only one asks to come back later. No function that reads a document, a header or a
problem fails with it:

* `Fault.IsPrompt` — a fault that does not ask to come back;
* `Prompt` — a result that is no other failure;
* `prompt_bind`, `prompt_mapError`, … — how such results are composed;
* `mapM_eq_ok`, `mapM_eq_some_iff` — lists of results, element by element;
* `prompt_load` — a document is refused at once or taken.
-/

namespace AcmeClient

/-- Whether a fault does not ask to come back later. -/
def Fault.IsPrompt : Fault → Prop
  | .retryAfter _ _ => False
  | _ => True

/-! ### Results -/

/-- Whether a result is no failure that asks to come back later. -/
def Prompt {α : Type} (r : Except Fault α) : Prop :=
  ∀ e, r = .error e → e.IsPrompt

section Results

variable {α β δ : Type}

@[simp] theorem ok_bind (a : α) (f : α → Except Fault β) : (Except.ok a >>= f) = f a := rfl

@[simp] theorem error_bind (e : Fault) (f : α → Except Fault β) :
    (Except.error e >>= f) = .error e := rfl

@[simp] theorem ok_eq_pure (a : α) : (pure a : Except Fault α) = .ok a := rfl

@[simp] theorem ok_mapError (f : δ → Fault) (a : α) : (Except.ok a).mapError f = .ok a := rfl

@[simp] theorem error_mapError (f : δ → Fault) (d : δ) :
    (Except.error d : Except δ α).mapError f = .error (f d) := rfl

theorem eq_ok_of_toOption {r : Except Fault α} {a : α} (h : r.toOption = some a) : r = .ok a := by
  cases r with
  | error e => cases h
  | ok b => exact congrArg Except.ok (Option.some.inj h)

/-- A composed result succeeds when both parts do. -/
theorem bind_eq_ok {ε : Type} {x : Except ε α} {y : α → Except ε β} {b : β} :
    (x >>= y) = .ok b ↔ ∃ a, x = .ok a ∧ y a = .ok b := by
  cases x with
  | error e => exact ⟨nofun, nofun⟩
  | ok a =>
    constructor
    · exact fun h => ⟨a, rfl, h⟩
    · rintro ⟨a', ha, h⟩
      cases ha
      exact h

/-- A result that is mapped succeeds when it did. -/
theorem map_eq_ok {ε : Type} {f : α → β} {x : Except ε α} {b : β} :
    x.map f = .ok b ↔ ∃ a, x = .ok a ∧ f a = b := by
  cases x with
  | error e => simp [Except.map]
  | ok a => simp [Except.map]

/-- A composed result fails in its first part or, after it, in its second. -/
theorem bind_eq_error {x : Except Fault α} {y : α → Except Fault β} {e : Fault} :
    (x >>= y) = .error e ↔ x = .error e ∨ ∃ a, x = .ok a ∧ y a = .error e := by
  cases x with
  | error e' => simp
  | ok a => simp

/-- Results are gathered when there is one for each item; otherwise one of them fails. -/
theorem mapM_cases {ε : Type} (g : α → Except ε β) (xs : List α) :
    (∃ ys, xs.mapM g = .ok ys ∧ ∀ x ∈ xs, ∃ y, g x = .ok y) ∨
      ∃ x ∈ xs, ∃ e, g x = .error e ∧ xs.mapM g = .error e := by
  induction xs with
  | nil => exact .inl ⟨[], rfl, by simp⟩
  | cons x xs ih =>
    rw [List.mapM_cons]
    cases hx : g x with
    | error e => exact .inr ⟨x, by simp, e, hx, rfl⟩
    | ok y =>
      rcases ih with ⟨ys, hys, hall⟩ | ⟨x', hx', e, he, hfail⟩
      · refine .inl ⟨y :: ys, by rw [hys]; rfl, ?_⟩
        intro x' hx'
        rcases List.mem_cons.1 hx' with rfl | hx'
        · exact ⟨y, hx⟩
        · exact hall x' hx'
      · exact .inr ⟨x', by simp [hx'], e, he, by rw [hfail]; rfl⟩

/-- Results are gathered exactly when there is one for each item. -/
theorem mapM_eq_ok {ε : Type} {g : α → Except ε β} {xs : List α} {ys : List β} :
    xs.mapM g = .ok ys ↔ List.Forall₂ (fun x y => g x = .ok y) xs ys := by
  induction xs generalizing ys with
  | nil =>
    rw [List.mapM_nil, List.forall₂_nil_left_iff]
    exact ⟨fun h => (Except.ok.inj h).symm, fun h => congrArg Except.ok h.symm⟩
  | cons x xs ih =>
    rw [List.mapM_cons, bind_eq_ok, List.forall₂_cons_left_iff]
    constructor
    · rintro ⟨y, hy, h⟩
      obtain ⟨ys', hys, h⟩ := bind_eq_ok.1 h
      cases h
      exact ⟨y, ys', hy, ih.1 hys, rfl⟩
    · rintro ⟨y, ys', hy, hys, rfl⟩
      exact ⟨y, hy, bind_eq_ok.2 ⟨ys', ih.2 hys, rfl⟩⟩

/-- A list is read element by element where every element is read. -/
theorem mapM_eq_some_iff {f : α → Option β} {xs : List α} {ys : List β} :
    xs.mapM f = some ys ↔ List.Forall₂ (fun x y => f x = some y) xs ys := by
  induction xs generalizing ys with
  | nil =>
    rw [List.mapM_nil, List.forall₂_nil_left_iff]
    exact ⟨fun h => (Option.some.inj h).symm, fun h => congrArg some h.symm⟩
  | cons x xs ih =>
    rw [List.mapM_cons, List.forall₂_cons_left_iff]
    constructor
    · intro h
      obtain ⟨y, hy, h⟩ := Option.bind_eq_some_iff.1 h
      obtain ⟨ys', hys, h⟩ := Option.bind_eq_some_iff.1 h
      exact ⟨y, ys', hy, ih.1 hys, (Option.some.inj h).symm⟩
    · rintro ⟨y, ys', hy, hys, rfl⟩
      rw [hy, ih.2 hys]
      rfl

/-- What the elements of one list are related to holds of those of the other one. -/
theorem forall_mem_of_forall₂ {R : α → β → Prop} {p : β → Prop} {xs : List α}
    {ys : List β} (h : List.Forall₂ R xs ys) (hp : ∀ x y, R x y → p y) : ∀ y ∈ ys, p y := by
  induction h with
  | nil => exact nofun
  | cons h _ ih => exact List.forall_mem_cons.2 ⟨hp _ _ h, ih⟩

/-- Relations between elements compose. -/
theorem forall₂_comp {R : α → β → Prop} {S : β → δ → Prop} {xs : List α} {ys : List β}
    {zs : List δ} (hxy : List.Forall₂ R xs ys) (hyz : List.Forall₂ S ys zs) :
    List.Forall₂ (fun x z => ∃ y, R x y ∧ S y z) xs zs := by
  induction hxy generalizing zs with
  | nil =>
    rw [List.forall₂_nil_left_iff.1 hyz]
    exact .nil
  | cons hx _ ih =>
    cases hyz with
    | cons hy hyz => exact .cons ⟨_, hx, hy⟩ (ih hyz)

/-- Results are not gathered where the first failure is. -/
theorem mapM_of_error {g : α → Except Fault β} {before after : List α} {x : α} {e : Fault}
    (hbefore : ∀ y ∈ before, ∃ z, g y = .ok z) (hx : g x = .error e) :
    (before ++ x :: after).mapM g = .error e := by
  induction before with
  | nil => rw [List.nil_append, List.mapM_cons, hx, error_bind]
  | cons y before ih =>
    obtain ⟨z, hz⟩ := hbefore y List.mem_cons_self
    have hrest := ih fun y' hy' => hbefore y' (List.mem_cons_of_mem _ hy')
    rw [List.cons_append, List.mapM_cons, hz, ok_bind, hrest, error_bind]

theorem prompt_ok (a : α) : Prompt (.ok a : Except Fault α) := by
  intro e he
  cases he

theorem prompt_error {e : Fault} (h : e.IsPrompt) : Prompt (.error e : Except Fault α) := by
  intro e' he
  cases he
  exact h

theorem prompt_bind {x : Except Fault α} {y : α → Except Fault β} (hx : Prompt x)
    (hy : ∀ a, Prompt (y a)) : Prompt (x >>= y) := by
  cases x with
  | error e => exact prompt_error (hx e rfl)
  | ok a => exact hy a

theorem prompt_map (f : α → β) {x : Except Fault α} (hx : Prompt x) : Prompt (x.map f) := by
  cases x with
  | error e => exact prompt_error (hx e rfl)
  | ok a => exact prompt_ok (f a)

/-- Faults that stand for defects of another sort. -/
theorem prompt_mapError {f : δ → Fault} (hf : ∀ d, (f d).IsPrompt) (x : Except δ α) :
    Prompt (x.mapError f) := by
  cases x with
  | error d => exact prompt_error (hf d)
  | ok a => exact prompt_ok a

theorem prompt_contained (x : Except ContainerDefect α) : Prompt (contained x) :=
  prompt_mapError (f := Fault.container) (fun _ => trivial) x

theorem prompt_wellSplit (x : Except Url.Defect α) : Prompt (wellSplit x) :=
  prompt_mapError (f := fun d => Fault.argument (.url d)) (fun _ => trivial) x

theorem prompt_refuse (f : Field) (kind : FieldKind) (reason : Option FieldReason) :
    Prompt (f.refuse kind reason : Except Fault α) :=
  prompt_error trivial

theorem prompt_string? (f : Field) : Prompt f.string? := by
  unfold Field.string?
  split
  · exact prompt_ok _
  · exact prompt_ok _
  · exact prompt_refuse f _ _

theorem prompt_ofString? (f : Field) {convert : String → Except Fault α}
    (h : ∀ s, Prompt (convert s)) : Prompt (f.ofString? convert) := by
  refine prompt_bind (prompt_string? f) fun s => ?_
  split
  · exact prompt_ok _
  · exact prompt_bind (h _) fun _ => prompt_ok _

theorem prompt_isAbsolute (url : String) : Prompt (isAbsolute url) :=
  prompt_bind (prompt_wellSplit _) fun _ => prompt_ok _

theorem prompt_url? (f : Field) : Prompt f.url? := by
  refine prompt_ofString? f fun s => prompt_bind (prompt_isAbsolute s) fun b => ?_
  split
  · exact prompt_ok _
  · exact prompt_refuse f _ _

theorem prompt_decodeHeaderNonce (text : String) : Prompt (decodeHeaderNonce text) :=
  prompt_mapError (f := fun d : DecodingDefect => Fault.badNonce text d.message) (fun _ => trivial) _

theorem prompt_parse (value : String) (now : Calendar.Instant) :
    Prompt (RetryAfter.parse value now) := by
  have hrefuse : ∀ reason, Prompt (RetryAfter.refuse (Text.strip value) reason) := fun _ =>
    prompt_error trivial
  simp only [RetryAfter.parse]
  split
  · unfold RetryAfter.ofDate
    split
    · exact hrefuse _
    · split
      · exact prompt_ok _
      · exact hrefuse _
  · split
    · exact hrefuse _
    · exact prompt_mapError (f := Fault.outOfRange) (fun _ => trivial) _

/-! ### Directories, problems and signatures -/

theorem prompt_code? (p : Problem) : Prompt p.code? := by
  have hresolved : ∀ reference, Prompt (p.resolved reference) := by
    intro reference
    cases reference with
    | none => exact prompt_ok _
    | some r => exact prompt_map _ (prompt_wellSplit _)
  exact prompt_bind (prompt_bind (prompt_string? _) fun _ => prompt_bind (hresolved _) fun _ =>
    prompt_ok _) fun _ => prompt_ok _

theorem prompt_read (j : Json) (name : String) : Prompt (DirectoryMeta.read j name) := by
  refine prompt_bind (prompt_contained _) fun b => ?_
  split
  · exact prompt_contained _
  · exact prompt_ok _

theorem prompt_readDirectory (ms : Members) : Prompt (Client.readDirectory ms) := by
  have hmeta : ∀ j, Prompt (DirectoryMeta.ofJson j) := fun j =>
    prompt_bind (prompt_read j _) fun _ => prompt_bind (prompt_read j _) fun _ =>
      prompt_bind (prompt_read j _) fun _ => prompt_bind (prompt_read j _) fun _ => prompt_ok _
  have hdirectory : Prompt (Directory.ofJson (.object ms)) :=
    prompt_bind (prompt_contained _) fun _ => prompt_bind (hmeta _) fun _ =>
      prompt_bind (prompt_contained _) fun _ => prompt_ok _
  unfold Client.readDirectory
  split
  · exact prompt_error trivial
  · exact hdirectory

theorem prompt_url (d : Directory) (name : String) : Prompt (d.url name) := by
  unfold Directory.url
  split
  · exact prompt_error trivial
  · exact prompt_ok _
  · exact prompt_error trivial

theorem prompt_sign (a : Algorithm) (k : Key) (message : List UInt8) :
    Prompt (a.sign k message) := by
  unfold Algorithm.sign
  split
  · exact prompt_ok _
  · split
    · exact prompt_ok _
    · exact prompt_error trivial
  · exact prompt_ok _
  · exact prompt_error trivial

theorem prompt_request (payload : List UInt8) (key : Key) (nonce : List UInt8)
    (url kid : Option String) : Prompt (Signed.request payload key nonce url kid) := by
  have hkey : Prompt (Algorithm.ofKey key) := by
    unfold Algorithm.ofKey
    split
    · exact prompt_ok _
    · split
      · exact prompt_ok _
      · exact prompt_error trivial
    · exact prompt_error trivial
  exact prompt_bind hkey fun a => prompt_bind (prompt_sign _ _ _) fun _ => prompt_ok _

theorem prompt_typeIn (ms : Members) : Prompt (ResourceKind.typeIn ms) := by
  refine prompt_bind (prompt_string? _) fun t => ?_
  split
  · exact prompt_ok _
  · exact prompt_error trivial

theorem prompt_check (k : ResourceKind) (ms : Members) : Prompt (k.check ms) := by
  unfold ResourceKind.check
  split
  · exact prompt_ok _
  · split
    · exact prompt_error trivial
    · exact prompt_ok _
  · split
    · exact prompt_error trivial
    · exact prompt_ok _
  · split
    · exact prompt_error trivial
    · exact prompt_ok _
  · refine prompt_bind (prompt_typeIn ms) fun t => ?_
    split
    · split
      · exact prompt_error trivial
      · exact prompt_ok _
    · exact prompt_ok _

theorem prompt_checkUrl (s name : String) : Prompt (checkUrl (.string s) name) := by
  refine prompt_bind (prompt_isAbsolute s) fun b => ?_
  split
  · exact prompt_ok _
  · exact prompt_error trivial

theorem prompt_bindTo (r : Resource) (url : String) : Prompt (r.bindTo (.string url)) := by
  refine prompt_bind (prompt_bind (prompt_checkUrl url _) fun u => ?_) fun _ => prompt_ok _
  split
  · exact prompt_ok _
  · split
    · exact prompt_ok _
    · exact prompt_error trivial

/-- Taking a document fails with no fault that asks to come back. -/
theorem prompt_load (r : Resource) (ms : Members) : Prompt (r.load ms) := by
  have hurl : Prompt (r.urlFor ms) := by
    unfold Resource.urlFor
    split
    · refine prompt_bind (prompt_url? _) fun u => ?_
      split
      · exact prompt_ok _
      · exact prompt_url? _
    · exact prompt_ok _
  refine prompt_bind hurl fun url => prompt_bind (prompt_check _ ms) fun _ => ?_
  split
  · exact prompt_bindTo _ _
  · exact prompt_ok _

end Results

/-! ### Written members -/

/-- Members can be written when each of them can. -/
theorem Value.settle_of_ok {results : List (String × Except ValueDefect Json)}
    (h : ∀ p ∈ results, ∃ j, p.2 = .ok j) : ∃ ms, settle results = .ok ms := by
  rw [settle]
  split
  · rename_i e hfirst
    obtain ⟨p, hp, he⟩ := List.exists_of_findSome?_eq_some hfirst
    obtain ⟨j, hj⟩ := h p (List.mem_mergeSort.1 hp)
    rw [hj] at he
    cases he
  · exact ⟨_, rfl⟩

namespace Value

/-- Members that can all be written stay in document order. -/
theorem settle_map_ok (ms : Members) : settle (ms.map fun p => (p.1, .ok p.2)) = .ok ms := by
  have hall : ∀ p ∈ ms.map fun p => (p.1, (.ok p.2 : Except ValueDefect Json)),
      ∃ j, p.2 = .ok j := by
    intro p hp
    obtain ⟨q, -, rfl⟩ := List.mem_map.1 hp
    exact ⟨q.2, rfl⟩
  obtain ⟨ms', hms⟩ := settle_of_ok hall
  rw [hms]
  rw [settle] at hms
  split at hms
  · cases hms
  · have hsame : (ms.map fun p => (p.1, (.ok p.2 : Except ValueDefect Json))).filterMap
        (fun p => p.2.toOption.map (p.1, ·)) = ms := by
      rw [List.filterMap_map]
      exact List.filterMap_some
    rw [← Except.ok.inj hms, hsame]

mutual

/-- A JSON value that is given as a claim is written as it is. -/
theorem toJson_ofJson : ∀ j, (ofJson j).toJson = .ok j
  | .null => rfl
  | .bool _ => rfl
  | .int _ => rfl
  | .float _ => rfl
  | .string _ => rfl
  | .array items => by
    rw [ofJson, toJson, toItems_ofItems items]
    rfl
  | .object ms => by
    rw [ofJson, toJson, toResults_ofMembers ms, settle_map_ok]
    rfl

theorem toItems_ofItems : ∀ items, toItems (ofItems items) = .ok items
  | [] => rfl
  | j :: rest => by
    rw [ofItems, toItems, toJson_ofJson j, toItems_ofItems rest]
    rfl

theorem toResults_ofMembers :
    ∀ ms : Members, toResults (ofMembers ms) = ms.map fun p => (p.1, .ok p.2)
  | [] => rfl
  | (n, j) :: rest => by
    rw [ofMembers, toResults, toJson_ofJson j, toResults_ofMembers rest]
    rfl

end

end Value

end AcmeClient
