import AcmeClient.Proofs.Json.Legible
import Mathlib.Data.List.Nodup

/-!
# Values up to the order of members

Two values may differ in the order of members only:

* `lookup_eq_some_iff_mem` — where names are distinct, a lookup finds what stands beside the name;
* `SameTree` — equality of values up to the order of members, at every level;
* `SameTree.symm`, `SameTree.trans` — it is an equivalence;
* `SameTree.object_iff`, `SameTree.of_get?`, `SameTree.of_perm` — what it says of objects;
* `get?_arranged`, `sameTree_arranged` — a layout changes the order of members only.
-/

namespace AcmeClient

/-! ### Lookups -/

section Lookup

variable {α β : Type} {l : List (String × α)} {name : String}

/-- Where names are distinct, a lookup finds what stands beside the name. -/
theorem lookup_eq_some_iff_mem (h : (l.map Prod.fst).Nodup) {x : α} :
    l.lookup name = some x ↔ (name, x) ∈ l := by
  constructor
  · intro hx
    obtain ⟨before, after, rfl, -⟩ := List.lookup_eq_some_iff.1 hx
    exact List.mem_append_right _ List.mem_cons_self
  · intro hmem
    obtain ⟨before, after, rfl⟩ := List.append_of_mem hmem
    rw [List.map_append, List.map_cons] at h
    refine List.lookup_eq_some_iff.2 ⟨before, after, rfl, fun p hp => bne_iff_ne.2 fun he => ?_⟩
    exact (List.nodup_append.1 h).2.2 p.1 (List.mem_map_of_mem hp) name List.mem_cons_self he.symm

theorem lookup_map_snd (f : α → β) :
    (l.map fun p => (p.1, f p.2)).lookup name = (l.lookup name).map f := by
  induction l with
  | nil => rfl
  | cons p l ih =>
    rw [List.map_cons, List.lookup_cons, List.lookup_cons, ih]
    cases name == p.1 with
    | true => rfl
    | false => rfl

end Lookup

namespace Members

variable {ms ns : Members} {name : String} {x : Json}

/-- Where names are distinct, the value of a name is the one that stands beside it. -/
theorem get?_eq_some_iff (h : ms.names.Nodup) : ms.get? name = some x ↔ (name, x) ∈ ms :=
  lookup_eq_some_iff_mem h

/-- Members in another order have the same values. -/
theorem get?_eq_of_perm (h : ms.Perm ns) (hnames : ms.names.Nodup) :
    ms.get? name = ns.get? name := by
  have hnames' : ns.names.Nodup := (h.map Prod.fst).nodup_iff.1 hnames
  refine Option.ext fun x => ?_
  rw [get?_eq_some_iff hnames, get?_eq_some_iff hnames', h.mem_iff]

/-- The names of an object are those that have a value. -/
theorem mem_names_iff : name ∈ ms.names ↔ ∃ x, ms.get? name = some x := by
  constructor
  · intro h
    cases hx : ms.get? name with
    | some x => exact ⟨x, rfl⟩
    | none =>
      obtain ⟨p, hp, rfl⟩ := List.mem_map.1 h
      exact absurd (List.lookup_eq_none_iff.1 hx p hp) (by simp)
  · rintro ⟨x, hx⟩
    obtain ⟨before, after, rfl, -⟩ := List.lookup_eq_some_iff.1 hx
    simp [names]

end Members

namespace Json

/-! ### The same tree -/

/-- Equality of values up to the order of members: arrays agree item by item, and objects have the
same names with the same values under them, at every level. -/
inductive SameTree : Json → Json → Prop where
  | refl (j : Json) : SameTree j j
  | array {xs ys : List Json} : xs.length = ys.length →
      (∀ (i : Nat) (x y : Json), xs[i]? = some x → ys[i]? = some y → SameTree x y) →
      SameTree (.array xs) (.array ys)
  | object {ms ns : Members} : ms.names.Perm ns.names →
      (∀ name x y, ms.get? name = some x → ns.get? name = some y → SameTree x y) →
      SameTree (.object ms) (.object ns)

namespace SameTree

variable {a b c : Json}

theorem symm (h : SameTree a b) : SameTree b a := by
  induction h with
  | refl j => exact .refl j
  | array hlength _ ih => exact .array hlength.symm fun i y x hy hx => ih i x y hx hy
  | object hnames _ ih => exact .object hnames.symm fun name y x hy hx => ih name x y hx hy

theorem trans (hab : SameTree a b) (hbc : SameTree b c) : SameTree a c := by
  induction hab generalizing c with
  | refl j => exact hbc
  | @array xs ys hlength hitems ih =>
    cases hbc with
    | refl => exact .array hlength hitems
    | array hlength' hitems' =>
      refine .array (hlength.trans hlength') fun i x z hx hz => ?_
      have hi : i < ys.length := hlength ▸ (List.getElem?_eq_some_iff.1 hx).1
      have hy : ys[i]? = some ys[i] := List.getElem?_eq_getElem hi
      exact ih i x ys[i] hx hy (hitems' i ys[i] z hy hz)
  | @object ms ns hnames hvalues ih =>
    cases hbc with
    | refl => exact .object hnames hvalues
    | object hnames' hvalues' =>
      refine .object (hnames.trans hnames') fun name x z hx hz => ?_
      obtain ⟨y, hy⟩ := Members.mem_names_iff.1 (hnames.mem_iff.1 (Members.mem_names_iff.2 ⟨x, hx⟩))
      exact ih name x y hx hy (hvalues' name y z hy hz)

/-- Objects are the same when they have the same names and the same trees under them. -/
theorem object_iff {ms ns : Members} : SameTree (.object ms) (.object ns) ↔
    ms.names.Perm ns.names ∧
      ∀ name x y, ms.get? name = some x → ns.get? name = some y → SameTree x y := by
  constructor
  · intro h
    cases h with
    | refl =>
      refine ⟨.refl _, fun name x y hx hy => ?_⟩
      obtain rfl : x = y := Option.some.inj (hx.symm.trans hy)
      exact .refl x
    | object hnames hvalues => exact ⟨hnames, hvalues⟩
  · exact fun h => .object h.1 h.2

/-- Objects with distinct names are the same when each name has the same tree in both, or none. -/
theorem of_get? {ms ns : Members} (hms : ms.names.Nodup) (hns : ns.names.Nodup)
    (h : ∀ name, Option.Rel SameTree (ms.get? name) (ns.get? name)) :
    SameTree (.object ms) (.object ns) := by
  have hnames : ms.names.Perm ns.names := by
    rw [List.perm_ext_iff_of_nodup hms hns]
    intro name
    rw [Members.mem_names_iff, Members.mem_names_iff]
    have hname := h name
    generalize ms.get? name = x at hname ⊢
    generalize ns.get? name = y at hname ⊢
    cases hname with
    | none => rfl
    | some _ => exact ⟨fun _ => ⟨_, rfl⟩, fun _ => ⟨_, rfl⟩⟩
  refine .object hnames fun name x y hx hy => ?_
  have hname := h name
  rw [hx, hy] at hname
  cases hname with
  | some hxy => exact hxy

/-- Members in another order make the same object. -/
theorem of_perm {ms ns : Members} (hnames : ms.names.Nodup) (h : ms.Perm ns) :
    SameTree (.object ms) (.object ns) := by
  refine of_get? hnames ((h.map Prod.fst).nodup_iff.1 hnames) fun name => ?_
  rw [Members.get?_eq_of_perm h hnames]
  cases ns.get? name with
  | none => exact .none
  | some x => exact .some (.refl x)

end SameTree

/-! ### Values arranged -/

theorem arrangedItems_eq_map (l : Layout) (xs : List Json) :
    arrangedItems l xs = xs.map (arranged l) := by
  induction xs with
  | nil => rfl
  | cons x xs ih => rw [arrangedItems, ih, List.map_cons]

/-- An arranged object has the same names. -/
theorem names_arranged (l : Layout) (ms : Members) :
    (Members.names (l.order (arrangedMembers l ms))).Perm (Members.names ms) := by
  have hkeep : (arrangedMembers l ms).map Prod.fst = ms.map Prod.fst := by
    rw [arrangedMembers_eq_map, List.map_map]
    rfl
  rw [Members.names, Members.names, ← hkeep]
  exact (l.order_perm _).map Prod.fst

/-- Under each name of an arranged object stands the arranged value. -/
theorem get?_arranged (l : Layout) {ms : Members} (hnames : ms.names.Nodup) (name : String) :
    Members.get? (l.order (arrangedMembers l ms)) name = (ms.get? name).map (arranged l) := by
  rw [Members.get?_eq_of_perm (l.order_perm _) ((names_arranged l ms).nodup_iff.2 hnames),
    arrangedMembers_eq_map]
  exact lookup_map_snd (arranged l)

/-- A layout changes the order of members only. -/
theorem sameTree_arranged (l : Layout) : ∀ j, Legible j → SameTree (arranged l j) j
  | .null, _ | .bool _, _ | .int _, _ | .float _, _ | .string _, _ => .refl _
  | .array items, h => by
    rw [arranged, arrangedItems_eq_map]
    refine .array (List.length_map _) fun i x y hx hy => ?_
    rw [List.getElem?_map, hy] at hx
    cases hx
    have hmem : y ∈ items := List.mem_of_getElem? hy
    exact sameTree_arranged l y (legibleItems_iff.1 h y hmem)
  | .object ms, h => by
    have hnames : (Members.names ms).Nodup := h.1
    refine .object (names_arranged l ms) fun name x y hx hy => ?_
    rw [get?_arranged l hnames, hy] at hx
    cases hx
    have hmem := (Members.get?_eq_some_iff hnames).1 hy
    exact sameTree_arranged l y (legibleMembers_iff.1 h.2 _ hmem)
termination_by j => sizeOf j
decreasing_by
  · have := List.sizeOf_lt_of_mem hmem
    simp only [Json.array.sizeOf_spec]
    omega
  · have := List.sizeOf_lt_of_mem hmem
    simp only [Json.object.sizeOf_spec, Prod.mk.sizeOf_spec] at this ⊢
    omega

end Json

end AcmeClient
