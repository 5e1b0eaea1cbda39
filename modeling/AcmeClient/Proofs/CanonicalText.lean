import AcmeClient.Problem.Basic
import AcmeClient.Proofs.Json.Documents
import AcmeClient.Proofs.Json.RoundTrip
import AcmeClient.Proofs.Json.Trees

/-!
# The canonical text

The canonical text sorts members, so it forgets their order and nothing else. Problems are compared
by it:

* `SameTree.write_eq` — the same tree is written as the same text;
* `canonical_eq_iff` — legible values have one canonical text when they are the same tree, and else
  two different ones;
* `IsPart`, `IsRead.legible` — a value from a text is legible when no part of it is a floating point
  number;
* `Problem.same_iff_same_tree` — problems are equal, and hash alike, exactly when their documents are
  the same up to the order of members.
-/

namespace AcmeClient

namespace Json

/-! ### Texts and trees -/

/-- Written members with distinct names are sorted into one list, whatever order they come in. -/
theorem mergeSort_eq_of_perm {ps qs : List (String × List Char)} (h : ps.Perm qs)
    (hnames : (ps.map Prod.fst).Nodup) : ps.mergeSort nameLE = qs.mergeSort nameLE := by
  have hsorted (rs : List (String × List Char)) :
      (rs.mergeSort nameLE).Pairwise fun p q => p.1 ≤ q.1 := by
    have hpairwise : (rs.mergeSort nameLE).Pairwise fun p q => nameLE p q = true :=
      List.pairwise_mergeSort
        (fun a b c hab hbc => by
          simp only [nameLE, decide_eq_true_eq] at hab hbc ⊢
          exact String.le_trans hab hbc)
        (fun a b => by simpa [nameLE] using String.le_total a.1 b.1) rs
    exact hpairwise.imp fun hle => by simpa [nameLE] using hle
  have hperm : (ps.mergeSort nameLE).Perm (qs.mergeSort nameLE) :=
    (List.mergeSort_perm ps _).trans (h.trans (List.mergeSort_perm qs _).symm)
  refine List.Perm.eq_of_pairwise (fun p q hp hq hpq hqp => ?_) (hsorted ps) (hsorted qs) hperm
  have hp' : p ∈ ps := (List.mergeSort_perm ps _).mem_iff.1 hp
  have hq' : q ∈ ps := h.mem_iff.2 ((List.mergeSort_perm qs _).mem_iff.1 hq)
  exact List.inj_on_of_nodup_map hnames hp' hq' (String.le_antisymm hpq hqp)

/-- Objects with the same names, and with values under them that are written alike, have the same
written members. -/
theorem writeMembers_perm {l : Layout} {ms ns : Members} (hms : ms.names.Nodup)
    (hns : ns.names.Nodup) (hnames : ms.names.Perm ns.names)
    (h : ∀ name x y, ms.get? name = some x → ns.get? name = some y → write l x = write l y) :
    (writeMembers l ms).Perm (writeMembers l ns) := by
  have hnodup {ks : Members} (hks : ks.names.Nodup) :
      (ks.map fun p => (p.1, writeMember l p)).Nodup := by
    refine List.Nodup.of_map Prod.fst ?_
    rw [List.map_map]
    exact hks
  have hmember {name : String} {x y : Json} (hx : ms.get? name = some x)
      (hy : ns.get? name = some y) : writeMember l (name, x) = writeMember l (name, y) := by
    rw [writeMember, writeMember, h name x y hx hy]
  rw [writeMembers_eq_map, writeMembers_eq_map, List.perm_ext_iff_of_nodup (hnodup hms) (hnodup hns)]
  intro q
  rw [List.mem_map, List.mem_map]
  constructor
  · rintro ⟨⟨name, x⟩, hmem, rfl⟩
    have hx := (Members.get?_eq_some_iff hms).2 hmem
    obtain ⟨y, hy⟩ := Members.mem_names_iff.1 (hnames.mem_iff.1 (Members.mem_names_iff.2 ⟨x, hx⟩))
    exact ⟨(name, y), (Members.get?_eq_some_iff hns).1 hy, by rw [hmember hx hy]⟩
  · rintro ⟨⟨name, y⟩, hmem, rfl⟩
    have hy := (Members.get?_eq_some_iff hns).2 hmem
    obtain ⟨x, hx⟩ := Members.mem_names_iff.1 (hnames.mem_iff.2 (Members.mem_names_iff.2 ⟨y, hy⟩))
    exact ⟨(name, x), (Members.get?_eq_some_iff hms).1 hx, by rw [hmember hx hy]⟩

/-- The same tree is written as the same canonical text. -/
theorem SameTree.write_eq {a b : Json} (h : SameTree a b) (ha : Legible a) (hb : Legible b) :
    write .canonical a = write .canonical b := by
  induction h with
  | refl => rfl
  | @array xs ys hlength _ ih =>
    have hitems : writeItems .canonical xs = writeItems .canonical ys := by
      rw [writeItems_eq_map, writeItems_eq_map]
      refine List.ext_getElem (by simpa using hlength) fun i hi hi' => ?_
      rw [List.length_map] at hi hi'
      rw [List.getElem_map, List.getElem_map]
      exact ih i xs[i] ys[i] (List.getElem?_eq_getElem hi) (List.getElem?_eq_getElem hi')
        (legibleItems_iff.1 ha _ (List.getElem_mem hi))
        (legibleItems_iff.1 hb _ (List.getElem_mem hi'))
    rw [write, write, hitems]
  | @object ms ns hnames _ ih =>
    have hms : ms.names.Nodup := ha.1
    have hns : ns.names.Nodup := hb.1
    have hperm : (writeMembers .canonical ms).Perm (writeMembers .canonical ns) :=
      writeMembers_perm hms hns hnames fun name x y hx hy => ih name x y hx hy
        (legibleMembers_iff.1 ha.2 _ ((Members.get?_eq_some_iff hms).1 hx))
        (legibleMembers_iff.1 hb.2 _ ((Members.get?_eq_some_iff hns).1 hy))
    have hwritten : ((writeMembers .canonical ms).map Prod.fst).Nodup := by
      rw [writeMembers_eq_map, List.map_map]
      exact hms
    have hsort := mergeSort_eq_of_perm hperm hwritten
    rw [write, write]
    simp only [Layout.canonical, if_true] at hsort ⊢
    rw [hsort]

/-- Legible values have the same canonical text exactly when they are the same tree. -/
theorem canonical_eq_iff {a b : Json} (ha : Legible a) (hb : Legible b) :
    a.canonical = b.canonical ↔ SameTree a b := by
  constructor
  · intro h
    -- both are read back from the one text
    have hread := parse_render Layout.isSpaced_canonical ha
    rw [show a.render .canonical = b.render .canonical from h,
      parse_render Layout.isSpaced_canonical hb] at hread
    have harranged : arranged .canonical b = arranged .canonical a := Except.ok.inj hread
    have hb' := sameTree_arranged .canonical b hb
    rw [harranged] at hb'
    exact (sameTree_arranged .canonical a ha).symm.trans hb'
  · intro h
    rw [canonical, canonical, render, render, h.write_eq ha hb]

/-! ### Values from a text -/

/-- Whether a value stands somewhere in another one. -/
inductive IsPart (x : Json) : Json → Prop where
  | self : IsPart x x
  | item {y : Json} {items : List Json} : y ∈ items → IsPart x y → IsPart x (.array items)
  | member {p : String × Json} {ms : Members} : p ∈ ms → IsPart x p.2 → IsPart x (.object ms)

/-- No part of a legible value is a floating point number. -/
theorem Legible.not_isPart_float {j : Json} (h : Legible j) (x : Number.Binary64) :
    ¬ IsPart (.float x) j := by
  intro hpart
  induction hpart with
  | self => exact h
  | item hmem _ ih => exact ih (legibleItems_iff.1 h _ hmem)
  | member hmem _ ih => exact ih (legibleMembers_iff.1 h.2 _ hmem)

/-- A value from a text is legible when no part of it is a floating point number. -/
theorem IsRead.legible {j : Json} (h : j.IsRead) (hfloat : ∀ x, ¬ IsPart (.float x) j) :
    Legible j := by
  induction h with
  | null => trivial
  | bool b => trivial
  | int hn => exact hn
  | float x => exact absurd .self (hfloat x)
  | string s => trivial
  | array _ ih =>
    refine legibleItems_iff.2 fun y hy => ih y hy fun x hx => ?_
    exact hfloat x (.item hy hx)
  | object hnames _ ih =>
    refine ⟨hnames, legibleMembers_iff.2 fun p hp => ih p hp fun x hx => ?_⟩
    exact hfloat x (.member hp hx)

end Json

/-! ### Documents and problems -/

/-- The canonical text of a document without floating point numbers is a document, and the same tree.
Two such texts agree exactly when the documents are the same up to the order of members; so problems
with these documents are equal, and hash alike, exactly then. -/
theorem Problem.same_iff_same_tree {s t : Body} {a b : Members} (ha : s.document = .ok a)
    (hb : t.document = .ok b) (hfloatA : ∀ x, ¬ Json.IsPart (.float x) (.object a))
    (hfloatB : ∀ x, ¬ Json.IsPart (.float x) (.object b)) :
    (∃ again, (Body.text (Json.object a).canonical).document = .ok again ∧
        Json.SameTree (.object again) (.object a)) ∧
      ((Json.object a).canonical = (Json.object b).canonical
        ↔ Json.SameTree (.object a) (.object b)) ∧
      ∀ (urlA urlB : Option String),
        (Problem.same ⟨a, urlA⟩ ⟨b, urlB⟩ = true ↔ Json.SameTree (.object a) (.object b)) ∧
        ∀ textHash, (Problem.same ⟨a, urlA⟩ ⟨b, urlB⟩ = true ∧
            Problem.hash textHash ⟨a, urlA⟩ = Problem.hash textHash ⟨b, urlB⟩
          ↔ Json.SameTree (.object a) (.object b)) := by
  have hlegibleA := (Body.isRead_of_document ha).legible hfloatA
  have hlegibleB := (Body.isRead_of_document hb).legible hfloatB
  have htexts := Json.canonical_eq_iff hlegibleA hlegibleB
  refine ⟨⟨_, Body.document_text Json.Layout.isSpaced_canonical hlegibleA,
    Json.sameTree_arranged .canonical _ hlegibleA⟩, htexts, fun urlA urlB => ?_⟩
  have hsame : Problem.same ⟨a, urlA⟩ ⟨b, urlB⟩ = true ↔ Json.SameTree (.object a) (.object b) := by
    rw [Problem.same, beq_iff_eq]
    exact htexts
  refine ⟨hsame, fun textHash => ?_⟩
  rw [Problem.hash, Problem.hash, and_iff_left_of_imp, hsame]
  intro h
  exact congrArg textHash (beq_iff_eq.1 h)

/-- Members in another order make an equal problem; the number one in the place of `true` does not. -/
theorem Problem.same_iff_same_tree_reordered :
    let first : Members := [("detail", .bool true), ("title", .string "Refused")]
    let second : Members := [("title", .string "Refused"), ("detail", .bool true)]
    let other : Members := [("title", .string "Refused"), ("detail", .int 1)]
    Problem.same ⟨first, none⟩ ⟨second, some "https://acme.test/"⟩ = true ∧
      Problem.same ⟨second, none⟩ ⟨other, none⟩ ≠ true := by
  intro first second other
  have hfirst : Json.Legible (.object first) := ⟨by decide, trivial, trivial, trivial⟩
  have hsecond : Json.Legible (.object second) := ⟨by decide, trivial, trivial, trivial⟩
  have hone : (Number.numeral 1).length ≤ Json.digitLimit := by decide +kernel
  have hother : Json.Legible (.object other) := ⟨by decide, trivial, hone, trivial⟩
  have hequal := same_iff_same_tree (Body.document_render hfirst) (Body.document_render hsecond)
    hfirst.not_isPart_float hsecond.not_isPart_float
  have hdiffer := same_iff_same_tree (Body.document_render hsecond) (Body.document_render hother)
    hsecond.not_isPart_float hother.not_isPart_float
  refine ⟨(hequal.2.2 _ _).1.2 (.of_perm hfirst.1 (.swap _ _ [])), fun h => ?_⟩
  have hdetail := (Json.SameTree.object_iff.1 ((hdiffer.2.2 _ _).1.1 h)).2 "detail" _ _ rfl rfl
  exact absurd hdetail nofun

end AcmeClient
