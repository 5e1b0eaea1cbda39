import AcmeClient.Json.Document
import AcmeClient.Proofs.Numerals
import AcmeClient.Proofs.Results
import Mathlib.Data.List.TakeWhile

/-!
# The values that are read

An object is put together member by member, so that a name stands in it once, and integers with too many
digits are refused. So not every value can come out of a text:

* `Members.nodup_ofPairs` — the names of an object that is put together are distinct;
* `Json.IsRead` — values with integers of few digits and distinct names, at every level;
* `Json.isRead_readValue` — whatever is read in a text is such a value;
* `Json.isRead_parse`, `Body.isRead_of_document` — so are the values of texts and documents;
* `Body.nodup_of_document` — the names in a document are distinct.
-/

namespace AcmeClient

open Number

/-! ### Names of objects -/

namespace Members

/-- A name that is there stays where it is, a new one comes last. -/
theorem names_put (name : String) (value : Json) (ms : Members) :
    names (put name value ms) = if name ∈ names ms then names ms else names ms ++ [name] := by
  induction ms with
  | nil => rfl
  | cons m ms ih =>
    rw [put]
    by_cases h : m.1 = name
    · simp [h, names]
    · have hne : name ≠ m.1 := fun he => h he.symm
      have hcons (v : Json) (l : Members) : names ((m.1, v) :: l) = m.1 :: names l := rfl
      have hm : names (m :: ms) = m.1 :: names ms := rfl
      rw [if_neg h, hcons, ih, hm]
      by_cases hin : name ∈ names ms
      · simp [hin]
      · simp [hin, hne]

/-- The members of an object are those it had, and the one that is put. -/
theorem mem_put {name : String} {value : Json} {ms : Members} {p : String × Json}
    (h : p ∈ put name value ms) : p = (name, value) ∨ p ∈ ms := by
  induction ms with
  | nil => exact .inl (List.mem_singleton.1 h)
  | cons m ms ih =>
    rw [put] at h
    split at h
    · rename_i hm
      obtain rfl | h := List.mem_cons.1 h
      · exact .inl (Prod.ext hm rfl)
      · exact .inr (List.mem_cons_of_mem _ h)
    · obtain rfl | h := List.mem_cons.1 h
      · exact .inr List.mem_cons_self
      · exact (ih h).imp_right (List.mem_cons_of_mem _)

/-- What holds of an object without members and stays when one of the pairs is put, holds of the
object that the pairs make. -/
theorem ofPairs_induction {P : Members → Prop} {ps : List (String × Json)} (hnil : P [])
    (hput : ∀ ms, ∀ p ∈ ps, P ms → P (put p.1 p.2 ms)) : P (ofPairs ps) := by
  have key (qs : List (String × Json)) (hqs : ∀ q ∈ qs, q ∈ ps) : ∀ ms : Members, P ms →
      P (qs.foldl (fun ms p => put p.1 p.2 ms) ms) := by
    induction qs with
    | nil => exact fun _ h => h
    | cons q qs ih =>
      intro ms h
      exact ih (fun q' hq' => hqs q' (List.mem_cons_of_mem _ hq')) _
        (hput ms q (hqs q List.mem_cons_self) h)
  exact key ps (fun _ h => h) [] hnil

/-- The names of an object that is put together are distinct. -/
theorem nodup_ofPairs (ps : List (String × Json)) : (names (ofPairs ps)).Nodup := by
  refine ofPairs_induction (P := fun ms => (names ms).Nodup) List.nodup_nil fun ms p _ h => ?_
  rw [names_put]
  split
  · exact h
  · rename_i hnew
    refine List.nodup_append.2 ⟨h, by simp, fun a ha b hb => ?_⟩
    rw [List.mem_singleton.1 hb]
    exact fun he => hnew (he ▸ ha)

/-- The members of an object that is put together are among the pairs. -/
theorem mem_of_mem_ofPairs {ps : List (String × Json)} : ∀ p ∈ ofPairs ps, p ∈ ps := by
  refine ofPairs_induction (P := fun ms => ∀ p ∈ ms, p ∈ ps) nofun fun ms q hq h p hp => ?_
  obtain rfl | hp := mem_put hp
  · exact hq
  · exact h p hp

end Members

namespace Json

/-! ### What comes out of a text -/

/-- Whether a value can come out of a text: its integers respect the limit of digits, and no object in
it shows a name twice. -/
inductive IsRead : Json → Prop where
  | null : IsRead .null
  | bool (b : Bool) : IsRead (.bool b)
  | int {n : Int} : (numeral n.natAbs).length ≤ digitLimit → IsRead (.int n)
  | float (x : Binary64) : IsRead (.float x)
  | string (s : String) : IsRead (.string s)
  | array {items : List Json} : (∀ x ∈ items, IsRead x) → IsRead (.array items)
  | object {ms : Members} : ms.names.Nodup → (∀ p ∈ ms, IsRead p.2) → IsRead (.object ms)

/-- The whole part of a number consists of digits, and is not empty. -/
theorem digits_of_wholePart {cs whole rest : List Char} (h : wholePart cs = some (whole, rest)) :
    whole ≠ [] ∧ ∀ c ∈ whole, isDigit c = true := by
  cases cs with
  | nil => cases h
  | cons c cs =>
    rw [wholePart] at h
    split at h
    · rename_i hzero
      cases h
      exact ⟨by simp, fun d hd => by rw [List.mem_singleton.1 hd, hzero]; decide⟩
    · split at h
      · rename_i hdigit
        cases h
        refine ⟨by simp, fun d hd => ?_⟩
        obtain rfl | hd := List.mem_cons.1 hd
        · exact hdigit
        · exact List.mem_takeWhile_imp hd
      · cases h

/-- A number is a floating point number, or an integer within the limit of digits. -/
theorem isRead_readNumber {negative : Bool} {left : Nat} {cs rest : List Char} {j : Json}
    (h : readNumber negative left cs = .ok (j, rest)) : j.IsRead := by
  unfold readNumber at h
  split at h
  · cases h
  · rename_i whole r hwhole
    obtain ⟨hne, hdigits⟩ := digits_of_wholePart hwhole
    dsimp only at h
    split at h
    · cases h
      exact .float _
    · split at h
      · cases h
        exact .float _
      · split at h
        · cases h
        · rename_i hlimit
          cases h
          refine .int ?_
          have hlength := length_numeral_ofDigits_le hne hdigits
          have habs : (if negative = true then -(ofDigits whole : Int) else ofDigits whole).natAbs
              = ofDigits whole := by split <;> simp
          rw [habs]
          omega

/-- The words are names of scalars. -/
theorem isRead_readWord? {cs rest : List Char} {j : Json}
    (h : readWord? cs = some (j, rest)) : j.IsRead := by
  obtain ⟨w, hw, h⟩ := List.exists_of_findSome?_eq_some h
  obtain ⟨r, -, h⟩ := Option.map_eq_some_iff.1 h
  cases h
  simp only [words, List.mem_cons, List.not_mem_nil, or_false] at hw
  obtain rfl | rfl | rfl | rfl | rfl | rfl := hw
  · exact .null
  · exact .bool true
  · exact .bool false
  · exact .float _
  · exact .float _
  · exact .float _

/-- What is read with some fuel is a value that can be read, and so are items and members. -/
theorem isRead_readValue (fuel : Nat) :
    (∀ cs j rest, readValue fuel cs = .ok (j, rest) → j.IsRead) ∧
    (∀ cs items rest, readItems fuel cs = .ok (items, rest) → ∀ x ∈ items, x.IsRead) ∧
    ∀ cs ps rest, readMembers fuel cs = .ok (ps, rest) → ∀ p ∈ ps, p.2.IsRead := by
  induction fuel with
  | zero =>
    refine ⟨fun cs j rest h => ?_, fun cs items rest h => ?_, fun cs ps rest h => ?_⟩
    · unfold readValue at h
      cases h
    · unfold readItems at h
      cases h
    · unfold readMembers at h
      cases h
  | succ fuel ih =>
    obtain ⟨hvalue, hitems, hmembers⟩ := ih
    refine ⟨fun cs j rest h => ?_, fun cs items rest h => ?_, fun cs ps rest h => ?_⟩
    · unfold readValue at h
      split at h
      · rename_i hword
        cases h
        exact isRead_readWord? hword
      · cases cs with
        | nil => cases h
        | cons c cs =>
          dsimp only at h
          split at h
          · obtain ⟨r, -, hr⟩ := map_eq_ok.1 h
            cases hr
            exact .string _
          split at h
          · split at h
            · cases h
              exact .array nofun
            · obtain ⟨r, hread, hr⟩ := map_eq_ok.1 h
              cases hr
              exact .array (hitems _ _ _ hread)
          split at h
          · split at h
            · cases h
              exact .object List.nodup_nil nofun
            · obtain ⟨r, hread, hr⟩ := map_eq_ok.1 h
              cases hr
              exact .object (Members.nodup_ofPairs _) fun p hp =>
                hmembers _ _ _ hread p (Members.mem_of_mem_ofPairs p hp)
          split at h
          · exact isRead_readNumber h
          · exact isRead_readNumber h
    · unfold readItems at h
      split at h
      · cases h
      · rename_i v r hread
        have hv := hvalue _ _ _ hread
        split at h
        · cases h
          exact List.forall_mem_singleton.2 hv
        · obtain ⟨p, hrest, hp⟩ := map_eq_ok.1 h
          cases hp
          exact List.forall_mem_cons.2 ⟨hv, hitems _ _ _ hrest⟩
        · cases h
    · unfold readMembers at h
      split at h
      · split at h
        · cases h
        · split at h
          · split at h
            · cases h
            · rename_i v r hread
              have hv := hvalue _ _ _ hread
              split at h
              · cases h
                exact List.forall_mem_singleton.2 hv
              · obtain ⟨p, hrest, hp⟩ := map_eq_ok.1 h
                cases hp
                exact List.forall_mem_cons.2 ⟨hv, hmembers _ _ _ hrest⟩
              · cases h
          · cases h
      · cases h

/-- The value of a text can be read. -/
theorem isRead_parse {s : String} {j : Json} (h : parse s = .ok j) : j.IsRead := by
  rw [parse, readWhole] at h
  rcases hread : readValue (2 * s.toList.length + 2) (skip s.toList) with e | ⟨v, rest⟩
  · rw [hread] at h
    cases h
  · rw [hread] at h
    dsimp only at h
    cases hrest : skip rest with
    | nil =>
      rw [hrest] at h
      cases h
      exact (isRead_readValue _).1 _ _ _ hread
    | cons c cs =>
      rw [hrest] at h
      cases h

end Json

/-! ### Documents -/

/-- What a document is read from holds an object with its members. -/
theorem Body.toJson_of_document {b : Body} {ms : Members} (h : b.document = .ok ms) :
    b.toJson = .ok (.object ms) := by
  unfold Body.document at h
  split at h
  · cases h
  · next members hjson =>
    cases h
    exact hjson
  · cases h

/-- The object in a document can be read. -/
theorem Body.isRead_of_document {b : Body} {ms : Members} (h : b.document = .ok ms) :
    (Json.object ms).IsRead := by
  have hjson : b.toJson = .ok (.object ms) := toJson_of_document h
  have hread {s : String} (h : (Json.parse s).mapError JsonDefect.grammar = .ok (.object ms)) :
      (Json.object ms).IsRead := by
    cases hparse : Json.parse s with
    | error e =>
      rw [hparse] at h
      cases h
    | ok j =>
      rw [hparse] at h
      cases h
      exact Json.isRead_parse hparse
  cases b with
  | text s =>
    rw [toJson] at hjson
    split at hjson
    · cases hjson
    · exact hread hjson
  | octets bs =>
    rw [toJson] at hjson
    split at hjson
    · cases hjson
    · exact hread hjson

/-- The names in a document are distinct. -/
theorem Body.nodup_of_document {b : Body} {ms : Members} (h : b.document = .ok ms) :
    ms.names.Nodup := by
  cases isRead_of_document h with
  | object hnames _ => exact hnames

end AcmeClient
