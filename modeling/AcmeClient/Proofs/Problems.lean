import AcmeClient.Problem.Reading
import AcmeClient.Proofs.Results
import AcmeClient.Proofs.References

/-!
# The types of problems

The type of a problem is a reference, resolved against the URL of the request. It makes a code when
it resolves to the name of a known one, and telling it fails when it is no text or cannot be
resolved:

* `ProblemCode.ofType?_eq_some_iff` — the type of a code is its name in the name space;
* `Problem.IsTyped`, `Problem.IsOf` — problems whose type can be told, and those with a code;
* `Problem.code?_cases` — the code can be read exactly when the type can be told;
* `Problem.isOf_iff` — against a URL of the web, only the name of a code resolves to it.
-/

namespace AcmeClient

namespace ProblemCode

/-- What is local in a type is what follows the name space. -/
theorem local?_eq_some_iff {typ code : String} : local? typ = some code ↔ typ = space ++ code := by
  rw [local?, isSpaced]
  by_cases h : space.toList.isPrefixOf typ.toList = true
  · obtain ⟨rest, hrest⟩ := List.isPrefixOf_iff_prefix.1 h
    rw [if_pos h, ← hrest, List.drop_left]
    constructor
    · intro hcode
      rw [← Option.some.inj hcode]
      apply String.toList_injective
      rw [String.toList_append, String.toList_ofList, hrest]
    · rintro rfl
      rw [String.toList_append] at hrest
      rw [List.append_cancel_left hrest, String.ofList_toList]
  · rw [if_neg h]
    constructor
    · intro hcode
      cases hcode
    · rintro rfl
      rw [String.toList_append] at h
      exact absurd (List.isPrefixOf_iff_prefix.2 (List.prefix_append _ _)) h

/-- The type of a code is its name in the name space. -/
theorem ofType?_eq_some_iff {typ code : String} :
    ofType? typ = some code ↔ isKnown code = true ∧ typ = space ++ code := by
  rw [← local?_eq_some_iff]
  cases hl : local? typ with
  | none => simp [ofType?, hl]
  | some found =>
    by_cases hk : isKnown found = true
    · simp only [ofType?, hl, Option.bind_eq_bind, Option.bind_some, if_pos hk]
      constructor
      · intro h
        rw [← Option.some.inj h]
        exact ⟨hk, rfl⟩
      · exact And.right
    · simp only [ofType?, hl, Option.bind_eq_bind, Option.bind_some, if_neg hk]
      constructor
      · intro h
        cases h
      · rintro ⟨hknown, h⟩
        rw [Option.some.inj h] at hk
        exact absurd hknown hk

end ProblemCode

namespace Problem

/-- Whether the type of a problem can be told: there is none, or a text that can be resolved. -/
def IsTyped (p : Problem) : Prop :=
  p.members.get "type" = .null ∨
    ∃ s u, p.members.get "type" = .string s ∧ resolve p.baseUrl s = .ok u

/-- Whether the type of a problem resolves to that of a code. -/
def IsOf (p : Problem) (code : String) : Prop :=
  ∃ s, p.members.get "type" = .string s ∧ resolve p.baseUrl s = .ok (ProblemCode.space ++ code)

variable {p : Problem}

theorem code?_of_null (h : p.members.get "type" = .null) : p.code? = .ok none := by
  have hstring : (Members.field p.members "type").string? = .ok none := by
    simp [Members.field, Field.string?, h]
  simp [code?, typ, hstring, resolved, ProblemCode.ofType?, ProblemCode.local?,
    ProblemCode.isSpaced, ProblemCode.space]

theorem code?_of_string {s : String} (h : p.members.get "type" = .string s) :
    p.code? = (wellSplit (resolve p.baseUrl s)).map ProblemCode.ofType? := by
  have hstring : (Members.field p.members "type").string? = .ok (some s) := by
    simp [Members.field, Field.string?, h]
  have hblank : ProblemCode.ofType? "about:blank" = ProblemCode.ofType? "" := by decide
  simp only [code?, typ, hstring, ok_bind, resolved]
  cases hu : resolve p.baseUrl s with
  | error d => rfl
  | ok u =>
    by_cases hempty : u = ""
    · subst hempty
      exact congrArg Except.ok hblank
    · show Except.ok (ProblemCode.ofType? (if u = "" then "about:blank" else u)) = _
      rw [if_neg hempty]
      rfl

theorem code?_of_other (hnull : p.members.get "type" ≠ .null)
    (hstring : ∀ s, p.members.get "type" ≠ .string s) : ∃ d, p.code? = .error (.protocol d) := by
  have herror : ∃ d, (Members.field p.members "type").string? = .error (.protocol d) := by
    unfold Field.string?
    split
    · rename_i h
      exact absurd h hnull
    · rename_i s h
      exact absurd h (hstring s)
    · exact ⟨_, rfl⟩
  obtain ⟨d, hd⟩ := herror
  exact ⟨d, by simp [code?, typ, hd]⟩

/-- The code of a problem can be read exactly when its type can be told; what goes wrong otherwise
is no refusal. -/
theorem code?_cases (p : Problem) :
    (∃ code, p.code? = .ok code ∧ p.IsTyped ∧
      ∀ c, ProblemCode.isKnown c = true → (code = some c ↔ p.IsOf c)) ∨
    (∃ e, p.code? = .error e ∧ ¬ p.IsTyped ∧ ∀ x, e ≠ .rejected x) := by
  by_cases hnull : p.members.get "type" = .null
  · refine .inl ⟨none, code?_of_null hnull, .inl hnull, fun c _ => ⟨nofun, ?_⟩⟩
    rintro ⟨s, hs, -⟩
    rw [hnull] at hs
    cases hs
  by_cases hstring : ∃ s, p.members.get "type" = .string s
  · obtain ⟨s, hs⟩ := hstring
    have honly : ∀ s', p.members.get "type" = .string s' → s' = s := by
      intro s' hs'
      rw [hs] at hs'
      exact (Json.string.inj hs').symm
    rw [code?_of_string hs]
    cases hu : resolve p.baseUrl s with
    | error d =>
      refine .inr ⟨_, rfl, ?_, by simp⟩
      rintro (h | ⟨s', u, hs', hu'⟩)
      · exact hnull h
      · rw [honly s' hs', hu] at hu'
        cases hu'
    | ok u =>
      refine .inl ⟨_, rfl, .inr ⟨s, u, hs, hu⟩, fun c hc => ?_⟩
      rw [ProblemCode.ofType?_eq_some_iff]
      constructor
      · rintro ⟨-, rfl⟩
        exact ⟨s, hs, hu⟩
      · rintro ⟨s', hs', hu'⟩
        rw [honly s' hs', hu] at hu'
        exact ⟨hc, Except.ok.inj hu'⟩
  · obtain ⟨d, hd⟩ := code?_of_other hnull fun s hs => hstring ⟨s, hs⟩
    refine .inr ⟨_, hd, ?_, by simp⟩
    rintro (h | ⟨s, u, hs, -⟩)
    · exact hnull h
    · exact hstring ⟨s, hs⟩

/-- Against a URL of the web, only the type of a code itself resolves to it. -/
theorem isOf_iff {code : String} (hurl : ∀ u, p.baseUrl = some u → isAbsolute u = .ok true) :
    p.IsOf code ↔ p.members.get "type" = .string (ProblemCode.space ++ code) := by
  have hname : (ProblemCode.space ++ code).toList
      = Url.nameStart ++ ("etf:params:acme:error:".toList ++ code.toList) := by
    rw [String.toList_append]
    rfl
  have hresolve : ∀ s, resolve p.baseUrl s = .ok (ProblemCode.space ++ code) ↔
      s = ProblemCode.space ++ code := by
    intro s
    cases hb : p.baseUrl with
    | none => simp [resolve]
    | some u => exact join_eq_name_iff (hurl u hb) hname
  constructor
  · rintro ⟨s, hs, hu⟩
    rw [hs, (hresolve s).1 hu]
  · exact fun h => ⟨_, h, (hresolve _).2 rfl⟩

end Problem

end AcmeClient
