import AcmeClient.Proofs.Results

/-!
# What fields hold

A conversion of a field gives nothing where the field is `null`, and otherwise what the value in the
field spells:

* `Field.string?_eq_ok`, `Field.object?_eq_ok` — texts and objects are what stands in the field;
* `Field.ofString?_eq_ok` — what is converted from a text;
* `Field.IsUri`, `Field.IsUrl`, `Field.IsIdentifier` — references and identifiers that values spell;
* `Field.uri?_eq_ok`, `Field.url?_eq_ok`, `Field.identifier?_eq_ok` — these are what is read.
-/

namespace AcmeClient

namespace Field

variable {f : Field} {α : Type}

theorem string?_eq_ok {text : Option String} :
    f.string? = .ok text ↔
      (f.value = .null ∧ text = none) ∨ ∃ s, f.value = .string s ∧ text = some s := by
  cases hv : f.value <;> simp [string?, hv, refuse, eq_comm]

theorem ofString?_eq_ok {convert : String → Except Fault α} {x : Option α} :
    f.ofString? convert = .ok x ↔ (f.value = .null ∧ x = none) ∨
      ∃ s a, f.value = .string s ∧ convert s = .ok a ∧ x = some a := by
  rw [ofString?, bind_eq_ok]
  constructor
  · rintro ⟨text, htext, h⟩
    obtain ⟨hnull, rfl⟩ | ⟨s, hs, rfl⟩ := string?_eq_ok.1 htext
    · cases h
      exact .inl ⟨hnull, rfl⟩
    · obtain ⟨a, ha, h⟩ := bind_eq_ok.1 h
      cases h
      exact .inr ⟨s, a, hs, ha, rfl⟩
  · rintro (⟨hnull, rfl⟩ | ⟨s, a, hs, ha, rfl⟩)
    · exact ⟨none, string?_eq_ok.2 (.inl ⟨hnull, rfl⟩), rfl⟩
    · refine ⟨some s, string?_eq_ok.2 (.inr ⟨s, hs, rfl⟩), ?_⟩
      simp only [ha, ok_bind, ok_eq_pure]

/-- Whether a value is a reference with a scheme. -/
def IsUri (j : Json) (x : Option String) : Prop :=
  ∃ s parts, j = .string s ∧ Url.split s = .ok parts ∧ parts.scheme ≠ [] ∧ x = some s

/-- Whether a value is a URL that requests can be sent to. -/
def IsUrl (j : Json) (x : Option String) : Prop :=
  ∃ u, j = .string u ∧ isAbsolute u = .ok true ∧ x = some u

def IsIdentifier (j : Json) (x : Option Identifier) : Prop :=
  ∃ ms i, j = .object ms ∧ Identifier.ofJson j = .ok i ∧ x = some i

theorem uri?_eq_ok {x : Option String} :
    f.uri? = .ok x ↔ (f.value = .null ∧ x = none) ∨ IsUri f.value x := by
  have hconvert : ∀ s a, (do
      let parts ← wellSplit (Url.split s)
      if parts.scheme = [] then f.refuse .uri none else return s : Except Fault String) = .ok a ↔
      (∃ parts, Url.split s = .ok parts ∧ parts.scheme ≠ []) ∧ a = s := by
    intro s a
    cases hsplit : Url.split s with
    | error d => simp [wellSplit]
    | ok parts =>
      by_cases hscheme : parts.scheme = []
      · simp [wellSplit, hscheme, refuse]
      · simp [wellSplit, hscheme, eq_comm]
  rw [uri?, ofString?_eq_ok]
  simp only [hconvert, IsUri]
  constructor
  · rintro (hnull | ⟨s, a, hs, ⟨⟨parts, hsplit, hscheme⟩, rfl⟩, rfl⟩)
    · exact .inl hnull
    · exact .inr ⟨a, parts, hs, hsplit, hscheme, rfl⟩
  · rintro (hnull | ⟨s, parts, hs, hsplit, hscheme, rfl⟩)
    · exact .inl hnull
    · exact .inr ⟨s, s, hs, ⟨⟨parts, hsplit, hscheme⟩, rfl⟩, rfl⟩

theorem url?_eq_ok {x : Option String} :
    f.url? = .ok x ↔ (f.value = .null ∧ x = none) ∨ IsUrl f.value x := by
  have hconvert : ∀ s a, (do
      if ← isAbsolute s then return s else f.refuse .url none : Except Fault String) = .ok a ↔
      isAbsolute s = .ok true ∧ a = s := by
    intro s a
    cases habsolute : isAbsolute s with
    | error e => simp
    | ok b => cases b <;> simp [refuse, eq_comm]
  rw [url?, ofString?_eq_ok]
  simp only [hconvert, IsUrl]
  constructor
  · rintro (hnull | ⟨s, a, hs, ⟨habsolute, rfl⟩, rfl⟩)
    · exact .inl hnull
    · exact .inr ⟨a, hs, habsolute, rfl⟩
  · rintro (hnull | ⟨u, hu, habsolute, rfl⟩)
    · exact .inl hnull
    · exact .inr ⟨u, u, hu, ⟨habsolute, rfl⟩, rfl⟩

theorem object?_eq_ok {x : Option Members} :
    f.object? = .ok x ↔
      (f.value = .null ∧ x = none) ∨ ∃ ms, f.value = .object ms ∧ x = some ms := by
  cases hv : f.value <;> simp [object?, hv, refuse, eq_comm]

theorem identifier?_eq_ok {x : Option Identifier} :
    f.identifier? = .ok x ↔ (f.value = .null ∧ x = none) ∨ IsIdentifier f.value x := by
  rw [identifier?, bind_eq_ok]
  constructor
  · rintro ⟨object, hobject, h⟩
    obtain ⟨hnull, rfl⟩ | ⟨ms, hms, rfl⟩ := object?_eq_ok.1 hobject
    · cases h
      exact .inl ⟨hnull, rfl⟩
    · dsimp only at h
      split at h
      · rename_i i hi
        cases h
        exact .inr ⟨ms, i, hms, by rw [hms, hi], rfl⟩
      · cases h
      · cases h
  · rintro (⟨hnull, rfl⟩ | ⟨ms, i, hms, hi, rfl⟩)
    · exact ⟨none, object?_eq_ok.2 (.inl ⟨hnull, rfl⟩), rfl⟩
    · refine ⟨some ms, object?_eq_ok.2 (.inr ⟨ms, hms, rfl⟩), ?_⟩
      rw [hms] at hi
      simp only [hi, ok_eq_pure]

end Field

end AcmeClient
