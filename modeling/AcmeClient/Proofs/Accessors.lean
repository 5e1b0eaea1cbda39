import AcmeClient.Proofs.FieldValues

/-!
# How fields are refused

A field that does not hold what it should is refused under its path. There are two ways around: the
text of a reference may be impossible to split, and the kind of an identifier may be a value that
cannot be looked up:

* `Accessor` — the conversions of a field, and `Accessor.read`;
* `Field.Refuses` and `names_of_refuses` — a refusal, whose message names the path;
* `FailsOnly` — results that fail in a certain way at most, and how they are composed;
* `Accessor.Escapes` — the faults that are no refusals;
* `Accessor.read_fails` — how conversions fail, and exactly when a fault escapes.
-/

namespace AcmeClient

open Text

/-! ### Conversions -/

/-- The conversions of a field. -/
inductive Accessor where
  | string : Accessor
  | uri : Accessor
  | url : Accessor
  | instant : Accessor
  | int : Accessor
  | bool : Accessor
  | object : Accessor
  | array : Accessor
  | binary : Accessor
  | status (default : Status) : Accessor
  | identifier : Accessor
  | problem (baseUrl : Option String) : Accessor
  | required : Accessor

/-- Converts a field; what comes of it is not of interest here. -/
def Accessor.read (f : Field) : Accessor → Except Fault Unit
  | .string => do let _ ← f.string?
  | .uri => do let _ ← f.uri?
  | .url => do let _ ← f.url?
  | .instant => do let _ ← f.instant?
  | .int => do let _ ← f.int?
  | .bool => do let _ ← f.bool?
  | .object => do let _ ← f.object?
  | .array => do let _ ← f.array
  | .binary => do let _ ← f.octets?
  | .status default => do let _ ← f.status default
  | .identifier => do let _ ← f.identifier?
  | .problem baseUrl => do let _ ← f.problem? baseUrl
  | .required => do let _ ← f.required

/-- The faults that are no refusals: the text of a reference cannot be split, or the kind of an
identifier cannot be looked up. -/
inductive Accessor.Escapes (f : Field) : Accessor → Fault → Prop where
  | uri {s : String} {d : Url.Defect} : f.value = .string s → Url.split s = .error d →
      Escapes f .uri (.argument (.url d))
  | url {s : String} {d : Url.Defect} : f.value = .string s → Url.split s = .error d →
      Escapes f .url (.argument (.url d))
  | identifier {ms : Members} {kind : Json} {d : ContainerDefect} : f.value = .object ms →
      Members.get? ms "type" = some kind → Members.has ms "value" = true →
      kind.hashDefect? = some d → Escapes f .identifier (.container d)

/-! ### Refusals -/

/-- Whether a fault breaks the protocol, with a message that names a path. -/
def Fault.Names (e : Fault) (path : String) : Prop :=
  ∃ d before after, e = .protocol d ∧ d.message = before ++ quoted path ++ after

namespace Field

/-- Whether a fault is the refusal of a field. -/
inductive Refuses (f : Field) : Fault → Prop where
  | kind (k : FieldKind) (reason : Option FieldReason) :
      Refuses f (.protocol (.field f.path k f.value reason))
  | missing : Refuses f (.protocol (.missing f.path))

/-- The message of a refusal names the path. -/
theorem names_of_refuses {f : Field} {e : Fault} (h : f.Refuses e) : e.Names f.path := by
  cases h with
  | kind k reason =>
    cases reason with
    | none =>
      have hmessage : (ProtocolDefect.field f.path k f.value none).message
          = "Field " ++ quoted f.path ++ " is not " ++ k.text ++ ": " ++ f.value.literal ++ "" :=
        rfl
      simp only [String.append_assoc] at hmessage
      exact ⟨_, "Field ", _, rfl, by rw [hmessage, String.append_assoc]⟩
    | some r =>
      have hmessage : (ProtocolDefect.field f.path k f.value (some r)).message
          = "Field " ++ quoted f.path ++ " is not " ++ k.text ++ ": " ++ f.value.literal
            ++ (" (" ++ r.message ++ ")") := rfl
      simp only [String.append_assoc] at hmessage
      exact ⟨_, "Field ", _, rfl, by rw [hmessage, String.append_assoc]⟩
  | missing =>
    have hmessage : (ProtocolDefect.missing f.path).message
        = "Required field " ++ quoted f.path ++ " is missing" := rfl
    exact ⟨_, _, _, rfl, hmessage⟩

end Field

/-! ### Results that fail in a certain way at most -/

/-- Whether all failures of a result are of a certain sort. -/
def FailsOnly {α : Type} (P : Fault → Prop) (r : Except Fault α) : Prop :=
  ∀ e, r = .error e → P e

section Results

variable {α β : Type} {P : Fault → Prop}

theorem failsOnly_ok (a : α) : FailsOnly P (.ok a : Except Fault α) := by
  intro e he
  cases he

theorem failsOnly_error {e : Fault} (h : P e) : FailsOnly P (.error e : Except Fault α) := by
  intro e' he
  cases he
  exact h

theorem failsOnly_bind {x : Except Fault α} {y : α → Except Fault β} (hx : FailsOnly P x)
    (hy : ∀ a, x = .ok a → FailsOnly P (y a)) : FailsOnly P (x >>= y) := by
  cases x with
  | error e => exact failsOnly_error (hx e rfl)
  | ok a => exact hy a rfl

end Results

/-! ### How each conversion fails -/

namespace Field

variable {f : Field} {α : Type} {P : Fault → Prop}

theorem failsOnly_refuse (h : ∀ e, f.Refuses e → P e) (kind : FieldKind)
    (reason : Option FieldReason) : FailsOnly P (f.refuse kind reason : Except Fault α) :=
  failsOnly_error (h _ (.kind kind reason))

theorem failsOnly_string? (h : ∀ e, f.Refuses e → P e) : FailsOnly P f.string? := by
  unfold string?
  split
  · exact failsOnly_ok _
  · exact failsOnly_ok _
  · exact failsOnly_refuse h _ _

theorem failsOnly_ofString? (h : ∀ e, f.Refuses e → P e) {convert : String → Except Fault α}
    (hconvert : ∀ s, f.value = .string s → FailsOnly P (convert s)) :
    FailsOnly P (f.ofString? convert) := by
  refine failsOnly_bind (failsOnly_string? h) fun text htext => ?_
  obtain ⟨-, rfl⟩ | ⟨s, hs, rfl⟩ := string?_eq_ok.1 htext
  · exact failsOnly_ok _
  · exact failsOnly_bind (hconvert s hs) fun a _ => failsOnly_ok _

theorem failsOnly_object? (h : ∀ e, f.Refuses e → P e) : FailsOnly P f.object? := by
  unfold object?
  split
  · exact failsOnly_ok _
  · exact failsOnly_ok _
  · exact failsOnly_refuse h _ _

/-- A text that cannot be split is the only one that is not told to be absolute or not. -/
theorem failsOnly_isAbsolute {s : String}
    (h : ∀ d, Url.split s = .error d → P (.argument (.url d))) : FailsOnly P (isAbsolute s) := by
  refine failsOnly_bind ?_ fun parts _ => failsOnly_ok _
  cases hs : Url.split s with
  | error d => exact failsOnly_error (h d hs)
  | ok parts => exact failsOnly_ok _

end Field

/-- An object is asked for names without fail. -/
theorem lackingNames_object (ms : Members) (names : List String) :
    lackingNames (.object ms) names = .ok (names.filter fun n => !Members.has ms n) := by
  induction names with
  | nil => rfl
  | cons n rest ih =>
    have hholds : contained ((Json.object ms).holds n) = .ok (Members.has ms n) := rfl
    simp only [lackingNames, hholds, ih, ok_bind, ok_eq_pure, List.filter_cons]
    cases Members.has ms n <;> rfl

namespace Identifier

variable {ms : Members} {kind v : Json}

/-- An object with both members is decoded by its kind. -/
theorem ofJson_of_members (hkind : Members.get? ms "type" = some kind)
    (hvalue : Members.get? ms "value" = some v) :
    ofJson (.object ms) = do
      let k ← decodeMember "typ" kind decodeKind
      return ⟨k, .ofJson v⟩ := by
  have hlacking : lackingNames (.object ms) ["type", "value"] = .ok [] := by
    rw [lackingNames_object]
    simp [Members.has, hkind, hvalue]
  have htype : (Json.object ms).under "type" = .ok kind := by simp [Json.under, hkind]
  have hunder : (Json.object ms).under "value" = .ok v := by simp [Json.under, hvalue]
  rw [ofJson, hlacking, ok_bind, if_neg (by simp), htype, hunder]
  rfl

/-- An object without one of the members is refused for that. -/
theorem ofJson_of_lacking {n : String} (hn : n ∈ ["type", "value"])
    (h : Members.get? ms n = none) : ∃ d, ofJson (.object ms) = .error (.decoding d) := by
  let lacking := ["type", "value"].filter fun n => !Members.has ms n
  have hlacking : lacking ≠ [] := by
    intro hempty
    have hhas := List.filter_eq_nil_iff.1 hempty n hn
    simp [Members.has, h] at hhas
  refine ⟨.required lacking, ?_⟩
  rw [ofJson, lackingNames_object, ok_bind, if_pos hlacking]
  rfl

/-- A kind that cannot be looked up is not decoded. -/
theorem decodeKind_of_hashDefect {d : ContainerDefect} (h : kind.hashDefect? = some d) :
    decodeMember "typ" kind decodeKind = .error (.container d) := by
  simp only [decodeMember, decodeKind, decodeConstant, h, error_bind]

/-- Any other kind is known, or refused. -/
theorem decodeKind_of_none (h : kind.hashDefect? = none) :
    (∃ k, decodeMember "typ" kind decodeKind = .ok k) ∨
      ∃ d, decodeMember "typ" kind decodeKind = .error (.decoding d) := by
  cases hc : kind.string?.bind (Constant.ofName? .identifierKind) with
  | none =>
    refine .inr ⟨.member "typ" kind (.constant .identifierKind), ?_⟩
    simp only [decodeMember, decodeKind, decodeConstant, h, hc, error_bind]
  | some c =>
    cases c with
    | identifierKind k =>
      refine .inl ⟨k, ?_⟩
      simp only [decodeMember, decodeKind, decodeConstant, h, hc, ok_bind, ok_eq_pure]
    | status c =>
      refine .inr ⟨.member "typ" kind (.constant .identifierKind), ?_⟩
      simp only [decodeMember, decodeKind, decodeConstant, h, hc, ok_bind]
      rfl
    | endpoint c =>
      refine .inr ⟨.member "typ" kind (.constant .identifierKind), ?_⟩
      simp only [decodeMember, decodeKind, decodeConstant, h, hc, ok_bind]
      rfl

/-- Nor is an identifier with such a kind. -/
theorem ofJson_of_hashDefect {d : ContainerDefect} (hkind : Members.get? ms "type" = some kind)
    (hvalue : Members.has ms "value" = true) (h : kind.hashDefect? = some d) :
    ofJson (.object ms) = .error (.container d) := by
  obtain ⟨v, hv⟩ := Option.isSome_iff_exists.1 hvalue
  rw [ofJson_of_members hkind hv, decodeKind_of_hashDefect h]
  rfl

/-- An object is an identifier, or is refused, or has a kind that cannot be looked up. -/
theorem ofJson_cases (ms : Members) :
    (∃ i, ofJson (.object ms) = .ok i) ∨ (∃ d, ofJson (.object ms) = .error (.decoding d)) ∨
      ∃ kind d, Members.get? ms "type" = some kind ∧ Members.has ms "value" = true ∧
        kind.hashDefect? = some d ∧ ofJson (.object ms) = .error (.container d) := by
  cases hkind : Members.get? ms "type" with
  | none => exact .inr (.inl (ofJson_of_lacking (by simp) hkind))
  | some kind =>
    cases hvalue : Members.get? ms "value" with
    | none => exact .inr (.inl (ofJson_of_lacking (by simp) hvalue))
    | some v =>
      have hhas : Members.has ms "value" = true := by rw [Members.has, hvalue]; rfl
      cases hhash : kind.hashDefect? with
      | some d =>
        exact .inr (.inr ⟨kind, d, rfl, hhas, hhash, ofJson_of_hashDefect hkind hhas hhash⟩)
      | none =>
        rw [ofJson_of_members hkind hvalue]
        obtain ⟨k, hk⟩ | ⟨d, hd⟩ := decodeKind_of_none hhash
        · rw [hk]
          exact .inl ⟨⟨k, .ofJson v⟩, rfl⟩
        · rw [hd]
          exact .inr (.inl ⟨d, rfl⟩)

end Identifier

/-! ### All conversions -/

namespace Field

variable {f : Field} {P : Fault → Prop}

theorem failsOnly_uri? (h : ∀ e, f.Refuses e → P e)
    (hsplit : ∀ s d, f.value = .string s → Url.split s = .error d → P (.argument (.url d))) :
    FailsOnly P f.uri? := by
  refine failsOnly_ofString? h fun s hs => ?_
  refine failsOnly_bind ?_ fun parts _ => ?_
  · cases hparts : Url.split s with
    | error d => exact failsOnly_error (hsplit s d hs hparts)
    | ok parts => exact failsOnly_ok _
  · split
    · exact failsOnly_refuse h _ _
    · exact failsOnly_ok _

theorem failsOnly_url? (h : ∀ e, f.Refuses e → P e)
    (hsplit : ∀ s d, f.value = .string s → Url.split s = .error d → P (.argument (.url d))) :
    FailsOnly P f.url? := by
  refine failsOnly_ofString? h fun s hs => ?_
  refine failsOnly_bind (failsOnly_isAbsolute fun d => hsplit s d hs) fun absolute _ => ?_
  split
  · exact failsOnly_ok _
  · exact failsOnly_refuse h _ _

theorem failsOnly_instant? (h : ∀ e, f.Refuses e → P e) : FailsOnly P f.instant? := by
  refine failsOnly_ofString? h fun s _ => ?_
  split
  · exact failsOnly_ok _
  · exact failsOnly_refuse h _ _

theorem failsOnly_octets? (h : ∀ e, f.Refuses e → P e) : FailsOnly P f.octets? := by
  refine failsOnly_ofString? h fun s _ => ?_
  split
  · exact failsOnly_refuse h _ _
  · split
    · exact failsOnly_ok _
    · exact failsOnly_refuse h _ _

theorem failsOnly_int? (h : ∀ e, f.Refuses e → P e) : FailsOnly P f.int? := by
  unfold int?
  split
  · exact failsOnly_ok _
  · exact failsOnly_ok _
  · exact failsOnly_refuse h _ _

theorem failsOnly_bool? (h : ∀ e, f.Refuses e → P e) : FailsOnly P f.bool? := by
  unfold bool?
  split
  · exact failsOnly_ok _
  · exact failsOnly_ok _
  · exact failsOnly_refuse h _ _

theorem failsOnly_array (h : ∀ e, f.Refuses e → P e) : FailsOnly P f.array := by
  unfold array
  split
  · exact failsOnly_ok _
  · exact failsOnly_ok _
  · exact failsOnly_refuse h _ _

theorem failsOnly_required (h : ∀ e, f.Refuses e → P e) : FailsOnly P f.required := by
  unfold required
  split
  · exact failsOnly_ok _
  · exact failsOnly_error (h _ .missing)

theorem failsOnly_identifier? (h : ∀ e, f.Refuses e → P e)
    (hhash : ∀ ms kind d, f.value = .object ms → Members.get? ms "type" = some kind →
      Members.has ms "value" = true → kind.hashDefect? = some d → P (.container d)) :
    FailsOnly P f.identifier? := by
  refine failsOnly_bind (failsOnly_object? h) fun object hobject => ?_
  obtain ⟨-, rfl⟩ | ⟨ms, hms, rfl⟩ := object?_eq_ok.1 hobject
  · exact failsOnly_ok _
  · dsimp only
    obtain ⟨i, hi⟩ | ⟨d, hd⟩ | ⟨kind, d, hkind, hvalue, hdefect, hd⟩ := Identifier.ofJson_cases ms
    · rw [hi]
      exact failsOnly_ok _
    · rw [hd]
      exact failsOnly_refuse h _ _
    · rw [hd]
      exact failsOnly_error (hhash ms kind d hms hkind hvalue hdefect)

end Field

namespace Accessor

/-- Every conversion fails with a refusal, or with a fault that escapes. -/
theorem failsOnly_read (a : Accessor) (f : Field) :
    FailsOnly (fun e => f.Refuses e ∨ a.Escapes f e) (a.read f) := by
  have discard : ∀ {α : Type} {P : Fault → Prop} {x : Except Fault α}, FailsOnly P x →
      FailsOnly P (do let _ ← x : Except Fault Unit) := fun hx =>
    failsOnly_bind hx fun _ _ => failsOnly_ok ()
  have hrefuses : ∀ {a : Accessor} e, f.Refuses e → f.Refuses e ∨ a.Escapes f e := fun _ => .inl
  cases a with
  | string => exact discard (Field.failsOnly_string? hrefuses)
  | uri => exact discard (Field.failsOnly_uri? hrefuses fun s d hs hd => .inr (.uri hs hd))
  | url => exact discard (Field.failsOnly_url? hrefuses fun s d hs hd => .inr (.url hs hd))
  | instant => exact discard (Field.failsOnly_instant? hrefuses)
  | int => exact discard (Field.failsOnly_int? hrefuses)
  | bool => exact discard (Field.failsOnly_bool? hrefuses)
  | object => exact discard (Field.failsOnly_object? hrefuses)
  | array => exact discard (Field.failsOnly_array hrefuses)
  | binary => exact discard (Field.failsOnly_octets? hrefuses)
  | status default =>
    exact discard (failsOnly_bind (Field.failsOnly_string? hrefuses) fun _ _ => failsOnly_ok _)
  | identifier =>
    exact discard (Field.failsOnly_identifier? hrefuses fun ms kind d hms hkind hvalue hd =>
      .inr (.identifier hms hkind hvalue hd))
  | problem baseUrl =>
    exact discard (failsOnly_bind (Field.failsOnly_object? hrefuses) fun _ _ => failsOnly_ok _)
  | required => exact discard (Field.failsOnly_required hrefuses)

/-- What escapes is what the conversion fails with. -/
theorem read_of_escapes {a : Accessor} {f : Field} {e : Fault} (h : a.Escapes f e) :
    a.read f = .error e := by
  cases h with
  | @uri s d hs hd =>
    have hstring : f.string? = .ok (some s) := by rw [Field.string?, hs]
    have hsplit : wellSplit (Url.split s) = .error (.argument (.url d)) := by
      rw [hd]
      rfl
    simp only [read, Field.uri?, Field.ofString?, hstring, ok_bind, hsplit, error_bind]
  | @url s d hs hd =>
    have hstring : f.string? = .ok (some s) := by rw [Field.string?, hs]
    have hsplit : wellSplit (Url.split s) = .error (.argument (.url d)) := by
      rw [hd]
      rfl
    simp only [read, Field.url?, Field.ofString?, hstring, ok_bind, isAbsolute, hsplit, error_bind]
  | @identifier ms kind d hms hkind hvalue hd =>
    have hobject : f.object? = .ok (some ms) := by rw [Field.object?, hms]
    have hof := Identifier.ofJson_of_hashDefect hkind hvalue hd
    simp only [read, Field.identifier?, hobject, ok_bind, hof]
    rfl

/-- What escapes does not break the protocol. -/
theorem not_names_of_escapes {a : Accessor} {f : Field} {e : Fault} (h : a.Escapes f e)
    (path : String) : ¬ e.Names path := by
  rintro ⟨d, before, after, hd, -⟩
  cases h with
  | uri => cases hd
  | url => cases hd
  | identifier => cases hd

/-- **Fields are refused under their path.** Whatever stands in a field, a conversion that fails
refuses the field with a message that names its path, unless the text of a reference cannot be
split or the kind of an identifier is an array or an object: these are exactly the faults that
escape, and they name no path. -/
theorem read_fails (a : Accessor) (f : Field) :
    (∀ e, a.read f = .error e → f.Refuses e ∧ e.Names f.path ∨ a.Escapes f e) ∧
      ∀ e, a.Escapes f e → a.read f = .error e ∧ ¬ e.Names f.path := by
  refine ⟨fun e he => ?_, fun e he => ⟨read_of_escapes he, not_names_of_escapes he f.path⟩⟩
  obtain hrefuses | hescapes := failsOnly_read a f e he
  · exact .inl ⟨hrefuses, Field.names_of_refuses hrefuses⟩
  · exact .inr hescapes

/-- A URL with half a bracket and an identifier whose kind is an array are not refused under their
path. -/
theorem read_fails_bracket :
    let reference : Field := ⟨"a", .string "http://["⟩
    let identifier : Field := ⟨"b", .object [("type", .array []), ("value", .string "x")]⟩
    (∃ e, Accessor.url.read reference = .error e ∧ ¬ e.Names "a") ∧
      ∃ e, Accessor.identifier.read identifier = .error e ∧ ¬ e.Names "b" := by
  intro reference identifier
  have hsplit : (Url.split "http://[").isOk = false := by decide +kernel
  constructor
  · cases hd : Url.split "http://[" with
    | ok parts =>
      rw [hd] at hsplit
      cases hsplit
    | error d => exact ⟨_, (read_fails .url reference).2 _ (.url rfl hd)⟩
  · exact ⟨_, (read_fails .identifier identifier).2 _ (.identifier rfl rfl rfl rfl)⟩

end Accessor

end AcmeClient
