import AcmeClient.Proofs.Json.Octets
import AcmeClient.Proofs.Operations
import AcmeClient.Proofs.Problems

/-!
# What the text of a type tells

The type of a problem is resolved against the URL of the request before it is looked at. Where that
URL is one of the web, looking at the text alone would tell the same:

* `Url.scheme?`, `Url.HasWebScheme` — the URLs with a scheme of the web, whether or not they can be taken
  apart;
* `Url.join_cases`, `Url.eq_of_join_name` — a reference is a name exactly when it resolves to one, and
  then to itself;
* `ProblemCode.local?_of_resolve` — what is local in a type does not change when it is resolved;
* `Problem.TellsType`, `Problem.types_tell_by_text` — code, description and name space of a problem
  are those of the text of its type, and so is what an answer is taken for.
-/

namespace AcmeClient

open Text

/-! ### Names and URLs of the web -/

namespace Url

def scheme? (u : String) : Option (List Char) :=
  (cutScheme (cleaned u.toList)).map Prod.fst

def HasWebScheme (u : String) : Prop :=
  scheme? u = some "http".toList ∨ scheme? u = some "https".toList

variable {base t v : String}

/-- A name has the scheme of names. -/
theorem scheme?_of_name (h : nameStart <+: t.toList) : scheme? t = some "urn".toList := by
  obtain ⟨rest, hrest⟩ := h
  rw [scheme?, ← hrest]
  rfl

theorem not_name_of_hasWebScheme (hweb : HasWebScheme base) : ¬ nameStart <+: base.toList := by
  intro hname
  rw [HasWebScheme, scheme?_of_name hname] at hweb
  rcases hweb with h | h
  · cases h
  · cases h

/-- What is taken apart keeps the scheme that it names. -/
theorem scheme_of_parse {b : Reference} (hb : Reference.parse [] base.toList = .ok b)
    (hweb : HasWebScheme base) : b.scheme = "http".toList ∨ b.scheme = "https".toList := by
  have hscheme : scheme? base = some b.scheme := by
    rw [HasWebScheme, scheme?] at hweb
    rw [scheme?]
    rw [Reference.parse, splitWith] at hb
    cases hcut : cutScheme (cleaned base.toList) with
    | none =>
      rw [hcut] at hweb
      rcases hweb with h | h
      · cases h
      · cases h
    | some cut =>
      rw [hcut, Option.getD_some] at hb
      dsimp only at hb
      split at hb
      · cases hb
      · cases hb
        rfl
  rw [HasWebScheme, hscheme, Option.some.injEq, Option.some.injEq] at hweb
  exact hweb

/-- Only an empty reference resolves against what cannot be taken apart. -/
theorem joinChars_of_error {base url cs : List Char} {d : Defect}
    (hb : Reference.parse [] base = .error d) (h : joinChars base url = .ok cs) :
    cs = url ∨ url = [] ∧ cs = base := by
  rw [joinChars, hb] at h
  split at h
  next => exact .inl (Except.ok.inj h).symm
  next =>
    split at h
    next hempty => exact .inr ⟨hempty, (Except.ok.inj h).symm⟩
    next => cases h

/-- Against a URL of the web, a reference resolves to itself, to that URL, or to what begins as the
schemes of the web do. -/
theorem join_cases (hweb : HasWebScheme base) (h : join base t = .ok v) :
    v = t ∨ v = base ∨ v.toList.head? = some 'h' := by
  rw [join, map_eq_ok] at h
  obtain ⟨cs, hcs, rfl⟩ := h
  rw [String.toList_ofList]
  have hofList {u : String} (hu : cs = u.toList) : String.ofList cs = u := by
    rw [hu, String.ofList_toList]
  cases hb : Reference.parse [] base.toList with
  | ok b =>
    rcases joinChars_cases hb (scheme_of_parse hb hweb) hcs with hself | hbase | hhead
    · exact .inl (hofList hself)
    · exact .inr (.inl (hofList hbase))
    · exact .inr (.inr hhead)
  | error d =>
    rcases joinChars_of_error hb hcs with hself | ⟨-, hbase⟩
    · exact .inl (hofList hself)
    · exact .inr (.inl (hofList hbase))

/-- Against a URL of the web, names resolve to themselves, and nothing else resolves to a name. -/
theorem eq_of_join_name (hweb : HasWebScheme base) (h : join base t = .ok v)
    (hname : nameStart <+: t.toList ∨ nameStart <+: v.toList) : v = t := by
  rcases hname with ⟨rest, ht⟩ | ⟨rest, hv⟩
  · rw [join, ← ht, map_eq_ok] at h
    obtain ⟨cs, hcs, rfl⟩ := h
    cases hb : Reference.parse [] base.toList with
    | ok b =>
      rw [joinChars_name hb (scheme_of_parse hb hweb)] at hcs
      rw [← Except.ok.inj hcs, ht, String.ofList_toList]
    | error d =>
      rcases joinChars_of_error hb hcs with hself | ⟨hempty, -⟩
      · rw [hself, ht, String.ofList_toList]
      · cases hempty
  · rcases join_cases hweb h with hself | hbase | hhead
    · exact hself
    · exact absurd (hbase ▸ ⟨rest, hv⟩) (not_name_of_hasWebScheme hweb)
    · rw [← hv] at hhead
      cases hhead

end Url

/-! ### What is local in a type -/

namespace ProblemCode

variable {typ other : String}

/-- The name space is one of names. -/
theorem name_of_isSpaced (h : isSpaced typ = true) : Url.nameStart <+: typ.toList :=
  List.IsPrefix.trans (by decide) (List.isPrefixOf_iff_prefix.1 h)

theorem isSpaced_eq_isSome : isSpaced typ = (local? typ).isSome := by
  rw [local?]
  cases isSpaced typ <;> rfl

/-- Code, description and name space go by what is local in a type. -/
theorem told_of_local?_eq (h : local? typ = local? other) :
    ofType? typ = ofType? other ∧ describe? typ = describe? other ∧ isSpaced typ = isSpaced other := by
  refine ⟨?_, ?_, ?_⟩
  · rw [ofType?, h, ofType?]
  · rw [describe?, h, describe?]
  · rw [isSpaced_eq_isSome, h, isSpaced_eq_isSome]

/-- What is local in a type does not change when it is resolved against a URL of the web. -/
theorem local?_of_resolve {base : String} (hweb : Url.HasWebScheme base)
    (h : Problem.resolve (some base) typ = .ok other) : local? other = local? typ := by
  by_cases hspaced : isSpaced typ = true ∨ isSpaced other = true
  · rw [Url.eq_of_join_name hweb h (hspaced.imp name_of_isSpaced name_of_isSpaced)]
  · obtain ⟨htyp, hother⟩ := not_or.1 hspaced
    rw [local?, if_neg hother, local?, if_neg htyp]

end ProblemCode

/-! ### What a problem tells -/

namespace Problem

/-- Whether code, description and name space of a problem are those of the text `t`. -/
structure TellsType (p : Problem) (t : String) : Prop where
  code : p.code? = .ok (ProblemCode.ofType? t)
  description : p.description? = .ok (ProblemCode.describe? t)
  spaced : p.isSpaced = .ok (ProblemCode.isSpaced t)

/-- A problem tells what the text of its type does, when that resolves to what has the same local
part. -/
theorem tellsType_of_local? {p : Problem} {t v : String} (ht : p.members.get "type" = .string t)
    (hv : resolve p.baseUrl t = .ok v) (hlocal : ProblemCode.local? v = ProblemCode.local? t) :
    p.TellsType t := by
  have hstring : (Members.field p.members "type").string? = .ok (some t) := by
    simp [Members.field, Field.string?, ht]
  have hblank : ProblemCode.local? (if v = "" then "about:blank" else v) = ProblemCode.local? t := by
    split
    next hempty => rw [← hlocal, hempty]; decide
    next => exact hlocal
  have htyp : p.typ = .ok (if v = "" then "about:blank" else v) := by
    simp only [typ, hstring, ok_bind, resolved, hv]
    rfl
  obtain ⟨hcode, hdescription, hspaced⟩ := ProblemCode.told_of_local?_eq hblank
  refine ⟨?_, ?_, ?_⟩
  · rw [code?, htyp, ← hcode]
    rfl
  · rw [description?, htyp, ← hdescription]
    rfl
  · rw [isSpaced, htyp, ← hspaced]
    rfl

end Problem

/-! ### What an answer is taken for -/

namespace Exchange

open Act

variable {env : Environment} {s : Client × Connection} {r : Response} {p : Problem} {t : String}

/-- The problem in the answer that is held is read. -/
theorem run_readProblem (hr : s.2.response = some r) (hp : problemIn r s.2.url = some p) :
    readProblem.run env s = (.ok (some p), s) := by
  have hheld : s.2.held = .ok r := by rw [Connection.held, hr]
  show ((liftM s.2.held : Exchange Response) >>= fun r => pure (problemIn r s.2.url)).run env s = _
  rw [hheld, ← hp]
  rfl

/-- Whether an answer asks for another attempt goes by what its problem tells. -/
theorem run_refusesNonce_of_tellsType (hr : s.2.response = some r)
    (hp : problemIn r s.2.url = some p) (ht : p.TellsType t) :
    refusesNonce.run env s = (.ok (decide (t = ProblemCode.space ++ "badNonce")), s) := by
  have hcode : ProblemCode.ofType? t = some "badNonce" ↔ t = ProblemCode.space ++ "badNonce" := by
    rw [ProblemCode.ofType?_eq_some_iff]
    exact and_iff_right (by decide)
  rw [refusesNonce, run_bind_of_ok env (run_readProblem hr hp)]
  simp only [ht.code, ← hcode]
  rfl

/-- So does the kind of refusal that an answer is taken for. -/
theorem run_rejection_of_tellsType (hr : s.2.response = some r)
    (hp : problemIn r s.2.url = some p) (ht : p.TellsType t) :
    (rejection r).run env s = (do
      let kind ← rejectionKind r (ProblemCode.ofType? t)
      return ⟨kind, some p, some r.status, none⟩ : Exchange Rejection).run env s := by
  rw [rejection, run_bind_of_ok env (run_readProblem hr hp)]
  simp only [ht.code]
  rfl

end Exchange

namespace Problem

/-- **Types tell by their text.** Against a URL of the web, a type that resolves at all lies in the name
space of the protocol exactly when what it resolves to does, and is not changed then. A problem
with that type has the same code, the same description and the same place in the name space with the
URL as without it, those of the text. Whether an answer with the problem asks for another attempt,
and what it is taken for as a refusal, go by the text alone. -/
theorem types_tell_by_text {base t v : String} (hweb : Url.HasWebScheme base)
    (hresolve : resolve (some base) t = .ok v) :
    (ProblemCode.isSpaced v = ProblemCode.isSpaced t ∧ (ProblemCode.isSpaced t = true → v = t)) ∧
    ∀ ms : Members, ms.get "type" = .string t →
      ((Problem.mk ms (some base)).code? = (Problem.mk ms none).code? ∧
        (Problem.mk ms (some base)).description? = (Problem.mk ms none).description? ∧
        (Problem.mk ms (some base)).isSpaced = (Problem.mk ms none).isSpaced) ∧
      (Problem.mk ms none).TellsType t ∧
      ∀ (env : Environment) (s : Client × Connection) (r : Response), s.2.response = some r →
        s.2.url = some base → Exchange.problemIn r (some base) = some ⟨ms, some base⟩ →
        Exchange.refusesNonce.run env s
          = (.ok (decide (t = ProblemCode.space ++ "badNonce")), s) ∧
        (Exchange.rejection r).run env s = (do
          let kind ← Exchange.rejectionKind r (ProblemCode.ofType? t)
          return ⟨kind, some ⟨ms, some base⟩, some r.status, none⟩ : Exchange Rejection).run env s := by
  have hlocal := ProblemCode.local?_of_resolve hweb hresolve
  refine ⟨⟨(ProblemCode.told_of_local?_eq hlocal).2.2, fun hspaced => ?_⟩, fun ms ht => ?_⟩
  · exact Url.eq_of_join_name hweb hresolve (.inl (ProblemCode.name_of_isSpaced hspaced))
  have htells : (Problem.mk ms (some base)).TellsType t := tellsType_of_local? ht hresolve hlocal
  have htells' : (Problem.mk ms none).TellsType t := tellsType_of_local? ht rfl rfl
  refine ⟨⟨htells.code.trans htells'.code.symm, htells.description.trans htells'.description.symm,
    htells.spaced.trans htells'.spaced.symm⟩, htells', fun env s r hr hurl hproblem => ?_⟩
  have hheld : Exchange.problemIn r s.2.url = some ⟨ms, some base⟩ := by rw [hurl, hproblem]
  exact ⟨Exchange.run_refusesNonce_of_tellsType hr hheld htells,
    Exchange.run_rejection_of_tellsType hr hheld htells⟩

theorem types_tell_by_text_bad_nonce :
    let base := "https://acme.test/acme/new-order"
    let ms : Members := [("type", .string "urn:ietf:params:acme:error:badNonce")]
    let r : Response := ⟨400, none, ⟨[]⟩, Utf8.encode ((Json.object ms).render .plain)⟩
    let s : Client × Connection := (.ofSession .sample, ⟨some r, some base, none⟩)
    (Problem.mk ms (some base)).code? = .ok (some "badNonce") ∧
      Exchange.refusesNonce.run ⟨fun _ => .response r, fun _ => ⟨0, some 0⟩⟩ s = (.ok true, s) := by
  intro base ms r s
  have hweb : Url.HasWebScheme base := .inr (by decide +kernel)
  have hresolve : resolve (some base) "urn:ietf:params:acme:error:badNonce"
      = .ok "urn:ietf:params:acme:error:badNonce" := by decide +kernel
  obtain ⟨-, hall⟩ := types_tell_by_text hweb hresolve
  obtain ⟨⟨hcode, -⟩, htells, hrun⟩ := hall ms rfl
  have hproblem : Exchange.problemIn r (some base) = some ⟨ms, some base⟩ := by
    have hdocument : (Body.octets r.content).document = .ok ms :=
      Body.document_plain ⟨by simp [ms], by simp [ms, Json.LegibleMembers, Json.Legible]⟩
    rw [Exchange.problemIn, hdocument]
    rfl
  exact ⟨hcode.trans htells.code, (hrun _ s r rfl rfl hproblem).1⟩

end Problem

end AcmeClient
