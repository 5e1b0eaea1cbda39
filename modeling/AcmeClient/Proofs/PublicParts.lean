import AcmeClient.Proofs.Asn1.Elements
import AcmeClient.X509.Request

/-!
# Public parts are read back

The public part of a key is written as the kind of the key with its parameters and a string of bits:

* `X509.PublicPart` and `PublicPart.ofElement?` — what is written, and how it is read;
* `PrivateKey.HasNamedCurve` — a key whose curve has a name, as every key that is read has;
* `PrivateKey.publicElement` — the public part as an element;
* `PrivateKey.reads_publicElement` — it is a public key, and the one of the private key;
* `PrivateKey.Signs` — a key that signs, which has a public part (`exists_publicPart`) and signs
  with an algorithm (`exists_algorithm`).
-/

namespace AcmeClient.X509

open Asn1 Signature

/-- The public part of a key: two numbers, a point on a curve, or a number in a prime field. -/
inductive PublicPart where
  | rsa (modulus exponent : Nat) : PublicPart
  | curve (oid : List Nat) (point : List UInt8) : PublicPart
  | field (f : PrimeField) (y : Nat) : PublicPart
  deriving DecidableEq, Repr

def PublicPart.ofElement? (e : Element) : Option PublicPart := do
  match ← e.sequence? with
  | [algorithm, bits] =>
      let bs ← bits.wholeBits?
      match ← algorithm.sequence? with
      | [kind, parameter] =>
          let kind ← kind.objectId?
          if kind = PrivateKey.rsaId then
            match ← (← (← Element.only? bs).sequence?).mapM Element.natural? with
            | [n, e] => return .rsa n e
            | _ => none
          else if kind = PrivateKey.curveId then return .curve (← parameter.objectId?) bs
          else if kind = PrivateKey.fieldId then
            match ← (← parameter.sequence?).mapM Element.natural? with
            | [p, q, g] => return .field ⟨p, q, g⟩ (← (← Element.only? bs).natural?)
            | _ => none
          else none
      | _ => none
  | _ => none

namespace PrivateKey

/-- The public part of a key that certificates are issued for. -/
def publicPart? : PrivateKey → Option PublicPart
  | .rsa k _ => some (.rsa k.modulus k.exponent)
  | .curve c _ x y => some (.curve c.oid (pointOctets c x y))
  | .field f _ y => some (.field f y)
  | _ => none

/-! ### Curves of keys -/

/-- Whether the curve of a key, if it has one, is one of those that keys can be used on. -/
def HasNamedCurve (k : PrivateKey) : Prop :=
  ∀ c number x y, k = .curve c number x y → c ∈ Curve.named

section Reading

variable {k : PrivateKey} {bs : List UInt8}

theorem hasNamedCurve_rsa (p : RsaPublic) (s : RsaPrivate) : (rsa p s).HasNamedCurve :=
  nofun

theorem hasNamedCurve_field (f : PrimeField) (number y : Nat) : (field f number y).HasNamedCurve :=
  nofun

theorem hasNamedCurve_of_onCurve? {oid : List Nat} {number : Nat} {point : Option Element}
    (h : onCurve? oid number point = some k) : k.HasNamedCurve := by
  rintro c n x y rfl
  rw [onCurve?] at h
  cases hcurve : Curve.ofOid? oid with
  | some c' =>
    have hmem := List.mem_of_find?_eq_some hcurve
    rw [hcurve] at h
    cases point with
    | some e =>
      obtain ⟨bs, -, h⟩ := Option.bind_eq_some_iff.1 h
      obtain ⟨⟨x', y'⟩, -, h⟩ := Option.bind_eq_some_iff.1 h
      cases h
      exact hmem
    | none =>
      obtain ⟨⟨x', y'⟩, -, h⟩ := Option.bind_eq_some_iff.1 h
      cases h
      exact hmem
  | none =>
    rw [hcurve] at h
    dsimp only at h
    split at h
    · obtain ⟨name, -, h⟩ := Option.map_eq_some_iff.1 h
      cases h
    · cases h

theorem hasNamedCurve_of_ofCurve? {named : Option Element} (h : ofCurve? named bs = some k) :
    k.HasNamedCurve := by
  obtain ⟨es, -, h⟩ := Option.bind_eq_some_iff.1 h
  split at h
  next version number rest =>
    obtain ⟨_, -, h⟩ := Option.bind_eq_some_iff.1 h
    obtain ⟨_, -, h⟩ := Option.bind_eq_some_iff.1 h
    obtain ⟨⟨inner, rest⟩, -, h⟩ := Option.bind_eq_some_iff.1 h
    obtain ⟨⟨point, rest⟩, -, h⟩ := Option.bind_eq_some_iff.1 h
    obtain ⟨_, -, h⟩ := Option.bind_eq_some_iff.1 h
    obtain ⟨oid, -, h⟩ := Option.bind_eq_some_iff.1 h
    split at h
    · exact hasNamedCurve_of_onCurve? h
    · cases h
  · cases h

theorem hasNamedCurve_of_ofRsa? (h : ofRsa? bs = some k) : k.HasNamedCurve := by
  obtain ⟨es, -, h⟩ := Option.bind_eq_some_iff.1 h
  split at h
  · obtain ⟨_, -, h⟩ := Option.bind_eq_some_iff.1 h
    split at h
    · cases h
    · obtain ⟨_, -, h⟩ := Option.bind_eq_some_iff.1 h
      split at h
      · cases h
        exact hasNamedCurve_rsa _ _
      · cases h
  · cases h

theorem hasNamedCurve_of_ofField? (h : ofField? bs = some k) : k.HasNamedCurve := by
  obtain ⟨es, -, h⟩ := Option.bind_eq_some_iff.1 h
  split at h
  · obtain ⟨_, -, h⟩ := Option.bind_eq_some_iff.1 h
    obtain ⟨_, -, h⟩ := Option.bind_eq_some_iff.1 h
    split at h
    · cases h
      exact hasNamedCurve_field _ _ _
    · cases h
  · cases h

theorem hasNamedCurve_of_ofKind? {oid : List Nat} {parameters : Option Element}
    (h : ofKind? oid parameters bs = some k) : k.HasNamedCurve := by
  rw [ofKind?] at h
  split at h
  · exact hasNamedCurve_of_ofRsa? h
  split at h
  · split at h
    · exact hasNamedCurve_of_ofRsa? h
    · cases h
  split at h
  · obtain ⟨e, -, h⟩ := Option.bind_eq_some_iff.1 h
    split at h
    · exact hasNamedCurve_of_ofCurve? h
    · cases h
  split at h
  · obtain ⟨_, -, h⟩ := Option.bind_eq_some_iff.1 h
    obtain ⟨f, -, h⟩ := Option.bind_eq_some_iff.1 h
    obtain ⟨_, -, h⟩ := Option.bind_eq_some_iff.1 h
    obtain ⟨x, -, h⟩ := Option.bind_eq_some_iff.1 h
    split at h
    · cases h
      exact hasNamedCurve_field _ _ _
    · cases h
  -- the other kinds have no curve
  split at h
  · obtain ⟨_, -, h⟩ := Option.bind_eq_some_iff.1 h
    obtain ⟨_, -, h⟩ := Option.bind_eq_some_iff.1 h
    obtain ⟨_, -, h⟩ := Option.bind_eq_some_iff.1 h
    obtain ⟨_, -, h⟩ := Option.bind_eq_some_iff.1 h
    cases h
    exact nofun
  split at h
  · cases h
  split at h
  · split at h
    · cases h
      exact nofun
    · cases h
  · split at h
    · cases h
      exact nofun
    · cases h
  · cases h

theorem hasNamedCurve_of_ofCommon? (h : ofCommon? bs = some k) : k.HasNamedCurve := by
  obtain ⟨es, -, h⟩ := Option.bind_eq_some_iff.1 h
  split at h
  · obtain ⟨_, -, h⟩ := Option.bind_eq_some_iff.1 h
    split at h
    · split at h
      · obtain ⟨_, -, h⟩ := Option.bind_eq_some_iff.1 h
        obtain ⟨_, -, h⟩ := Option.bind_eq_some_iff.1 h
        exact hasNamedCurve_of_ofKind? h
      · cases h
    · cases h
  · cases h

theorem hasNamedCurve_of_ofLabelled? {label : String} (h : ofLabelled? label bs = some k) :
    k.HasNamedCurve := by
  rw [ofLabelled?] at h
  split at h
  next f hf =>
    rcases Option.or_eq_some_iff.1 h with hown | ⟨-, hcommon⟩
    · obtain ⟨before, rest, hforms, -⟩ := List.lookup_eq_some_iff.1 hf
      have hmem : (label, f) ∈ [("RSA PRIVATE KEY", ofRsa?), ("EC PRIVATE KEY", ofCurve? none),
          ("DSA PRIVATE KEY", ofField?)] := by
        rw [hforms]
        simp
      simp only [List.mem_cons, List.not_mem_nil, or_false, Prod.mk.injEq] at hmem
      rcases hmem with ⟨-, rfl⟩ | ⟨-, rfl⟩ | ⟨-, rfl⟩
      · exact hasNamedCurve_of_ofRsa? hown
      · exact hasNamedCurve_of_ofCurve? hown
      · exact hasNamedCurve_of_ofField? hown
    · exact hasNamedCurve_of_ofCommon? (Option.filter_eq_some_iff.1 hcommon).1
  · split at h
    · exact hasNamedCurve_of_ofCommon? h
    · cases h

theorem hasNamedCurve_of_ofBlock? {b : Pem.LineBlock} (h : ofBlock? b = some (.ok k)) :
    k.HasNamedCurve := by
  rw [ofBlock?] at h
  split at h
  · cases h
  split at h
  · cases h
  · cases h
  split at h
  · cases h
  · obtain ⟨k', hk, hok⟩ := Option.map_eq_some_iff.1 h
    rw [← Except.ok.inj hok]
    exact hasNamedCurve_of_ofLabelled? hk

/-- The curve of a key that is read is one that keys can be used on. -/
theorem hasNamedCurve_of_ofPem (h : ofPem bs = .ok k) : k.HasNamedCurve := by
  rw [ofPem] at h
  split at h
  next k' hfound =>
    obtain ⟨b, -, hb⟩ := List.exists_of_findSome?_eq_some hfound
    cases hrefusal : k'.refusal? with
    | none =>
      rw [hrefusal] at h
      rw [← Except.ok.inj h]
      exact hasNamedCurve_of_ofBlock? hb
    | some d =>
      rw [hrefusal] at h
      cases h
  · cases h
  · cases h

theorem ofPem_eq_ok (h : (ofPem bs).toOption = some k) : ofPem bs = .ok k := by
  cases hread : ofPem bs with
  | error d =>
    rw [hread] at h
    cases h
  | ok k' =>
    rw [hread] at h
    exact congrArg Except.ok (Option.some.inj h)

end Reading

/-! ### What is written -/

def publicElement : PrivateKey → Element
  | .rsa k _ =>
      .sequence [.sequence [.ofId rsaId, .empty],
        .ofBits (Element.sequence [.ofNatural k.modulus, .ofNatural k.exponent]).octets]
  | .curve c _ x y =>
      .sequence [.sequence [.ofId curveId, .ofId c.oid], .ofBits (pointOctets c x y)]
  | .field f _ y =>
      .sequence [.sequence [.ofId fieldId,
          .sequence [.ofNatural f.prime, .ofNatural f.order, .ofNatural f.base]],
        .ofBits (Element.ofNatural y).octets]
  | _ => .empty

theorem isPlain_publicElement (k : PrivateKey) : k.publicElement.IsPlain := by
  cases k <;> simp [publicElement]

theorem publicInfo_eq {k : PrivateKey} {p : PublicPart} (h : k.publicPart? = some p) :
    k.publicInfo = k.publicElement.octets := by
  cases k with
  | rsa | curve | field =>
    simp only [publicInfo, publicElement, ← Element.sequenceOf_map_octets, List.map_cons,
      List.map_nil, ← Element.bitString_eq, ← Element.integer_eq, ← Element.objectId_eq,
      ← Element.null_eq]
  | _ => cases h

/-! ### What is read -/

/-- An object identifier with parameters of its kind is an algorithm. -/
theorem isAlgorithm_sequence {oid : List Nat} {parameters : List Element} (kind : ParameterKind)
    (h : (Element.sequence (.ofId oid :: parameters)).Fits)
    (hplain : ∀ e ∈ parameters, e.IsPlain) (hid : (Element.ofId oid).objectId? = some oid)
    (hkind : parameterKinds.lookup oid = some kind)
    (hparameters : ∀ f, areParameters f kind parameters = true) :
    isAlgorithm (.sequence (.ofId oid :: parameters)) = true := by
  have hsequence := Element.sequence?_sequence h
    (List.forall_mem_cons.2 ⟨Element.isPlain_ofId oid, hplain⟩)
  rw [isAlgorithm, isAlgorithmWithin, hsequence]
  simp [hid, hkind, hparameters]

/-- An algorithm with one parameter and a string of bits are a public key. -/
theorem isPublicInfo_sequence {oid : List Nat} {parameter : Element} {bs : List UInt8}
    (kind : ParameterKind)
    (h : (Element.sequence [.sequence [.ofId oid, parameter], .ofBits bs]).Fits)
    (hplain : parameter.IsPlain) (hid : (Element.ofId oid).objectId? = some oid)
    (hkind : parameterKinds.lookup oid = some kind)
    (hparameter : ∀ f, areParameters f kind [parameter] = true) :
    isPublicInfo (.sequence [.sequence [.ofId oid, parameter], .ofBits bs]) = true := by
  have halgorithm := isAlgorithm_sequence kind
    (h.of_mem List.mem_cons_self (Element.isPlain_sequence _)) (by simpa using hplain) hid hkind
    hparameter
  rw [isPublicInfo, Element.sequence?_sequence h (by simp)]
  simp [halgorithm, Element.isBitString_ofBits]

section Written

variable {k : PrivateKey} {p : PublicPart}

/-- The written numbers of an RSA key are a public key, and are read back. -/
theorem reads_rsa {pub : RsaPublic} {priv : RsaPrivate} (h : (rsa pub priv).publicElement.Fits) :
    isPublicInfo (rsa pub priv).publicElement = true ∧
      PublicPart.ofElement? (rsa pub priv).publicElement
        = some (.rsa pub.modulus pub.exponent) := by
  have hid : (Element.ofId rsaId).objectId? = some rsaId := by decide +kernel
  refine ⟨isPublicInfo_sequence .optionalNull h Element.isPlain_empty hid
    (by decide +kernel) fun _ => rfl, ?_⟩
  rw [publicElement] at h ⊢
  have halgorithm := h.of_mem List.mem_cons_self (Element.isPlain_sequence _)
  have hnumbers := (h.of_mem (List.mem_cons_of_mem _ List.mem_cons_self)
    (Element.isPlain_ofBits _)).of_bits (Element.isPlain_sequence _)
  rw [PublicPart.ofElement?, Element.sequence?_sequence h (by simp)]
  simp [Element.wholeBits?_ofBits, Element.sequence?_sequence halgorithm, hid,
    Element.only?_octets hnumbers, Element.sequence?_sequence hnumbers,
    Element.natural?_ofNatural]

/-- The written point of a key on a curve that has a name is a public key, and is read back. -/
theorem reads_curve {c : Curve} {number x y : Nat} (hc : c ∈ Curve.named)
    (h : (curve c number x y).publicElement.Fits) :
    isPublicInfo (curve c number x y).publicElement = true ∧
      PublicPart.ofElement? (curve c number x y).publicElement
        = some (.curve c.oid (pointOctets c x y)) := by
  have hid : (Element.ofId curveId).objectId? = some curveId := by decide +kernel
  have all : Curve.named.all (fun c => (Element.ofId c.oid).objectId? = some c.oid) = true := by
    decide +kernel
  have hname : (Element.ofId c.oid).objectId? = some c.oid :=
    of_decide_eq_true (List.all_eq_true.1 all c hc)
  refine ⟨isPublicInfo_sequence .curve h (Element.isPlain_ofId _) hid
    (by decide +kernel) fun _ => ?_, ?_⟩
  · simp [areParameters, isCurveName, hname]
  rw [publicElement] at h ⊢
  have halgorithm := h.of_mem List.mem_cons_self (Element.isPlain_sequence _)
  have hkinds : curveId ≠ rsaId := by decide
  rw [PublicPart.ofElement?, Element.sequence?_sequence h (by simp)]
  simp [Element.wholeBits?_ofBits, Element.sequence?_sequence halgorithm, hid, hname, hkinds]

/-- The written numbers of a key in a prime field are a public key, and are read back. -/
theorem reads_field {f : PrimeField} {number y : Nat} (h : (field f number y).publicElement.Fits) :
    isPublicInfo (field f number y).publicElement = true ∧
      PublicPart.ofElement? (field f number y).publicElement = some (.field f y) := by
  have hid : (Element.ofId fieldId).objectId? = some fieldId := by decide +kernel
  have halgorithm := Element.Fits.of_mem h List.mem_cons_self (Element.isPlain_sequence _)
  have hnumbers := halgorithm.of_mem (List.mem_cons_of_mem _ List.mem_cons_self)
    (Element.isPlain_sequence _)
  have hread := Element.sequence?_sequence hnumbers (by simp)
  refine ⟨isPublicInfo_sequence .field h (Element.isPlain_sequence _) hid
    (by decide +kernel) fun _ => ?_, ?_⟩
  · simp [areParameters, isField, hread, Element.natural?_ofNatural]
  rw [publicElement] at h ⊢
  have hy := (h.of_mem (List.mem_cons_of_mem _ List.mem_cons_self)
    (Element.isPlain_ofBits _)).of_bits (Element.isPlain_ofNatural _)
  have hkinds : fieldId ≠ rsaId ∧ fieldId ≠ curveId := by decide
  rw [PublicPart.ofElement?, Element.sequence?_sequence h (by simp)]
  simp [Element.wholeBits?_ofBits, Element.sequence?_sequence halgorithm, hid, hread, hkinds,
    Element.only?_octets hy, Element.natural?_ofNatural]

/-- The written public part is a public key, from which the public part is read. -/
theorem reads_publicElement (hp : k.publicPart? = some p) (hcurve : k.HasNamedCurve)
    (h : k.publicElement.Fits) :
    isPublicInfo k.publicElement = true ∧ PublicPart.ofElement? k.publicElement = some p := by
  cases k with
  | rsa pub priv =>
    cases hp
    exact reads_rsa h
  | curve c number x y =>
    cases hp
    exact reads_curve (hcurve c number x y rfl) h
  | field f number y =>
    cases hp
    exact reads_field h
  | _ => cases hp

end Written

/-! ### Signatures -/

def Signs (k : PrivateKey) : Prop :=
  ∀ bs, (k.sign? bs).isSome = true

/-- An RSA key signs when its modulus has room for a digest. -/
theorem signs_rsa {p : RsaPublic} {s : RsaPrivate} (h : Rsa.hasRoom p .sha256 = true) :
    (rsa p s).Signs := by
  intro bs
  rw [sign?, if_pos h]
  rfl

section Signing

variable {k : PrivateKey} {bs algorithm signature : List UInt8}

/-- A key that signs has a public part, and certificates are issued for it. -/
theorem exists_publicPart (h : (k.sign? bs).isSome = true) :
    k.isForCertificates = true ∧ ∃ p, k.publicPart? = some p := by
  cases k with
  | rsa | curve | field => exact ⟨rfl, _, rfl⟩
  | _ => cases h

/-- An object identifier that takes no parameters, or an empty one, is written as an algorithm. -/
theorem exists_element {oid : List Nat} (parameters : List Element)
    (hplain : ∀ e ∈ parameters, e.IsPlain) (hid : (Element.ofId oid).objectId? = some oid)
    (hkind : parameterKinds.lookup oid = some .optionalNull)
    (hparameters : ∀ f, areParameters f .optionalNull parameters = true) :
    ∃ e : Element, sequenceOf (objectId oid :: parameters.map Element.octets) = e.octets ∧
      e.IsPlain ∧ (e.Fits → isAlgorithm e = true) :=
  ⟨.sequence (.ofId oid :: parameters), Element.sequenceOf_map_octets (.ofId oid :: parameters),
    Element.isPlain_sequence _,
    fun hfits => isAlgorithm_sequence .optionalNull hfits hplain hid hkind hparameters⟩

/-- What a key signs with is an algorithm. -/
theorem exists_algorithm (h : k.sign? bs = some (algorithm, signature)) :
    ∃ e : Element, algorithm = e.octets ∧ e.IsPlain ∧ (e.Fits → isAlgorithm e = true) := by
  cases k with
  | rsa pub priv =>
    rw [sign?] at h
    split at h
    · cases h
      exact exists_element [.empty] (by simp) (by decide +kernel)
        (by decide +kernel) fun _ => rfl
    · cases h
  | curve c number x y =>
    cases h
    exact exists_element [] (by simp) (by decide +kernel) (by decide +kernel)
      fun _ => rfl
  | field f number y =>
    rw [sign?] at h
    split at h
    · cases h
      exact exists_element [] (by simp) (by decide +kernel) (by decide +kernel)
        fun _ => rfl
    · cases h
  | _ => cases h

end Signing

end PrivateKey

end AcmeClient.X509
