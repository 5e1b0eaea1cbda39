import AcmeClient.Jose.Signed
import AcmeClient.Proofs.Base64
import AcmeClient.Proofs.Json.RoundTrip
import AcmeClient.Proofs.Utf8

/-!
# Signed documents read back

* `Signed.document_text` — the text of a signed document is a JSON object with exactly its three
  members;
* `Signed.ofMembers?_members` — these members describe the document;
* `Signed.headerMembers` — the members of the header of a request: those without a value are left
  out;
* `Signed.document_protectedText` — the protected text of a request is a JSON object with these
  members.
-/

namespace AcmeClient

open Json Text

theorem Base64.decode_encode (bs : List UInt8) : decode (encode bs).toList = .ok bs :=
  decodeSized_encode bs

namespace Signed

/-! ### The text of a document -/

/-- The characters of a member on a line of its own. -/
theorem toList_text (s : Signed) :
    s.text.toList = '\x7b' :: '\n' :: (' ' :: ' ' :: (writeMember .canonical
        ("protected", .string (Base64.encode (Utf8.encode s.protectedText))) ++
      (',' :: '\n' :: ' ' :: ' ' :: (writeMember .canonical
        ("signature", .string (Base64.encode s.signature)) ++
      (',' :: '\n' :: ' ' :: ' ' :: (writeMember .canonical
        ("payload", .string (Base64.encode s.payload)) ++ ['\n', '\x7d'])))))) := by
  have three : ∀ a b c : String,
      ",\n".intercalate [a, b, c] = a ++ ",\n" ++ b ++ ",\n" ++ c := fun _ _ _ => rfl
  simp [text, members, three, Json.canonical, render, writeMember, write, Layout.canonical]

/-- A member with a text is read together with what follows it. -/
theorem readMembers_text (fuel : Nat) (n v : String) {w : List Char}
    (hw : ∀ c ∈ w, Json.isSpace c = true) (c : Char) (rest : List Char) (hc : c ∈ [',', '\x7d'])
    (hf : (writeMember .canonical (n, .string v)).length ≤ fuel) :
    readMembers (fuel + 1) (writeMember .canonical (n, .string v) ++ (w ++ c :: rest))
      = if c = '\x7d' then .ok ([(n, .string v)], rest)
        else (readMembers fuel (skip rest)).map fun q => ((n, .string v) :: q.1, q.2) :=
  readMembers_cons Layout.isSpaced_canonical (n, .string v) trivial (reads_string .canonical v)
    fuel hw c rest hc hf

theorem skip_line (p : String × Json) (rest : List Char) :
    skip ('\n' :: ' ' :: ' ' :: (writeMember .canonical p ++ rest))
      = writeMember .canonical p ++ rest := by
  show skip (['\n', ' ', ' '] ++ (writeMember .canonical p ++ rest)) = _
  rw [skip_blanks (by simp [Json.isSpace])]
  exact skip_of_head (by decide) _

/-- The three members of a document are read one after the other. -/
theorem readMembers_three (fuel : Nat) (p g y : String)
    (hf : (writeMember .canonical ("protected", .string p)).length ≤ fuel + 2 ∧
      (writeMember .canonical ("signature", .string g)).length ≤ fuel + 1 ∧
      (writeMember .canonical ("payload", .string y)).length ≤ fuel) :
    readMembers (fuel + 3) (writeMember .canonical ("protected", .string p) ++
      (',' :: '\n' :: ' ' :: ' ' :: (writeMember .canonical ("signature", .string g) ++
      (',' :: '\n' :: ' ' :: ' ' :: (writeMember .canonical ("payload", .string y) ++
        ['\n', '\x7d'])))))
      = .ok ([("protected", .string p), ("signature", .string g), ("payload", .string y)], []) := by
  have h3 := readMembers_text fuel "payload" y (w := ['\n']) (by simp [Json.isSpace]) '\x7d' []
    (by simp) hf.2.2
  have h2 := readMembers_text (fuel + 1) "signature" g (w := []) (by simp) ','
    ('\n' :: ' ' :: ' ' :: (writeMember .canonical ("payload", .string y) ++ ['\n', '\x7d']))
    (by simp) hf.2.1
  have h1 := readMembers_text (fuel + 2) "protected" p (w := []) (by simp) ','
    ('\n' :: ' ' :: ' ' :: (writeMember .canonical ("signature", .string g) ++
      ',' :: '\n' :: ' ' :: ' ' :: (writeMember .canonical ("payload", .string y)
        ++ ['\n', '\x7d']))) (by simp) hf.1
  simp only [List.cons_append, List.nil_append] at h1 h2 h3
  rw [if_pos trivial] at h3
  rw [if_neg (by decide), skip_line, h3] at h2
  rw [if_neg (by decide), skip_line, h2] at h1
  exact h1

/-- The text of a document is read as an object with exactly its three members. -/
theorem document_text (s : Signed) : (Body.text s.text).document = .ok s.members := by
  have htext := toList_text s
  generalize hp : Base64.encode (Utf8.encode s.protectedText) = p at htext
  generalize hg : Base64.encode s.signature = g at htext
  generalize hy : Base64.encode s.payload = y at htext
  have hlen := congrArg List.length htext
  simp only [List.length_cons, List.length_append, List.length_nil] at hlen
  obtain ⟨fuel, hfuel⟩ : ∃ f, 2 * s.text.toList.length + 2 = f + 4 :=
    ⟨2 * s.text.toList.length - 2, by omega⟩
  have hmembers := readMembers_three fuel p g y (by omega)
  have hread : readValue (fuel + 4) s.text.toList = .ok (.object s.members, []) := by
    rw [htext, readValue_brace (fuel + 3) (skip_line _ _)]
    refine (congrArg (Except.map _) hmembers).trans ?_
    show Except.ok (Json.object (Members.ofPairs [("protected", Json.string p),
      ("signature", Json.string g), ("payload", Json.string y)]), []) = _
    rw [Members.ofPairs_of_nodup (by simp), ← hp, ← hg, ← hy]
    rfl
  have hwhole : readWhole s.text.toList = .ok (.object s.members) := by
    have hskip : skip s.text.toList = s.text.toList := by
      rw [htext]
      exact skip_of_head (by decide) _
    simp only [readWhole]
    rw [hfuel, hskip, hread]
    rfl
  have hmark : s.text.toList.head? ≠ some '\uFEFF' := by
    rw [htext]
    show some '\x7b' ≠ some '\uFEFF'
    decide
  rw [Body.document, Body.toJson, if_neg hmark, Json.parse]
  simp only [hwhole]
  rfl

/-- The members of a document describe it. -/
theorem ofMembers?_members (s : Signed) : ofMembers? s.members = some s := by
  have hp : Members.get s.members "protected"
      = .string (Base64.encode (Utf8.encode s.protectedText)) := rfl
  have hs : Members.get s.members "signature" = .string (Base64.encode s.signature) := rfl
  have hy : Members.get s.members "payload" = .string (Base64.encode s.payload) := rfl
  simp [ofMembers?, hp, hs, hy, Json.string?, Base64.decode_encode, Utf8.decode_encode,
    Except.toOption]

/-! ### The protected header -/

/-- A member that may be missing. -/
def optional {α : Type} (name : String) (value : Option α) : List (String × α) :=
  (value.map fun v => (name, v)).toList

/-- A text as a value, unless it is empty. -/
def textValue (value : Option String) : Option Json :=
  (value.filter fun s => s ≠ "").map Json.string

/-- Octets as a value, unless there are none. -/
def octetsValue (value : Option (List UInt8)) : Option Json :=
  (value.filter fun bs => !bs.isEmpty).map fun bs => Json.string (Base64.encode bs)

/-- The members of a header, whichever of them are there. -/
def sparse {α : Type} (alg : α) (jwk kid nonce url : Option α) : List (String × α) :=
  [("alg", alg)] ++ optional "jwk" jwk ++ optional "kid" kid ++ optional "nonce" nonce
    ++ optional "url" url

/-- The members of the header of a document: those without a value are left out. -/
def headerMembers (key : Key) (a : Algorithm) (nonce : Option (List UInt8))
    (url kid : Option String) : Members :=
  sparse (.string a.name) (if kid.isNone then some (.object key.publicKey.members) else none)
    (textValue kid) (octetsValue nonce) (textValue url)

/-- The set of members puts those of a request in one order, whichever of them are there. -/
theorem filterMap_decoders (a : HeaderValue) (jwk kid nonce url : Option HeaderValue) :
    Header.decoders.filterMap (fun (name, _, _) =>
        ((sparse a jwk kid nonce url).lookup name).map fun v => (name, v.toJson))
      = sparse a.toJson (jwk.map HeaderValue.toJson) (kid.map HeaderValue.toJson)
          (nonce.map HeaderValue.toJson) (url.map HeaderValue.toJson) := by
  cases jwk <;> cases kid <;> cases nonce <;> cases url <;> rfl

/-- What is left of a text that may be missing when it must have a value. -/
theorem filter_text (name : String) (value : Option String) :
    ((value.map fun s => (name, HeaderValue.raw (.string s))).toList.filter fun p => !p.2.isEmpty)
      = optional name ((value.filter fun s => s ≠ "").map fun s => HeaderValue.raw (.string s)) := by
  cases value with
  | none => rfl
  | some s =>
    by_cases h : s = ""
    · simp [h, optional, HeaderValue.isEmpty, Json.isTruthy]
    · simp [h, optional, HeaderValue.isEmpty, Json.isTruthy, Option.filter]

theorem filter_octets (name : String) (value : Option (List UInt8)) :
    ((value.map fun bs => (name, HeaderValue.octets bs)).toList.filter fun p => !p.2.isEmpty)
      = optional name ((value.filter fun bs => !bs.isEmpty).map HeaderValue.octets) := by
  cases value with
  | none => rfl
  | some bs => cases bs <;> rfl

theorem present_headerFor (key : Key) (a : Algorithm) (nonce : Option (List UInt8))
    (url kid : Option String) :
    (headerFor key a nonce url kid).present
      = sparse (.algorithm a) (if kid.isNone then some (.key key.publicKey) else none)
          ((kid.filter fun s => s ≠ "").map fun s => .raw (.string s))
          ((nonce.filter fun bs => !bs.isEmpty).map .octets)
          ((url.filter fun s => s ≠ "").map fun s => .raw (.string s)) := by
  have hjwk : ((if kid.isNone then [("jwk", HeaderValue.key key.publicKey)] else []).filter
      fun p => !p.2.isEmpty)
      = optional "jwk" (if kid.isNone then some (.key key.publicKey) else none) := by
    cases kid with
    | none => rfl
    | some s => rfl
  simp only [headerFor, Header.present, List.filter_append, filter_text, filter_octets, hjwk]
  rfl

/-- The members of a header are the JSON forms of its values. -/
theorem headerMembers_eq (key : Key) (a : Algorithm) (nonce : Option (List UInt8))
    (url kid : Option String) :
    headerMembers key a nonce url kid
      = sparse (HeaderValue.algorithm a).toJson
          ((if kid.isNone then some (.key key.publicKey) else none).map HeaderValue.toJson)
          (((kid.filter fun s => s ≠ "").map fun s => .raw (.string s)).map HeaderValue.toJson)
          (((nonce.filter fun bs => !bs.isEmpty).map .octets).map HeaderValue.toJson)
          (((url.filter fun s => s ≠ "").map fun s => .raw (.string s)).map
            HeaderValue.toJson) := by
  have hjwk : (if kid.isNone then some (HeaderValue.key key.publicKey) else none).map
      HeaderValue.toJson = if kid.isNone then some (.object key.publicKey.members) else none := by
    cases kid with
    | none => rfl
    | some s => rfl
  rw [hjwk, Option.map_map, Option.map_map, Option.map_map]
  rfl

/-- The protected text of a document is the text of an object with these members. -/
theorem protectedText_headerFor (key : Key) (a : Algorithm) (nonce : Option (List UInt8))
    (url kid : Option String) :
    (headerFor key a nonce url kid).protectedText
      = (Json.object (headerMembers key a nonce url kid)).render .plain := by
  unfold Header.protectedText
  rw [present_headerFor, filterMap_decoders, headerMembers_eq]

/-! ### The header is read back -/

/-- The JSON form of a key can be read back. -/
theorem legible_members (k : Key) : Legible (.object k.members) := by
  cases k with
  | rsa p s =>
    cases s <;>
      exact ⟨by simp [Key.members], by simp [Key.members, LegibleMembers, Key.numberText, Legible]⟩
  | curve c x y n =>
    cases n <;>
      exact ⟨by simp [Key.members],
        by simp [Key.members, LegibleMembers, Key.coordinateText, Legible]⟩
  | secret bs => exact ⟨by simp [Key.members], by simp [Key.members, LegibleMembers, Legible]⟩

theorem legible_optional {name : String} {value : Option Json} (h : ∀ j ∈ value, Legible j) :
    ∀ p ∈ optional name value, Legible p.2 := by
  intro p hp
  cases value with
  | none => cases hp
  | some j =>
    obtain rfl : p = (name, j) := by simpa [optional] using hp
    exact h j rfl

section Sparse

variable {α : Type} (alg : α) (jwk kid nonce url : Option α)

/-- The names in a header, in their order. -/
theorem names_sparse :
    ((sparse alg jwk kid nonce url).map Prod.fst).Sublist
      ["alg", "jwk", "kid", "nonce", "url"] := by
  cases jwk <;> cases kid <;> cases nonce <;> cases url <;> simp [sparse, optional]

theorem lookup_sparse :
    (sparse alg jwk kid nonce url).lookup "alg" = some alg ∧
    (sparse alg jwk kid nonce url).lookup "jwk" = jwk ∧
    (sparse alg jwk kid nonce url).lookup "kid" = kid ∧
    (sparse alg jwk kid nonce url).lookup "nonce" = nonce ∧
    (sparse alg jwk kid nonce url).lookup "url" = url := by
  cases jwk <;> cases kid <;> cases nonce <;> cases url <;>
    exact ⟨rfl, rfl, rfl, rfl, rfl⟩

/-- No other name is in a header. -/
theorem lookup_sparse_of_notMem {name : String}
    (h : name ∉ ["alg", "jwk", "kid", "nonce", "url"]) :
    (sparse alg jwk kid nonce url).lookup name = none := by
  refine List.lookup_eq_none_iff.2 fun p hp => ?_
  have hmem : p.1 ∈ ["alg", "jwk", "kid", "nonce", "url"] :=
    (names_sparse alg jwk kid nonce url).mem (List.mem_map_of_mem hp)
  simpa using fun heq : name = p.1 => h (heq ▸ hmem)

end Sparse

section Members

variable (alg : Json) (jwk kid nonce url : Option Json)

theorem get?_sparse :
    Members.get? (sparse alg jwk kid nonce url) "alg" = some alg ∧
    Members.get? (sparse alg jwk kid nonce url) "jwk" = jwk ∧
    Members.get? (sparse alg jwk kid nonce url) "kid" = kid ∧
    Members.get? (sparse alg jwk kid nonce url) "nonce" = nonce ∧
    Members.get? (sparse alg jwk kid nonce url) "url" = url :=
  lookup_sparse alg jwk kid nonce url

/-- A header is read back when its values are. -/
theorem legible_sparse (ha : Legible alg)
    (hv : ∀ v ∈ [jwk, kid, nonce, url], ∀ j ∈ v, Legible j) :
    Legible (.object (sparse alg jwk kid nonce url)) := by
  refine ⟨(names_sparse alg jwk kid nonce url).nodup (by simp), legibleMembers_iff.2 ?_⟩
  intro p hp
  simp only [sparse, List.mem_append] at hp
  rcases hp with (((h | h) | h) | h) | h
  · obtain rfl := List.mem_singleton.1 h
    exact ha
  · exact legible_optional (hv jwk (by simp)) p h
  · exact legible_optional (hv kid (by simp)) p h
  · exact legible_optional (hv nonce (by simp)) p h
  · exact legible_optional (hv url (by simp)) p h

end Members

theorem legible_headerMembers (key : Key) (a : Algorithm) (nonce : Option (List UInt8))
    (url kid : Option String) : Legible (.object (headerMembers key a nonce url kid)) := by
  have text : ∀ value : Option String, ∀ j ∈ textValue value, Legible j := by
    intro value j hj
    obtain ⟨s, -, rfl⟩ := Option.map_eq_some_iff.1 hj
    trivial
  refine legible_sparse _ _ _ _ _ trivial ?_
  intro v hv j hj
  simp only [List.mem_cons, List.not_mem_nil, or_false] at hv
  rcases hv with rfl | rfl | rfl | rfl
  · cases kid with
    | none =>
      obtain rfl : Json.object key.publicKey.members = j := by simpa using hj
      exact legible_members key.publicKey
    | some s => cases hj
  · exact text _ j hj
  · obtain ⟨bs, -, rfl⟩ := Option.map_eq_some_iff.1 hj
    trivial
  · exact text _ j hj

/-- The protected text of a document is read as an object with the members of its header. -/
theorem document_protectedText (key : Key) (a : Algorithm) (nonce : Option (List UInt8))
    (url kid : Option String) :
    (Body.text (headerFor key a nonce url kid).protectedText).document
      = .ok (headerMembers key a nonce url kid) := by
  rw [protectedText_headerFor]
  exact Body.document_render (legible_headerMembers key a nonce url kid)

end Signed

end AcmeClient
