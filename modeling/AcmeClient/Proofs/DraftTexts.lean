import AcmeClient.Proofs.Base64
import AcmeClient.Proofs.CanonicalText
import AcmeClient.Proofs.DraftBooks
import AcmeClient.Proofs.FieldValues

/-!
# The texts of drafts

The text of a draft can always be written, and what is read from it is the object of the values that
were written last:

* `DraftBook.plain` — the object that a draft stands for, and `Follows.plain_eq` with its members;
* `Follows.members_eq` — a nested draft is filled in as it is now, however deep it is nested;
* `DraftBook.Shows` — what the object of a draft shows under a name;
* `Follows.sameTree` — drafts with the same last writings stand for the same tree;
* `DraftBook.text_shows_last_writings` — the text of every draft of every book;
* `DraftBook.octets_are_read_back` — octets come back from the text as they were put.
-/

namespace AcmeClient

open Json (Layout Legible SameTree)

namespace DraftBook

variable {b b' : DraftBook} {calls calls' : List DraftCall} {number : Nat} {name : String}

/-! ### The members of a draft -/

/-- What stands in a draft is a JSON value, or a younger draft. -/
theorem Follows.entry_cases (h : b.Follows calls) {p : String × DraftEntry}
    (hp : p ∈ b.entries number) :
    (∃ j : Json, j.Legible ∧ p.2 = .value (.ofJson j)) ∨
      ∃ child, number < child ∧ child < b.drafts.length ∧ p.2 = .nested child := by
  have hkeeps := h.keeps number p.1
  rw [(lookup_eq_some_iff_mem (h.names number)).2 hp] at hkeeps
  generalize lastWriting calls number p.1 = w at hkeeps
  generalize hentry : p.2 = entry at hkeeps
  cases hkeeps with
  | value hv => exact .inl ⟨_, hv, rfl⟩
  | draft hyounger hchild => exact .inr ⟨_, hyounger, hchild, rfl⟩

/-- Depths that are enough for all younger drafts fill in the same members. -/
theorem Follows.membersTo_eq (h : b.Follows calls) {depth depth' : Nat}
    (hdepth : b.drafts.length ≤ number + depth) (hdepth' : b.drafts.length ≤ number + depth') :
    b.membersTo depth number = b.membersTo depth' number := by
  have hnone (hlength : b.drafts.length ≤ number) (d : Nat) : b.membersTo d number = [] := by
    cases d with
    | zero => rfl
    | succ d =>
      rw [membersTo, List.getElem?_eq_none hlength]
      rfl
  induction depth generalizing number depth' with
  | zero => rw [hnone hdepth, hnone hdepth]
  | succ depth ih =>
    cases depth' with
    | zero => rw [hnone hdepth', hnone hdepth']
    | succ depth' =>
      refine List.map_congr_left fun p hp => ?_
      obtain ⟨j, -, he⟩ | ⟨child, hyounger, hchild, he⟩ := h.entry_cases hp
      · rw [he]
      · have hfilled : b.membersTo depth child = b.membersTo depth' child :=
          ih (by omega) (by omega) fun hlength => absurd hchild (Nat.not_lt.2 hlength)
        rw [he]
        simp only [hfilled]

/-- The value of an entry; a nested draft is filled in as it is now. -/
def filled (b : DraftBook) : DraftEntry → Value
  | .value v => v
  | .nested child => .record (b.members child)

theorem Follows.members_eq (h : b.Follows calls) :
    b.members number = (b.entries number).map fun p => (p.1, b.filled p.2) := by
  have hdepth : b.members number = b.membersTo (b.drafts.length + 1) number :=
    h.membersTo_eq (by omega) (by omega)
  rw [hdepth]
  refine List.map_congr_left fun p _ => ?_
  cases hp : p.2 with
  | value v => rfl
  | nested child => rfl

/-! ### The object of a draft -/

/-- The object that a draft stands for. -/
def plain (b : DraftBook) (number : Nat) : Members :=
  Value.plainMembers (b.members number)

def plainEntry (b : DraftBook) (entry : DraftEntry) : Json :=
  (b.filled entry).plain

theorem Follows.plain_eq (h : b.Follows calls) :
    b.plain number = (b.entries number).map fun p => (p.1, b.plainEntry p.2) := by
  rw [plain, h.members_eq, Value.plainMembers_eq_map, List.map_map]
  rfl

theorem Follows.get?_plain (h : b.Follows calls) :
    (b.plain number).get? name = ((b.entries number).lookup name).map b.plainEntry := by
  rw [h.plain_eq]
  exact lookup_map_snd b.plainEntry

theorem Follows.nodup_plain (h : b.Follows calls) (number : Nat) : (b.plain number).names.Nodup := by
  rw [h.plain_eq, Members.names, List.map_map]
  exact h.names number

/-- A draft holds a legible object, and nothing but JSON values once nested drafts are filled in. -/
theorem Follows.isJson (h : b.Follows calls) (number : Nat) :
    Legible (.object (b.plain number)) ∧ b.members number = Value.ofMembers (b.plain number) := by
  -- every entry is a JSON value, where a nested draft is one by induction
  have hentry (p : String × DraftEntry) (hp : p ∈ b.entries number) :
      (b.plainEntry p.2).Legible ∧ b.filled p.2 = .ofJson (b.plainEntry p.2) := by
    obtain ⟨j, hj, he⟩ | ⟨child, hyounger, hchild, he⟩ := h.entry_cases hp
    · rw [he, plainEntry, filled, Value.plain_ofJson]
      exact ⟨hj, rfl⟩
    · obtain ⟨hlegible, hmembers⟩ := h.isJson child
      rw [he]
      exact ⟨hlegible, congrArg Value.record hmembers⟩
  refine ⟨⟨h.nodup_plain number, Json.legibleMembers_iff.2 ?_⟩, ?_⟩
  · rw [h.plain_eq, List.forall_mem_map]
    exact fun p hp => (hentry p hp).1
  · rw [h.members_eq, h.plain_eq, Value.ofMembers_eq_map, List.map_map]
    refine List.map_congr_left fun p hp => ?_
    rw [(hentry p hp).2]
    rfl
termination_by b.drafts.length - number
decreasing_by omega

/-! ### What is read from the text -/

/-- Whether an object is what is read from the text of a draft. -/
def ReadsAs (b : DraftBook) (number : Nat) (ms : Members) : Prop :=
  ∃ text, b.textOf number = .ok text ∧ (Body.text text).document = .ok ms

/-- What the object of a draft shows under a name, by what was written last: the form of the value, or
what is read from the text of the nested draft as it is now. -/
def Shows (b : DraftBook) (ms : Members) (name : String) : Option Writing → Prop
  | none => ms.get? name = none
  | some (.value v) => ∃ x, ms.get? name = some x ∧ SameTree x v.plain
  | some (.draft child) => ∃ inner, b.ReadsAs child inner ∧ ms.get? name = some (.object inner)

theorem Follows.textOf_eq (h : b.Follows calls) :
    b.textOf number = .ok (Json.object (b.plain number)).canonical := by
  rw [textOf, (h.isJson number).2]
  show ((Value.ofJson (.object (b.plain number))).toJson).map Json.canonical = _
  rw [Value.toJson_ofJson]
  rfl

theorem Follows.readsAs (h : b.Follows calls) (number : Nat) :
    b.ReadsAs number (Layout.canonical.order (Json.arrangedMembers .canonical (b.plain number))) :=
  ⟨_, h.textOf_eq, Body.document_text Json.Layout.isSpaced_canonical (h.isJson number).1⟩

/-- The text of a draft shows under each name what was written last. -/
theorem Follows.shows (h : b.Follows calls) (number : Nat) (name : String) :
    b.Shows (Layout.canonical.order (Json.arrangedMembers .canonical (b.plain number))) name
      (lastWriting calls number name) := by
  have hget := Json.get?_arranged .canonical (h.nodup_plain number) name
  rw [h.get?_plain] at hget
  have hkeeps := h.keeps number name
  generalize (b.entries number).lookup name = entry at hget hkeeps
  generalize lastWriting calls number name = w at hkeeps
  cases hkeeps with
  | nothing => exact hget
  | @value v hv =>
    have hplain : b.plainEntry (.value (.ofJson v.plain)) = v.plain := Value.plain_ofJson _
    rw [Option.map_some, Option.map_some, hplain] at hget
    exact ⟨_, hget, Json.sameTree_arranged _ _ hv⟩
  | draft _ _ => exact ⟨_, h.readsAs _, hget⟩

/-! ### Drafts with the same writings -/

end DraftBook

/-- Whether two writings are the same, for drafts that correspond: values with the same tree, or
corresponding drafts. -/
inductive Writing.Matches (R : Nat → Nat → Prop) : Writing → Writing → Prop where
  | value {v w : Value} : SameTree v.plain w.plain → Matches R (.value v) (.value w)
  | draft {child child' : Nat} : R child child' → Matches R (.draft child) (.draft child')

namespace DraftBook

variable {b b' : DraftBook} {calls calls' : List DraftCall}

/-- Corresponding drafts of two books stand for the same tree, when the same was written last under
each name of corresponding drafts. -/
theorem Follows.sameTree (h : b.Follows calls) (h' : b'.Follows calls') {R : Nat → Nat → Prop}
    (hR : ∀ number number', R number number' → ∀ name, Option.Rel (Writing.Matches R)
      (lastWriting calls number name) (lastWriting calls' number' name))
    (number number' : Nat) (hnumber : R number number') :
    SameTree (.object (b.plain number)) (.object (b'.plain number')) := by
  refine .of_get? (h.nodup_plain number) (h'.nodup_plain number') fun name => ?_
  rw [h.get?_plain, h'.get?_plain]
  have hkeeps := h.keeps number name
  have hkeeps' := h'.keeps number' name
  have hmatch := hR number number' hnumber name
  generalize (b.entries number).lookup name = entry at hkeeps ⊢
  generalize (b'.entries number').lookup name = entry' at hkeeps' ⊢
  generalize lastWriting calls number name = w at hkeeps hmatch
  generalize lastWriting calls' number' name = w' at hkeeps' hmatch
  cases hmatch with
  | none =>
    cases hkeeps
    cases hkeeps'
    exact .none
  | some hmatch =>
    cases hmatch with
    | value hvalues =>
      cases hkeeps
      cases hkeeps'
      refine .some ?_
      rw [plainEntry, plainEntry, filled, filled, Value.plain_ofJson, Value.plain_ofJson]
      exact hvalues
    | @draft child child' hchild =>
      cases hkeeps with
      | draft hyounger hlength =>
        cases hkeeps'
        exact .some (Follows.sameTree h h' hR child child' hchild)
termination_by b.drafts.length - number
decreasing_by omega

/-! ### Main results -/

/-- The text of every draft can be written. What is read from it shows under each name what was
written last, and a draft that is put as a value is the claim of what is read from its text at that
moment. The text depends on nothing else: drafts of two books with the same last writings have the
same text, whatever the order in which different names were written. -/
theorem text_shows_last_writings (h : b.IsMadeBy calls) :
    (∀ number, ∃ ms, b.ReadsAs number ms ∧
        (∀ name, b.Shows ms name (lastWriting calls number name)) ∧
        (Value.draft (b.members number)).IsClaim false ∧
        SameTree (.object ms) (Value.draft (b.members number)).plain) ∧
      ∀ {b' : DraftBook} {calls' : List DraftCall} (R : Nat → Nat → Prop), b'.IsMadeBy calls' →
        (∀ number number', R number number' → ∀ name, Option.Rel (Writing.Matches R)
          (lastWriting calls number name) (lastWriting calls' number' name)) →
        ∀ number number', R number number' → b'.textOf number' = b.textOf number := by
  refine ⟨fun number => ⟨_, h.follows.readsAs number, h.follows.shows number, ?_, ?_⟩,
    fun R h' hR number number' hnumber => ?_⟩
  · rw [(h.follows.isJson number).2]
    exact .draft (h.follows.isJson number).1
  · exact Json.sameTree_arranged .canonical _ (h.follows.isJson number).1
  · have htree := h.follows.sameTree h'.follows hR number number' hnumber
    rw [h.follows.textOf_eq, h'.follows.textOf_eq, (Json.canonical_eq_iff
      (h.follows.isJson number).1 (h'.follows.isJson number').1).2 htree]

/-- A list with a tuple in it is put before or after a nested draft gets its octets: the text is the
same, and shows an array in an array. -/
theorem text_shows_last_writings_swapped :
    let v : Value := .list [.null, .tuple [.bool true]]
    ∃ b b', (empty.nest 0 "inner").1.put 0 "flags" v = .ok b ∧ empty.put 0 "flags" v = .ok b' ∧
      b.text = (b'.nest 0 "inner").1.text ∧
      ∃ ms x inner, b.ReadsAs 0 ms ∧ ms.get? "flags" = some x ∧
        SameTree x (.array [.null, .array [.bool true]]) ∧
        ms.get? "inner" = some (.object inner) ∧ b.ReadsAs 1 inner := by
  intro v
  have hv : v.IsClaim false := by
    refine .list (List.forall_mem_cons.2 ⟨.null, List.forall_mem_singleton.2 (.tuple ?_)⟩)
    exact List.forall_mem_singleton.2 (.bool true)
  have hfirst : IsMadeBy _ [⟨0, "flags", .value v⟩, ⟨0, "inner", .draft 1⟩] :=
    .put (.nest "inner" .empty (by decide)) (by decide) hv rfl
  have hflags : IsMadeBy _ [⟨0, "flags", .value v⟩] :=
    .put .empty (by decide) hv (rfl : empty.put 0 "flags" v = .ok _)
  have hsecond : IsMadeBy _ [⟨0, "inner", .draft 1⟩, ⟨0, "flags", .value v⟩] :=
    .nest "inner" hflags (by decide)
  obtain ⟨hshows, htexts⟩ := text_shows_last_writings hfirst
  have hswap (number number' : Nat) (hnumber : number = number') (name : String) :
      Option.Rel (Writing.Matches (· = ·))
        (lastWriting [⟨0, "flags", .value v⟩, ⟨0, "inner", .draft 1⟩] number name)
        (lastWriting [⟨0, "inner", .draft 1⟩, ⟨0, "flags", .value v⟩] number' name) := by
    rw [hnumber, lastWriting_swap (.inr (by decide))]
    generalize lastWriting _ number' name = w
    match w with
    | none => exact .none
    | some (.value _) => exact .some (.value (.refl _))
    | some (.draft _) => exact .some (.draft rfl)
  obtain ⟨ms, hreads, hnames, -⟩ := hshows 0
  obtain ⟨x, hx, htree⟩ := hnames "flags"
  obtain ⟨inner, hinner, hget⟩ := hnames "inner"
  exact ⟨_, _, rfl, rfl, (htexts (· = ·) hsecond hswap 0 0 rfl).symm, ms, x, inner, hreads, hx, htree,
    hget, hinner⟩

/-! ### Octets -/

/-- A field with the text of octets is read as these octets. -/
theorem octets?_of_encode {f : Field} {bs : List UInt8} (h : f.value = .string (Base64.encode bs)) :
    f.octets? = .ok (some bs) := by
  refine Field.ofString?_eq_ok.2 (.inr ⟨_, bs, h, ?_, rfl⟩)
  have hascii : ((Base64.encode bs).toList.any fun c => 128 ≤ c.toNat) = false := by
    refine List.any_eq_false.2 fun c hc => ?_
    have := Base64.toNat_lt_of_isUrlChar (Base64.isUrlChar_of_mem_encode hc)
    simpa using this
  have hdecode : Base64.decode (Base64.encode bs).toList = .ok bs := Base64.decodeSized_encode bs
  simp only [hascii, hdecode]
  rfl

/-- Octets stand in a draft as a text of the `url` alphabet, without padding, and come back from the
text of the draft as they were put. -/
theorem octets_are_read_back (h : b.IsMadeBy calls) {number : Nat} {name : String} {bs : List UInt8}
    (hlast : lastWriting calls number name = some (.octets bs)) :
    ∃ text, (b.members number).lookup name = some (.string text) ∧
      (∀ c ∈ text.toList, Base64.isUrlChar c = true) ∧
      ∃ ms, b.ReadsAs number ms ∧ (ms.field name).octets? = .ok (some bs) := by
  refine ⟨Base64.encode bs, ?_, fun c => Base64.isUrlChar_of_mem_encode, _,
    h.follows.readsAs number, ?_⟩
  · have hkeeps := h.follows.keeps number name
    rw [hlast] at hkeeps
    rw [h.follows.members_eq, lookup_map_snd]
    generalize (b.entries number).lookup name = entry at hkeeps ⊢
    cases hkeeps
    rfl
  · obtain ⟨x, hx, htree⟩ := hlast ▸ h.follows.shows number name
    cases htree
    refine octets?_of_encode ?_
    rw [Members.field, Members.get, hx]
    rfl

/-- Two octets, whose text lacks a character of padding, are put anew in a nested draft. -/
theorem octets_are_read_back_nested :
    let b := (((empty.nest 0 "csr").1.putOctets 1 "der" [0]).putOctets 1 "der" [251, 255])
    ∃ text, (b.members 1).lookup "der" = some (.string text) ∧
      (∀ c ∈ text.toList, Base64.isUrlChar c = true) ∧
      ∃ ms, b.ReadsAs 1 ms ∧ (ms.field "der").octets? = .ok (some [251, 255]) :=
  octets_are_read_back (.putOctets "der" _ (.putOctets "der" _ (.nest "csr" .empty (by decide))
    (by decide)) (by decide)) rfl

end DraftBook

end AcmeClient
