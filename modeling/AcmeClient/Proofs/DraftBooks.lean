import AcmeClient.Claims.Draft
import AcmeClient.Proofs.ClaimForms
import AcmeClient.Proofs.Json.Trees

/-!
# Books of drafts

The drafts of a book are written name by name, at any time and in any order. Under each name of a
draft stands what was written last:

* `Writing`, `DraftCall` — what a call writes, and where;
* `lastWriting` — what was written last under a name of a draft; by `lastWriting_swap` the order of
  different names does not matter;
* `DraftBook.IsMadeBy` — the books that successful calls make;
* `DraftBook.Follows` — the entries of a book are what calls wrote last;
* `Follows.write` is what one call preserves, `IsMadeBy.follows` holds of all calls.
-/

namespace AcmeClient

/-! ### Calls -/

/-- What a call writes under a name: a value, or a new draft with its number. -/
inductive Writing where
  | value (v : Value) : Writing
  | draft (number : Nat) : Writing

/-- A call that writes under a name of a draft. -/
structure DraftCall where
  number : Nat
  name : String
  writing : Writing

/-- The text that is written for octets. -/
def Writing.octets (bs : List UInt8) : Writing :=
  .value (.string (Base64.encode bs))

/-- What was written last under a name of a draft, by calls of which the latest comes first. -/
def lastWriting (calls : List DraftCall) (number : Nat) (name : String) : Option Writing :=
  (calls.find? fun c => c.number = number ∧ c.name = name).map DraftCall.writing

theorem lastWriting_cons (c : DraftCall) (calls : List DraftCall) (number : Nat) (name : String) :
    lastWriting (c :: calls) number name
      = if c.number = number ∧ c.name = name then some c.writing
        else lastWriting calls number name := by
  rw [lastWriting, List.find?_cons]
  by_cases h : c.number = number ∧ c.name = name
  · rw [decide_eq_true h, if_pos h]
    rfl
  · rw [decide_eq_false h, if_neg h]
    rfl

/-- Calls under different names, or of different drafts, may come in either order. -/
theorem lastWriting_swap {c d : DraftCall} (h : c.number ≠ d.number ∨ c.name ≠ d.name)
    (calls : List DraftCall) (number : Nat) (name : String) :
    lastWriting (c :: d :: calls) number name = lastWriting (d :: c :: calls) number name := by
  simp only [lastWriting_cons]
  by_cases hc : c.number = number ∧ c.name = name
  · have hd : ¬ (d.number = number ∧ d.name = name) := by
      rintro ⟨rfl, rfl⟩
      exact h.elim (fun hn => hn hc.1) (fun hn => hn hc.2)
    rw [if_pos hc, if_neg hd, if_pos hc]
  · rw [if_neg hc, if_neg hc]

namespace DraftBook

/-- Whether a book is made by successful calls, of which the latest comes first. Each call writes to a
draft that is there; values are claims. -/
inductive IsMadeBy : DraftBook → List DraftCall → Prop where
  | empty : IsMadeBy .empty []
  | put {b b' : DraftBook} {calls : List DraftCall} {number : Nat} {name : String} {v : Value} :
      IsMadeBy b calls → number < b.drafts.length → v.IsClaim false → b.put number name v = .ok b' →
      IsMadeBy b' (⟨number, name, .value v⟩ :: calls)
  | putOctets {b : DraftBook} {calls : List DraftCall} {number : Nat} (name : String)
      (bs : List UInt8) :
      IsMadeBy b calls → number < b.drafts.length →
      IsMadeBy (b.putOctets number name bs) (⟨number, name, .octets bs⟩ :: calls)
  | putItems {b b' : DraftBook} {calls : List DraftCall} {number : Nat} {name : String} {v : Value}
      {items : List Value} :
      IsMadeBy b calls → number < b.drafts.length → v.elements = .ok items →
      (∀ x ∈ items, x.IsClaim false) → b.putItems number name v = .ok b' →
      IsMadeBy b' (⟨number, name, .value (.list items)⟩ :: calls)
  | nest {b : DraftBook} {calls : List DraftCall} {number : Nat} (name : String) :
      IsMadeBy b calls → number < b.drafts.length →
      IsMadeBy (b.nest number name).1 (⟨number, name, .draft (b.nest number name).2⟩ :: calls)

/-! ### Entries -/

def entries (b : DraftBook) (number : Nat) : List (String × DraftEntry) :=
  b.drafts[number]?.getD []

section Write

variable {name n : String} {entry : DraftEntry} {es : List (String × DraftEntry)}

theorem lookup_write :
    (write name entry es).lookup n = if name = n then some entry else es.lookup n := by
  have hcons (m : String) (e : DraftEntry) (rest : List (String × DraftEntry)) :
      ((m, e) :: rest).lookup n = if m = n then some e else rest.lookup n := by
    rw [List.lookup_cons]
    by_cases h : m = n
    · rw [if_pos h, h, beq_self_eq_true]
    · rw [if_neg h, beq_false_of_ne (Ne.symm h)]
  induction es with
  | nil => exact hcons name entry []
  | cons p es ih =>
    obtain ⟨m, e⟩ := p
    rw [write]
    by_cases hm : m = name
    · rw [if_pos hm, hcons, hcons, hm]
      split
      · rfl
      · rfl
    · rw [if_neg hm, hcons, hcons, ih]
      by_cases hn : name = n
      · rw [if_pos hn, if_pos hn, if_neg (fun he => hm (he.trans hn.symm))]
      · rw [if_neg hn, if_neg hn]

theorem mem_names_write : n ∈ (write name entry es).map Prod.fst → n = name ∨ n ∈ es.map Prod.fst := by
  induction es with
  | nil => exact fun h => .inl (List.mem_singleton.1 h)
  | cons p es ih =>
    rw [write]
    intro h
    split at h
    · exact .inr h
    · obtain rfl | h := List.mem_cons.1 h
      · exact .inr List.mem_cons_self
      · exact (ih h).imp_right (List.mem_cons_of_mem _)

/-- A name that is written stands in the draft once. -/
theorem nodup_write (h : (es.map Prod.fst).Nodup) : ((write name entry es).map Prod.fst).Nodup := by
  induction es with
  | nil => exact List.nodup_singleton name
  | cons p es ih =>
    rw [write]
    split
    · exact h
    · rename_i hp
      obtain ⟨hnew, hrest⟩ := List.nodup_cons.1 h
      refine List.nodup_cons.2 ⟨fun hmem => ?_, ih hrest⟩
      exact (mem_names_write hmem).elim hp hnew

end Write

variable {b b' : DraftBook} {number k : Nat} {name : String} {entry : DraftEntry}

theorem entries_set (h : number < b.drafts.length) :
    (b.set number name entry).entries k
      = if number = k then write name entry (b.entries k) else b.entries k := by
  rw [entries, set, List.getElem?_modify]
  by_cases hk : number = k
  · subst hk
    simp [entries, h]
  · simp [entries, hk]

/-- The new draft of a book holds nothing. -/
theorem entries_nest :
    (b.nest number name).1.entries k
      = (b.set number name (.nested b.drafts.length)).entries k := by
  show ((b.set number name (.nested b.drafts.length)).drafts ++ [[]])[k]?.getD [] = _
  rw [entries, List.getElem?_append]
  split
  · rfl
  · rename_i hk
    rw [List.getElem?_eq_none (Nat.not_lt.1 hk)]
    cases hnew : ([[]] : List (List (String × DraftEntry)))[k
        - (b.set number name (.nested b.drafts.length)).drafts.length]? with
    | none => rfl
    | some es => exact List.mem_singleton.1 (List.mem_of_getElem? hnew)

/-! ### What stands in a draft -/

/-- Whether an entry is what was written: the form of a value, or a draft that is younger than the one
it stands in. -/
inductive Keeps (b : DraftBook) (number : Nat) : Option DraftEntry → Option Writing → Prop where
  | nothing : Keeps b number none none
  | value {v : Value} : v.plain.Legible →
      Keeps b number (some (.value (.ofJson v.plain))) (some (.value v))
  | draft {child : Nat} : number < child → child < b.drafts.length →
      Keeps b number (some (.nested child)) (some (.draft child))

/-- Whether the entries of a book are what calls wrote last, each name once. -/
structure Follows (b : DraftBook) (calls : List DraftCall) : Prop where
  names : ∀ number, ((b.entries number).map Prod.fst).Nodup
  keeps : ∀ number name, b.Keeps number ((b.entries number).lookup name)
    (lastWriting calls number name)

theorem Keeps.mono {e : Option DraftEntry} {w : Option Writing} (h : b.Keeps number e w)
    (hlength : b.drafts.length ≤ b'.drafts.length) : b'.Keeps number e w := by
  cases h with
  | nothing => exact .nothing
  | value hv => exact .value hv
  | draft hyounger hchild => exact .draft hyounger (Nat.lt_of_lt_of_le hchild hlength)

theorem follows_empty : Follows .empty [] := by
  have hentries (number : Nat) : entries .empty number = [] := by
    cases number with
    | zero => rfl
    | succ n => rfl
  refine ⟨fun number => ?_, fun number name => ?_⟩
  · rw [hentries]
    exact List.nodup_nil
  · rw [hentries]
    exact .nothing

variable {calls : List DraftCall} {writing : Writing}

/-- A call writes one name of one draft, and leaves all others. -/
theorem Follows.write (h : b.Follows calls) (hnumber : number < b.drafts.length)
    (hentries : ∀ k, b'.entries k = (b.set number name entry).entries k)
    (hlength : b.drafts.length ≤ b'.drafts.length)
    (hkeeps : b'.Keeps number (some entry) (some writing)) :
    b'.Follows (⟨number, name, writing⟩ :: calls) := by
  refine ⟨fun k => ?_, fun k n => ?_⟩
  · rw [hentries, entries_set hnumber]
    split
    · exact nodup_write (h.names k)
    · exact h.names k
  · rw [hentries, entries_set hnumber, lastWriting_cons]
    by_cases hk : number = k
    · subst hk
      rw [if_pos rfl, lookup_write]
      by_cases hn : name = n
      · rw [if_pos hn, if_pos ⟨rfl, hn⟩]
        exact hkeeps
      · rw [if_neg hn, if_neg (fun hc => hn hc.2)]
        exact (h.keeps number n).mono hlength
    · rw [if_neg hk, if_neg (fun hc => hk hc.1)]
      exact (h.keeps k n).mono hlength

theorem le_length_set : b.drafts.length ≤ (b.set number name entry).drafts.length :=
  Nat.le_of_eq (List.length_modify ..).symm

/-- A claim that is put stands in the draft in its form. -/
theorem Follows.put (h : b.Follows calls) (hnumber : number < b.drafts.length) {v : Value}
    (hv : v.IsClaim false) (hput : b.put number name v = .ok b') :
    b'.Follows (⟨number, name, .value v⟩ :: calls) := by
  obtain ⟨w, hw, rfl⟩ := map_eq_ok.1 hput
  rw [hv.convert_eq rfl hw]
  exact h.write hnumber (fun _ => rfl) le_length_set (.value hv.legible)

/-- The entries of a book that calls made are what they wrote last. -/
theorem IsMadeBy.follows (h : b.IsMadeBy calls) : b.Follows calls := by
  induction h with
  | empty => exact follows_empty
  | put _ hnumber hv hput ih => exact ih.put hnumber hv hput
  | putOctets name bs _ hnumber ih =>
    exact ih.write hnumber (fun _ => rfl) le_length_set (.value (v := .string _) trivial)
  | putItems _ hnumber helements hitems hput ih =>
    obtain ⟨items', helements', hput⟩ := bind_eq_ok.1 hput
    rw [helements] at helements'
    cases helements'
    exact ih.put hnumber (.list hitems) hput
  | @nest b calls number name _ hnumber ih =>
    have hlength : (b.nest number name).1.drafts.length = b.drafts.length + 1 := by
      simp [DraftBook.nest]
    refine ih.write hnumber (fun k => entries_nest) (by omega) (.draft hnumber ?_)
    rw [hlength]
    exact Nat.lt_succ_self _

end DraftBook

end AcmeClient
