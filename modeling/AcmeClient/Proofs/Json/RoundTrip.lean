import AcmeClient.Json.Document
import AcmeClient.Proofs.Json.Strings
import AcmeClient.Proofs.Json.Tokens

/-!
# JSON values read back

A legible value is read back from its text, up to the order of members when the layout sorts them:

* `readMembers_written`, `readItems_written` — reading the parts of a container one by one;
* `readValue_write` — reading the text of a value gives the arranged value and what stands behind it;
* `parse_render`, `Body.document_text` — the same for a whole text, and for a document;
* `Body.document_render` — where members are written in document order, nothing moves.
-/

namespace AcmeClient

open Number Text

namespace Json

/-! ### Containers -/

/-- Whether a layout separates parts by commas and names from values by colons, with nothing but
blanks behind them. -/
structure Layout.IsSpaced (l : Layout) : Prop where
  item : ∃ bs, l.itemSeparator = ',' :: bs ∧ ∀ c ∈ bs, isSpace c = true
  name : ∃ bs, l.nameSeparator = ':' :: bs ∧ ∀ c ∈ bs, isSpace c = true

theorem Layout.isSpaced_plain : Layout.plain.IsSpaced :=
  ⟨⟨[' '], rfl, by simp [isSpace]⟩, ⟨[' '], rfl, by simp [isSpace]⟩⟩

theorem Layout.isSpaced_canonical : Layout.canonical.IsSpaced :=
  ⟨⟨[' '], rfl, by simp [isSpace]⟩, ⟨[' '], rfl, by simp [isSpace]⟩⟩

/-- Whether a value is read back from its text, whatever stands behind it. -/
def Reads (l : Layout) (j : Json) : Prop :=
  ∀ fuel rest, (write l j).length ≤ fuel → Delimited rest →
    readValue fuel (write l j ++ rest) = .ok (arranged l j, rest)

theorem separated_singleton (sep p : List Char) : separated sep [p] = p := by
  simp [separated]

theorem separated_cons_cons (sep p q : List Char) (ps : List (List Char)) :
    separated sep (p :: q :: ps) = p ++ sep ++ separated sep (q :: ps) := by
  simp [separated]

/-- Parts one after the other start with the first character of the first part. -/
theorem separated_head (sep : List Char) (c : Char) (cs : List Char) (ps : List (List Char)) :
    ∃ ds, separated sep ((c :: cs) :: ps) = c :: ds := by
  cases ps with
  | nil => exact ⟨cs, separated_singleton sep _⟩
  | cons p ps => exact ⟨_, by rw [separated_cons_cons]; rfl⟩

/-- The text of the items of an array starts with the first character of the first item. -/
theorem writeItems_head {l : Layout} {x : Json} {c : Char} {cs : List Char}
    (h : write l x = c :: cs) (xs : List Json) (rest : List Char) :
    ∃ ds, separated l.itemSeparator (writeItems l (x :: xs)) ++ rest = c :: ds := by
  obtain ⟨ds, hds⟩ := separated_head l.itemSeparator c cs (writeItems l xs)
  exact ⟨ds ++ rest, by rw [writeItems, h, hds]; rfl⟩

/-- The text of the members of an object starts with a quote. -/
theorem writeMember_head (l : Layout) (p : String × Json) (ps : List (String × Json))
    (rest : List Char) :
    ∃ ds, separated l.itemSeparator ((p :: ps).map (writeMember l)) ++ rest = '"' :: ds := by
  obtain ⟨ds, hds⟩ := separated_head l.itemSeparator '"' _ (ps.map (writeMember l))
  exact ⟨ds ++ rest, congrArg (· ++ rest) hds⟩

theorem delimited_closing {c : Char} (h : c ∈ [',', ']', '\x7d']) (rest : List Char) :
    Delimited (c :: rest) := by
  intro d hd
  obtain rfl : c = d := by simpa using hd
  simp only [List.mem_cons, List.not_mem_nil, or_false] at h
  rcases h with rfl | rfl | rfl
  · decide
  · decide
  · decide

/-- The items of an array are read one after the other, up to the closing bracket. -/
theorem readItems_written {l : Layout} (hl : l.IsSpaced) (x : Json) (xs : List Json)
    (h : ∀ y ∈ x :: xs, Legible y ∧ Reads l y) (fuel : Nat) (rest : List Char)
    (hf : (separated l.itemSeparator (writeItems l (x :: xs))).length < fuel) :
    readItems fuel (separated l.itemSeparator (writeItems l (x :: xs)) ++ ']' :: rest)
      = .ok (arrangedItems l (x :: xs), rest) := by
  induction xs generalizing x fuel with
  | nil =>
    obtain ⟨fuel, rfl⟩ : ∃ f, fuel = f + 1 := ⟨fuel - 1, by omega⟩
    rw [writeItems, writeItems, separated_singleton] at hf ⊢
    have hx := (h x (by simp)).2 fuel (']' :: rest) (by omega) (delimited_closing (by simp) rest)
    simp only [readItems, hx]
    rw [skip_of_head (by decide)]
    rfl
  | cons y xs ih =>
    obtain ⟨fuel, rfl⟩ : ∃ f, fuel = f + 1 := ⟨fuel - 1, by omega⟩
    obtain ⟨bs, hsep, hbs⟩ := hl.item
    rw [writeItems, writeItems, separated_cons_cons, ← writeItems] at hf ⊢
    simp only [List.length_append] at hf
    have hcomma : l.itemSeparator.length = bs.length + 1 := by rw [hsep]; rfl
    have hrest := ih y (fun z hz => h z (by simp_all)) fuel (by omega)
    have hx := (h x (by simp)).2 fuel (l.itemSeparator
      ++ (separated l.itemSeparator (writeItems l (y :: xs)) ++ ']' :: rest)) (by omega)
      (by rw [hsep]; exact delimited_closing (by simp) _)
    -- the separator is a comma and blanks, and the next item starts with no blank
    obtain ⟨c, cs, hc, hs, -⟩ := write_cons l (h y (by simp)).1
    obtain ⟨ds, hds⟩ := writeItems_head hc xs (']' :: rest)
    simp only [List.append_assoc, readItems, hx]
    rw [hds] at hrest ⊢
    rw [hsep, List.cons_append, skip_of_head (by decide)]
    simp only [skip_blanks hbs, skip_of_head hs, hrest]
    rfl

theorem delimited_blanks {ws : List Char} (hw : ∀ c ∈ ws, isSpace c = true) {rest : List Char}
    (hr : Delimited rest) : Delimited (ws ++ rest) := by
  cases ws with
  | nil => exact hr
  | cons w ws =>
    intro d hd
    obtain rfl : w = d := by simpa using hd
    have hs := hw w (by simp)
    simp only [isSpace, Bool.or_eq_true, decide_eq_true_eq] at hs
    rcases hs with ((rfl | rfl) | rfl) | rfl
    · decide
    · decide
    · decide
    · decide

/-- A name and its value are read, and then what stands behind them and some blanks. -/
theorem readMembers_cons {l : Layout} (hl : l.IsSpaced) (p : String × Json) (hp : Legible p.2)
    (hr : Reads l p.2) (fuel : Nat) {w : List Char} (hw : ∀ c ∈ w, isSpace c = true) (c : Char)
    (rest : List Char) (hc : c ∈ [',', '\x7d']) (hf : (writeMember l p).length ≤ fuel) :
    readMembers (fuel + 1) (writeMember l p ++ (w ++ c :: rest))
      = if c = '\x7d' then .ok ([(p.1, arranged l p.2)], rest)
        else (readMembers fuel (skip rest)).map fun q => ((p.1, arranged l p.2) :: q.1, q.2) := by
  obtain ⟨bs, hsep, hbs⟩ := hl.name
  obtain ⟨d, ds, hd, hs, -⟩ := write_cons l hp
  simp only [writeMember, List.length_append] at hf
  have hmem : c ∈ [',', ']', '\x7d'] := by
    simp only [List.mem_cons, List.not_mem_nil, or_false] at hc
    rcases hc with rfl | rfl
    · simp
    · simp
  have hv := hr fuel (w ++ c :: rest) (by omega)
    (delimited_blanks hw (delimited_closing hmem rest))
  have htext : writeMember l p ++ (w ++ c :: rest) = '"' :: (p.1.toList.flatMap escapeChar
      ++ '"' :: (':' :: (bs ++ (write l p.2 ++ (w ++ c :: rest))))) := by
    simp [writeMember, renderString, hsep]
  rw [htext]
  simp only [readMembers, readString_written]
  rw [skip_of_head (by decide)]
  simp only [skip_blanks hbs]
  rw [hd] at hv ⊢
  rw [List.cons_append, skip_of_head hs, ← List.cons_append, hv]
  simp only [skip_blanks hw]
  simp only [List.mem_cons, List.not_mem_nil, or_false] at hc
  rcases hc with rfl | rfl
  · simp only [skip_of_head (show isSpace ',' = false by decide)]
    rfl
  · simp only [skip_of_head (show isSpace '\x7d' = false by decide)]
    rfl

/-- The members of an object are read one after the other, up to the closing brace. -/
theorem readMembers_written {l : Layout} (hl : l.IsSpaced) (p : String × Json)
    (ps : List (String × Json)) (h : ∀ q ∈ p :: ps, Legible q.2 ∧ Reads l q.2)
    (fuel : Nat) (rest : List Char)
    (hf : (separated l.itemSeparator ((p :: ps).map (writeMember l))).length < fuel) :
    readMembers fuel (separated l.itemSeparator ((p :: ps).map (writeMember l)) ++ '\x7d' :: rest)
      = .ok ((p :: ps).map (fun q => (q.1, arranged l q.2)), rest) := by
  induction ps generalizing p fuel with
  | nil =>
    obtain ⟨fuel, rfl⟩ : ∃ f, fuel = f + 1 := ⟨fuel - 1, by omega⟩
    rw [List.map_cons, List.map_nil, separated_singleton] at hf ⊢
    have hp := h p (by simp)
    have hlast := readMembers_cons hl p hp.1 hp.2 fuel (w := []) (by simp) '\x7d' rest (by simp)
      (by omega)
    rw [if_pos rfl] at hlast
    exact hlast
  | cons q ps ih =>
    obtain ⟨fuel, rfl⟩ : ∃ f, fuel = f + 1 := ⟨fuel - 1, by omega⟩
    obtain ⟨bs, hsep, hbs⟩ := hl.item
    rw [List.map_cons, List.map_cons, separated_cons_cons, ← List.map_cons] at hf ⊢
    simp only [List.length_append] at hf
    have hcomma : l.itemSeparator.length = bs.length + 1 := by rw [hsep]; rfl
    have hrest := ih q (fun z hz => h z (by simp_all)) fuel (by omega)
    have hp := h p (by simp)
    -- the next member starts with a quote
    obtain ⟨ds, hds⟩ := writeMember_head l q ps ('\x7d' :: rest)
    have hcs : writeMember l p ++ l.itemSeparator ++ separated l.itemSeparator
        ((q :: ps).map (writeMember l)) ++ '\x7d' :: rest
        = writeMember l p ++ ',' :: (bs ++ '"' :: ds) := by
      rw [List.append_assoc, List.append_assoc, hds, hsep]
      rfl
    have hfirst := readMembers_cons hl p hp.1 hp.2 fuel (w := []) (by simp) ',' (bs ++ '"' :: ds)
      (by simp) (by omega)
    rw [hds] at hrest
    rw [if_neg (by decide), skip_blanks hbs, skip_of_head (by decide), hrest] at hfirst
    rw [hcs]
    exact hfirst

/-! ### Values -/

/-- A brace with a name behind it opens an object. -/
theorem readValue_brace (fuel : Nat) {cs ds : List Char} (h : skip cs = '"' :: ds) :
    readValue (fuel + 1) ('\x7b' :: cs)
      = (readMembers fuel ('"' :: ds)).map fun p => (.object (Members.ofPairs p.1), p.2) := by
  rw [readValue, readWord?_eq_none (by decide)]
  simp only [show ('\x7b' : Char) ≠ '"' by decide, show ('\x7b' : Char) ≠ '[' by decide, if_false,
    if_true, h]
  split
  · rename_i r he
    exact absurd (List.cons.inj he).1 (by decide)
  · rfl

/-- A bracket with a value behind it opens an array. -/
theorem readValue_bracket (fuel : Nat) {cs ds : List Char} {c : Char} (h : skip cs = c :: ds)
    (hc : c ≠ ']') :
    readValue (fuel + 1) ('[' :: cs)
      = (readItems fuel (c :: ds)).map fun p => (.array p.1, p.2) := by
  rw [readValue, readWord?_eq_none (by decide)]
  simp only [show ('[' : Char) ≠ '"' by decide, if_false, if_true, h]
  split
  · rename_i r he
    exact absurd (List.cons.inj he).1 hc
  · rfl

theorem reads_int (l : Layout) {n : Int} (h : (numeral n.natAbs).length ≤ digitLimit) :
    Reads l (.int n) := by
  intro fuel rest hf hr
  cases n with
  | ofNat n =>
    obtain ⟨c, cs, hcs, hd, -⟩ := numeral_cons n
    obtain ⟨hw, h1, h2, h3, h4⟩ := notMem_words_of_isDigit hd
    have htext : write l (.int (.ofNat n)) = c :: cs := by simp [write, integerText, hcs]
    obtain ⟨fuel, rfl⟩ : ∃ f, fuel = f + 1 := ⟨fuel - 1, by rw [htext] at hf; simp at hf; omega⟩
    have hnum := readNumber_numeral false ((c :: (cs ++ rest)).length) n h hr
    rw [hcs] at hnum
    rw [htext, List.cons_append, readValue, readWord?_eq_none hw]
    simp only [h1, h2, h3, h4, if_false]
    exact hnum
  | negSucc n =>
    obtain ⟨c, cs, hcs, hd, -⟩ := numeral_cons (n + 1)
    have htext : write l (.int (.negSucc n)) = '-' :: c :: cs := by simp [write, integerText, hcs]
    obtain ⟨fuel, rfl⟩ : ∃ f, fuel = f + 1 := ⟨fuel - 1, by rw [htext] at hf; simp at hf; omega⟩
    have hnum := readNumber_numeral true (('-' :: c :: (cs ++ rest)).length) (n + 1) h hr
    rw [hcs] at hnum
    rw [htext, List.cons_append, List.cons_append, readValue, readWord?_minus hd]
    simp only [show ('-' : Char) ≠ '"' by decide, show ('-' : Char) ≠ '[' by decide,
      show ('-' : Char) ≠ '\x7b' by decide, if_false, if_true]
    exact hnum

theorem reads_string (l : Layout) (s : String) : Reads l (.string s) := by
  intro fuel rest hf _
  obtain ⟨fuel, rfl⟩ : ∃ f, fuel = f + 1 := ⟨fuel - 1, by simp [write, renderString] at hf; omega⟩
  have htext : write l (.string s) ++ rest
      = '"' :: (s.toList.flatMap escapeChar ++ '"' :: rest) := by
    simp [write, renderString]
  rw [htext, readValue, readWord?_eq_none (by decide)]
  simp only [if_true, readString_written]
  rfl

theorem reads_array {l : Layout} (hl : l.IsSpaced) {items : List Json}
    (h : ∀ x ∈ items, Legible x ∧ Reads l x) : Reads l (.array items) := by
  intro fuel rest hf _
  simp only [write, List.length_cons, List.length_append, List.length_nil] at hf
  obtain ⟨fuel, rfl⟩ : ∃ f, fuel = f + 1 := ⟨fuel - 1, by omega⟩
  cases items with
  | nil =>
    show readValue (fuel + 1) ('[' :: ']' :: rest) = _
    rw [readValue, readWord?_eq_none (by decide)]
    simp [skip_of_head (show isSpace ']' = false by decide), arranged, arrangedItems]
  | cons x xs =>
    have hitems := readItems_written hl x xs h fuel rest (by omega)
    obtain ⟨c, cs, hc, hs, hne⟩ := write_cons l (h x (by simp)).1
    obtain ⟨ds, hds⟩ := writeItems_head hc xs (']' :: rest)
    have htext : write l (.array (x :: xs)) ++ rest = '[' :: c :: ds := by
      rw [← hds]
      simp [write]
    rw [hds] at hitems
    rw [htext, readValue_bracket fuel (skip_of_head hs ds) hne, hitems]
    rfl

theorem reads_object {l : Layout} (hl : l.IsSpaced) {ms : Members}
    (hn : (ms.map Prod.fst).Nodup) (h : ∀ p ∈ ms, Legible p.2 ∧ Reads l p.2) :
    Reads l (.object ms) := by
  intro fuel rest hf _
  have hperm := l.order_perm ms
  have hread : ∀ p ∈ l.order ms, Legible p.2 ∧ Reads l p.2 := fun p hp => h p (hperm.mem_iff.1 hp)
  have hnames : ((l.order ms).map Prod.fst).Nodup := (hperm.map Prod.fst).nodup_iff.2 hn
  have hwrite : write l (.object ms) = '\x7b' :: (separated l.itemSeparator
      ((l.order ms).map (writeMember l)) ++ ['\x7d']) := by
    rw [← ordered_writeMembers]
    rfl
  have harr : arranged l (.object ms)
      = .object ((l.order ms).map fun p => (p.1, arranged l p.2)) := by
    rw [arranged, arrangedMembers_eq_map, Layout.order_map l (fun p => arranged l p.2)]
  rw [hwrite] at hf ⊢
  rw [harr]
  simp only [List.length_cons, List.length_append, List.length_nil] at hf
  obtain ⟨fuel, rfl⟩ : ∃ f, fuel = f + 1 := ⟨fuel - 1, by omega⟩
  cases hms : l.order ms with
  | nil =>
    show readValue (fuel + 1) ('\x7b' :: '\x7d' :: rest) = _
    rw [readValue, readWord?_eq_none (by decide)]
    simp [skip_of_head (show isSpace '\x7d' = false by decide)]
  | cons p ps =>
    rw [hms] at hread hnames hf
    have hmem := readMembers_written hl p ps hread fuel rest (by omega)
    obtain ⟨ds, hds⟩ := writeMember_head l p ps ('\x7d' :: rest)
    have htext : '\x7b' :: (separated l.itemSeparator ((p :: ps).map (writeMember l)) ++ ['\x7d'])
        ++ rest = '\x7b' :: '"' :: ds := by
      rw [← hds]
      simp
    rw [hds] at hmem
    rw [htext, readValue_brace fuel (skip_of_head (by decide) ds), hmem]
    show Except.ok (Json.object (Members.ofPairs _), rest) = _
    rw [Members.ofPairs_of_nodup]
    rw [List.map_map]
    exact hnames

/-- Reading the text of a value gives the arranged value and what stands behind it. -/
theorem readValue_write {l : Layout} (hl : l.IsSpaced) : ∀ j, Legible j → Reads l j
  | .null, _ => by
    intro fuel rest hf _
    obtain ⟨fuel, rfl⟩ : ∃ f, fuel = f + 1 := ⟨fuel - 1, by simp [write] at hf; omega⟩
    rfl
  | .bool b, _ => by
    intro fuel rest hf _
    obtain ⟨fuel, rfl⟩ : ∃ f, fuel = f + 1 := ⟨fuel - 1, by cases b <;> simp [write] at hf <;> omega⟩
    cases b with
    | true => rfl
    | false => rfl
  | .int n, h => reads_int l h
  | .float x, h => absurd h (by simp [Legible])
  | .string s, _ => reads_string l s
  | .array items, h =>
    reads_array hl fun x hx =>
      have hl' := legibleItems_iff.1 h x hx
      ⟨hl', readValue_write hl x hl'⟩
  | .object ms, h =>
    reads_object hl h.1 fun p hp =>
      have hl' := legibleMembers_iff.1 h.2 p hp
      ⟨hl', readValue_write hl p.2 hl'⟩
termination_by j => sizeOf j
decreasing_by
  · have := List.sizeOf_lt_of_mem hx
    simp only [Json.array.sizeOf_spec]
    omega
  · have h1 := List.sizeOf_lt_of_mem hp
    have h2 : sizeOf p = 1 + sizeOf p.1 + sizeOf p.2 := by cases p; rfl
    simp only [Json.object.sizeOf_spec]
    omega

/-! ### Whole texts -/

/-- The text of a value is read as the arranged value. -/
theorem parse_render {l : Layout} (hl : l.IsSpaced) {j : Json} (h : Legible j) :
    parse (j.render l) = .ok (arranged l j) := by
  obtain ⟨c, cs, hc, hs, -⟩ := write_cons l h
  have hread := readValue_write hl j h (2 * (write l j).length + 2) [] (by omega) (by simp [Delimited])
  rw [List.append_nil] at hread
  have hskip : skip (write l j) = write l j := by rw [hc, skip_of_head hs]
  have hwhole : readWhole (write l j) = .ok (arranged l j) := by
    simp only [readWhole, hskip, hread]
    rfl
  simp only [parse, render, String.toList_ofList, hwhole]

mutual

/-- Members stay as they are where the layout does not sort them. -/
theorem arranged_plain : ∀ j, arranged .plain j = j
  | .null => rfl
  | .bool _ => rfl
  | .int _ => rfl
  | .float _ => rfl
  | .string _ => rfl
  | .array items => by rw [arranged, arrangedItems_plain items]
  | .object ms => by rw [arranged, arrangedMembers_plain ms]; rfl

theorem arrangedItems_plain : ∀ xs, arrangedItems .plain xs = xs
  | [] => rfl
  | x :: xs => by rw [arrangedItems, arranged_plain x, arrangedItems_plain xs]

theorem arrangedMembers_plain : ∀ ms, arrangedMembers .plain ms = ms
  | [] => rfl
  | (n, x) :: ms => by rw [arrangedMembers, arranged_plain x, arrangedMembers_plain ms]

end

end Json

/-- The text of an object is a document with its members, arranged. -/
theorem Body.document_text {l : Json.Layout} (hl : l.IsSpaced) {ms : Members}
    (h : Json.Legible (.object ms)) :
    (Body.text ((Json.object ms).render l)).document
      = .ok (l.order (Json.arrangedMembers l ms)) := by
  have hmark : ((Json.object ms).render l).toList.head? ≠ some '\uFEFF' := by
    rw [Json.render, String.toList_ofList]
    show some '\x7b' ≠ some '\uFEFF'
    decide
  rw [Body.document, Body.toJson, if_neg hmark, Json.parse_render hl h]
  rfl

/-- The text of an object in document order is a document with its members. -/
theorem Body.document_render {ms : Members} (h : Json.Legible (.object ms)) :
    (Body.text ((Json.object ms).render .plain)).document = .ok ms := by
  rw [Body.document_text Json.Layout.isSpaced_plain h, Json.arrangedMembers_plain]
  rfl

end AcmeClient
