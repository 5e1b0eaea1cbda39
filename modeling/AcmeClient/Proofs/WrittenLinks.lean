import AcmeClient.Proofs.AbsoluteUrls
import AcmeClient.Proofs.Answers
import AcmeClient.Proofs.Operations

/-!
# Links as they are written

A header writes links one after another, each as a URI in angle brackets with a relation in quotes. It
is read back by cutting at separators, and some of them may stand in a URI:

* `WrittenLink` — a link with an absolute URI and the name of a relation, and how it is written;
* `WrittenLink.related_header` — every link of a header is read for itself, in order;
* `WrittenLink.related_eq_iff` — a link is read back exactly when its URI has no semicolon and does not
  end with an apostrophe;
* `WrittenLink.seenFrom` — what a URI resolves to;
* `Exchange.links_are_read_as_written` — the links of an answer that writes them in this way.
-/

namespace AcmeClient

open Act Text

/-- Whether a text can be the name of a relation: it is not empty, and has no blanks, quotes and
delimiters. -/
def Link.IsName (name : String) : Prop :=
  name ≠ "" ∧ ∀ c ∈ name.toList, c ∉ [';', '=', '<', ' ', '\'', '"']

-- The characters of the name are tried, and not all characters there are.
instance (name : String) : Decidable (Link.IsName name) :=
  haveI : Decidable (∀ c ∈ name.toList, c ∉ [';', '=', '<', ' ', '\'', '"']) :=
    List.decidableBAll _ _
  inferInstanceAs (Decidable (_ ∧ _))

/-- A link with a relation to an absolute URL of the web. -/
structure WrittenLink where
  uri : String
  relation : String
  isAbsolute : isAbsolute uri = .ok true
  uriChars : ∀ c ∈ uri.toList, Url.isUriChar c = true
  isName : Link.IsName relation

namespace WrittenLink

def text (l : WrittenLink) : String :=
  "<" ++ l.uri ++ ">;rel=\"" ++ l.relation ++ "\""

def header (ls : List WrittenLink) : String :=
  ", ".intercalate (ls.map text)

/-- What stands between the bracket that opens a link and the quote that ends it. -/
def inside (l : WrittenLink) : List Char :=
  l.uri.toList ++ '>' :: ';' :: ("rel=\"".toList ++ l.relation.toList)

/-- What stands between the first bracket and the last quote of a header. -/
def insideAll (l : WrittenLink) : List WrittenLink → List Char
  | [] => l.inside
  | m :: ls => l.inside ++ '"' :: ',' :: ' ' :: '<' :: insideAll m ls

theorem toList_header (l : WrittenLink) (ls : List WrittenLink) :
    (header (l :: ls)).toList = '<' :: insideAll l ls ++ ['"'] := by
  induction ls generalizing l with
  | nil => simp [header, text, insideAll, inside]
  | cons m ls ih =>
    have hrest := ih m
    rw [header] at hrest ⊢
    rw [List.map_cons, List.map_cons, String.intercalate_cons_cons, ← List.map_cons,
      String.toList_append, hrest]
    simp [text, insideAll, inside]

end WrittenLink

/-! ### Cutting a header into links -/

namespace Link

/-- Behind blanks stands a character of the text, or what follows it. -/
theorem head?_dropWhile_append {cs rest : List Char} (h : '<' ∉ cs)
    (hrest : rest = [] ∨ rest.head? = some ',') :
    ((cs ++ rest).dropWhile (· = ' ')).head? ≠ some '<' := by
  induction cs with
  | nil =>
    cases rest with
    | nil => simp
    | cons c cs =>
      obtain rfl : c = ',' := by simpa using hrest
      simp
  | cons c cs ih =>
    obtain ⟨hc, hcs⟩ := not_or.1 (mt List.mem_cons.2 h)
    by_cases hblank : c = ' '
    · rw [List.cons_append, List.dropWhile_cons_of_pos (by simpa using hblank)]
      exact ih hcs
    · rw [List.cons_append, List.dropWhile_cons_of_neg (by simpa using hblank)]
      simpa using Ne.symm hc

/-- Nothing separates links unless a bracket opens. -/
theorem afterSeparator?_of_notMem {c : Char} {cs rest : List Char} (h : '<' ∉ c :: cs)
    (hrest : rest = [] ∨ rest.head? = some ',') : afterSeparator? (c :: (cs ++ rest)) = none := by
  by_cases hc : c = ','
  · subst hc
    have hblank := head?_dropWhile_append (mt (List.mem_cons_of_mem _) h) hrest
    rw [afterSeparator?]
    split
    · rename_i after heq
      rw [heq] at hblank
      exact absurd rfl hblank
    · rfl
  · unfold afterSeparator?
    split
    · rename_i heq
      exact absurd (List.cons.inj heq).1 hc
    · rfl

/-- Characters without a bracket are in one link. -/
theorem cutLinks_append {seg : List Char} (rest : List Char) (h : '<' ∉ seg)
    (hrest : rest = [] ∨ rest.head? = some ',') {n : Nat} (hn : seg.length + rest.length ≤ n) :
    ∃ m, rest.length ≤ m ∧ ∀ p ps, cutLinks m rest = p :: ps →
      cutLinks n (seg ++ rest) = (seg ++ p) :: ps := by
  induction seg generalizing n with
  | nil => exact ⟨n, by simpa using hn, fun p ps hp => hp⟩
  | cons c cs ih =>
    obtain ⟨n, rfl⟩ : ∃ k, n = k + 1 := ⟨n - 1, by simp at hn; omega⟩
    obtain ⟨m, hm, hcut⟩ := ih (fun hmem => h (List.mem_cons_of_mem _ hmem))
      (n := n) (by simp at hn; omega)
    refine ⟨m, hm, fun p ps hp => ?_⟩
    rw [List.cons_append, cutLinks, afterSeparator?_of_notMem h hrest]
    dsimp only
    rw [hcut p ps hp]
    rfl

end Link

namespace WrittenLink

variable {l : WrittenLink}

theorem notMem_uri {c : Char} (h : Url.isUriChar c = false) : c ∉ l.uri.toList := by
  intro hmem
  rw [l.uriChars c hmem] at h
  cases h

theorem notMem_relation {c : Char} (h : c ∈ [';', '=', '<', ' ', '\'', '"']) :
    c ∉ l.relation.toList :=
  fun hmem => l.isName.2 c hmem h

theorem notMem_inside : '<' ∉ l.inside := by
  have huri : '<' ∉ l.uri.toList := notMem_uri (by decide)
  have hrelation : '<' ∉ l.relation.toList := notMem_relation (by simp)
  simp [inside, huri, hrelation]

/-- The texts of links between the brackets that open them; the last one has lost its quote. -/
def pieces (l : WrittenLink) : List WrittenLink → List (List Char)
  | [] => [l.inside]
  | m :: ls => (l.inside ++ ['"']) :: pieces m ls

theorem cutLinks_insideAll (ls : List WrittenLink) {n : Nat} (hn : (insideAll l ls).length ≤ n) :
    Link.cutLinks n (insideAll l ls) = l.pieces ls := by
  induction ls generalizing l n with
  | nil =>
    obtain ⟨m, -, hcut⟩ := Link.cutLinks_append [] l.notMem_inside (.inl rfl) hn
    have hend : Link.cutLinks m [] = [[]] := by cases m <;> rfl
    simpa [insideAll, pieces] using hcut _ _ hend
  | cons k ls ih =>
    have hseg : '<' ∉ l.inside ++ ['"'] := by simp [l.notMem_inside]
    have heq : insideAll l (k :: ls)
        = (l.inside ++ ['"']) ++ ',' :: ' ' :: '<' :: insideAll k ls := by simp [insideAll]
    rw [heq] at hn ⊢
    rw [List.length_append] at hn
    obtain ⟨m, hm, hcut⟩ := Link.cutLinks_append _ hseg (.inr rfl) hn
    simp only [List.length_cons] at hm
    obtain ⟨m, rfl⟩ : ∃ j, m = j + 1 := ⟨m - 1, by omega⟩
    have hlength : (insideAll k ls).length ≤ m := by omega
    have hrest : Link.cutLinks (m + 1) (',' :: ' ' :: '<' :: insideAll k ls)
        = [] :: k.pieces ls := by
      rw [Link.cutLinks, ← ih hlength]
      rfl
    simpa [pieces] using hcut _ _ hrest

end WrittenLink

/-! ### Reading one link -/

namespace Link

theorem mem_of_isBracket {c : Char} (h : isBracket c = true) : c ∈ ['<', '>', ' ', '\'', '"'] := by
  simpa [isBracket, isPadding, or_assoc] using h

/-- The bracket that opens a link does not matter. -/
theorem ofChars_bracket (cs : List Char) : ofChars ('<' :: cs) = ofChars cs := by
  have hcut : cut ';' ('<' :: cs) = ('<' :: (cut ';' cs).1, (cut ';' cs).2) := by simp [cut]
  rw [ofChars, hcut]
  rfl

/-- Semicolons in front of a parameter cut off parameters, too. -/
theorem ofChars_append (front : List Char) {tail : List Char} (h : ';' ∉ tail) :
    ofChars (front ++ ';' :: tail)
      = ("url", String.ofList (trimWhere isBracket (cut ';' front).1))
        :: parameters (((cut ';' front).2.map (pieces ';')).getD [] ++ [tail]) := by
  rw [ofChars, cut_append_cons]
  cases (cut ';' front).2 with
  | none => simp [pieces_of_notMem h]
  | some rest => simp [pieces_append_cons, pieces_of_notMem h]

theorem exists_of_mem_parameters {p : String × String} {ps : List (List Char)}
    (h : p ∈ parameters ps) : ∃ cs ∈ ps, parameter? cs = some p := by
  induction ps with
  | nil => cases h
  | cons cs rest ih =>
    rw [parameters] at h
    cases hp : parameter? cs with
    | none =>
      rw [hp] at h
      cases h
    | some q =>
      rw [hp] at h
      rcases List.mem_cons.1 h with rfl | h
      · exact ⟨cs, List.mem_cons_self, hp⟩
      · obtain ⟨cs', hmem, hp'⟩ := ih h
        exact ⟨cs', List.mem_cons_of_mem _ hmem, hp'⟩

/-- A value stands in the parameter. -/
theorem mem_of_parameter? {p : String × String} {cs : List Char} (h : parameter? cs = some p)
    {c : Char} (hc : c ∈ p.2.toList) : c ∈ cs := by
  rw [parameter?] at h
  split at h
  · rename_i name value hpieces
    cases h
    rw [String.toList_ofList] at hc
    exact mem_of_mem_pieces (hpieces ▸ List.mem_cons_of_mem _ List.mem_cons_self)
      (mem_of_mem_trimWhere hc)
  · cases h

/-- What is read of a link has no semicolons. -/
theorem notMem_of_mem_ofChars {p : String × String} {cs : List Char} (h : p ∈ ofChars cs) :
    ';' ∉ p.2.toList := by
  intro hsemicolon
  rcases List.mem_cons.1 h with rfl | h
  · rw [String.toList_ofList] at hsemicolon
    exact notMem_cut ';' cs (mem_of_mem_trimWhere hsemicolon)
  · obtain ⟨piece, hmem, hp⟩ := exists_of_mem_parameters h
    exact notMem_of_mem_pieces hmem (mem_of_parameter? hp hsemicolon)

/-- The last parameter matters for what it says only. -/
theorem parameters_append_congr (front : List (List Char)) {tail tail' : List Char}
    (h : parameter? tail = parameter? tail') :
    parameters (front ++ [tail]) = parameters (front ++ [tail']) := by
  induction front with
  | nil => simp [parameters, h]
  | cons cs rest ih =>
    rw [List.cons_append, List.cons_append, parameters, parameters, ih]

variable {name : String}

/-- The name of a relation is read back, with and without the quote behind it. -/
theorem parameter?_relation (h : IsName name) (quote : List Char)
    (hquote : quote = [] ∨ quote = ['"']) :
    parameter? ("rel=\"".toList ++ name.toList ++ quote) = some ("rel", name) := by
  have hequals : '=' ∉ '"' :: (name.toList ++ quote) := by
    have hname : '=' ∉ name.toList := fun hmem => h.2 _ hmem (by simp)
    rcases hquote with rfl | rfl
    · simp [hname]
    · simp [hname]
  have hpieces : pieces '=' ("rel=\"".toList ++ name.toList ++ quote)
      = ["rel".toList, '"' :: (name.toList ++ quote)] := by
    have heq : "rel=\"".toList ++ name.toList ++ quote
        = "rel".toList ++ '=' :: '"' :: (name.toList ++ quote) := by simp
    rw [heq, pieces_append_cons, pieces_of_notMem hequals]
    rfl
  have hpadding : ∀ c ∈ name.toList, isPadding c = false := by
    intro c hc
    have hnot := h.2 c hc
    simp only [List.mem_cons, not_or] at hnot
    simp [isPadding, hnot]
  have htrim : trimWhere isPadding ('"' :: (name.toList ++ quote)) = name.toList := by
    have hopen : trimWhere isPadding ('"' :: (name.toList ++ quote))
        = trimWhere isPadding (name.toList ++ quote) := rfl
    have hhead : ∀ c, (name.toList ++ quote).head? = some c → isPadding c = false := by
      intro c hc
      cases hname : name.toList with
      | nil => exact absurd (String.toList_injective hname) h.1
      | cons d ds =>
        rw [hname] at hc
        cases hc
        exact hpadding _ (hname ▸ List.mem_cons_self)
    have hend : trimEnd isPadding name.toList = name.toList :=
      trimEnd_eq_self_iff.2 fun c hc => hpadding c (List.mem_of_getLast? hc)
    rw [hopen, trimWhere_of_head hhead]
    rcases hquote with rfl | rfl
    · rw [List.append_nil, hend]
    · rw [trimEnd_concat, if_pos (by decide), hend]
  rw [parameter?, hpieces]
  dsimp only
  rw [htrim, String.ofList_toList]
  rfl

end Link

namespace WrittenLink

variable {l : WrittenLink}

/-- What stands in front of the name of the relation. -/
def front (l : WrittenLink) : List Char :=
  l.uri.toList ++ ['>']

/-- The quote at its end does not matter for a link. -/
theorem ofChars_inside (quote : List Char) (hquote : quote = [] ∨ quote = ['"']) :
    Link.ofChars (l.inside ++ quote)
      = ("url", String.ofList (trimWhere Link.isBracket (cut ';' l.front).1))
        :: Link.parameters (((cut ';' l.front).2.map (Text.pieces ';')).getD []
            ++ ["rel=\"".toList ++ l.relation.toList]) := by
  have hrelation : ';' ∉ l.relation.toList := notMem_relation (by simp)
  have htail : ';' ∉ "rel=\"".toList ++ l.relation.toList ++ quote := by
    rcases hquote with rfl | rfl
    · simp [hrelation]
    · simp [hrelation]
  have heq : l.inside ++ quote
      = l.front ++ ';' :: ("rel=\"".toList ++ l.relation.toList ++ quote) := by
    simp [inside, front]
  have hsame := Link.parameter?_relation l.isName quote hquote
  have hbare := Link.parameter?_relation l.isName [] (.inl rfl)
  rw [List.append_nil] at hbare
  rw [heq, Link.ofChars_append _ htail,
    Link.parameters_append_congr _ (hsame.trans hbare.symm)]

def read (l : WrittenLink) : List (String × String) :=
  Link.ofChars l.inside

theorem map_ofChars_pieces (ls : List WrittenLink) :
    (l.pieces ls).map Link.ofChars = (l :: ls).map read := by
  induction ls generalizing l with
  | nil => rfl
  | cons m ls ih =>
    have hquote : Link.ofChars (l.inside ++ ['"']) = l.read := by
      rw [read, ofChars_inside _ (.inr rfl), ← ofChars_inside _ (.inl rfl), List.append_nil]
    rw [pieces, List.map_cons, List.map_cons, hquote, ih]

/-- A header ends with the name of a relation, but for its quote. -/
theorem exists_relation_suffix (ls : List WrittenLink) :
    ∃ m : WrittenLink, m.relation.toList <:+ insideAll l ls := by
  induction ls generalizing l with
  | nil => exact ⟨l, _, (List.append_assoc _ ('>' :: ';' :: "rel=\"".toList) _).trans rfl⟩
  | cons k ls ih =>
    obtain ⟨m, hm⟩ := ih (l := k)
    refine ⟨m, hm.trans ⟨l.inside ++ ['"', ',', ' ', '<'], ?_⟩⟩
    simp [insideAll]

theorem isPadding_getLast (ls : List WrittenLink) :
    ∀ c, ('<' :: insideAll l ls).getLast? = some c → Link.isPadding c = false := by
  intro c hc
  obtain ⟨m, front, hm⟩ := l.exists_relation_suffix ls
  have hne : m.relation.toList ≠ [] := fun hnil => m.isName.1 (String.toList_injective hnil)
  have hlast := List.getLast?_eq_some_getLast hne
  rw [← hm, ← List.cons_append, List.getLast?_append, hlast, Option.some_or] at hc
  have hnot := m.isName.2 c (List.mem_of_getLast? (hlast.trans hc))
  simp only [List.mem_cons, not_or] at hnot
  simp [Link.isPadding, hnot]

/-- Every link of a header is read for itself, in order. -/
theorem parse_header (ls : List WrittenLink) : Link.parse (header ls) = ls.map read := by
  cases ls with
  | nil => rfl
  | cons l ls =>
    have htrim : trimWhere Link.isPadding (header (l :: ls)).toList = '<' :: insideAll l ls := by
      rw [toList_header, trimWhere_of_head, trimEnd_concat, if_pos (by decide),
        trimEnd_eq_self_iff.2 (isPadding_getLast ls)]
      rintro c hc
      cases hc
      rfl
    obtain ⟨p, ps, hpieces⟩ : ∃ p ps, l.pieces ls = p :: ps := by
      cases ls with
      | nil => exact ⟨_, _, rfl⟩
      | cons m ls => exact ⟨_, _, rfl⟩
    have hfirst : Link.afterSeparator? ('<' :: insideAll l ls) = none := rfl
    have hcut : Link.cutLinks ('<' :: insideAll l ls).length ('<' :: insideAll l ls)
        = ('<' :: p) :: ps := by
      rw [List.length_cons, Link.cutLinks, hfirst]
      dsimp only
      rw [l.cutLinks_insideAll ls (Nat.le_refl _), hpieces]
    rw [Link.parse, htrim]
    dsimp only
    rw [hcut, List.map_cons, Link.ofChars_bracket, ← List.map_cons, ← hpieces,
      l.map_ofChars_pieces ls]

theorem header_singleton (l : WrittenLink) : header [l] = l.text := by simp [header]

/-- The URI of one link, if it has the relation. -/
theorem related_text (relation : String) (l : WrittenLink) : Link.related relation l.text =
    (if Link.last? "rel" l.read = some relation then Link.last? "url" l.read else none).toList := by
  rw [← header_singleton, Link.related, parse_header, List.filterMap_map,
    List.filterMap_eq_flatMap_toList, List.flatMap_singleton]
  rfl

/-- The URIs with a relation are those of each link that is read for itself. -/
theorem related_header (relation : String) (ls : List WrittenLink) :
    Link.related relation (header ls) = ls.flatMap fun l => Link.related relation l.text := by
  rw [Link.related, parse_header, List.filterMap_map, List.filterMap_eq_flatMap_toList]
  exact List.flatMap_congr fun l _ => (l.related_text relation).symm

/-- Whether the URI of a link has no semicolon and does not end with an apostrophe. -/
def IsPlain (l : WrittenLink) : Prop :=
  ';' ∉ l.uri.toList ∧ l.uri.toList.getLast? ≠ some '\''

instance (l : WrittenLink) : Decidable l.IsPlain :=
  inferInstanceAs (Decidable (_ ∧ _))

/-- Without a semicolon, a link is its URI, less apostrophes at its end, and its relation. -/
theorem read_of_notMem (h : ';' ∉ l.uri.toList) :
    l.read = [("url", String.ofList (trimEnd Link.isBracket l.uri.toList)), ("rel", l.relation)] := by
  have hfront : ';' ∉ l.front := by simp [front, h]
  obtain ⟨scheme, authority, rest, hweb⟩ := Url.exists_isWeb l.isAbsolute l.uriChars
  have hhead : ∀ c, l.front.head? = some c → Link.isBracket c = false := by
    intro c hc
    have hhead : l.uri.toList.head? = some c := by
      cases huri : l.uri.toList with
      | nil =>
        rw [hweb.eq] at huri
        exact absurd huri (by simp)
      | cons d ds =>
        rw [front, huri] at hc
        exact hc
    have hlower := hweb.toLower_head hhead
    have hbrackets : ['<', '>', ' ', '\'', '"'].all (·.toLower ≠ 'h') = true := by decide
    by_contra hbracket
    have hmem := Link.mem_of_isBracket (Bool.not_eq_false _ ▸ hbracket)
    exact of_decide_eq_true (List.all_eq_true.1 hbrackets c hmem) hlower
  have hrelation := Link.parameter?_relation l.isName [] (.inl rfl)
  rw [List.append_nil] at hrelation
  rw [read, ← List.append_nil l.inside, ofChars_inside [] (.inl rfl), cut_of_notMem hfront,
    trimWhere_of_head hhead, front, trimEnd_concat, if_pos (by decide), Option.map_none,
    Option.getD_none, List.nil_append, Link.parameters, hrelation]
  rfl

/-- What a link without a semicolon is read as. -/
theorem related_of_notMem (h : ';' ∉ l.uri.toList) (relation : String) :
    Link.related relation l.text =
      if l.relation = relation then [String.ofList (trimEnd Link.isBracket l.uri.toList)]
      else [] := by
  have hrel : Link.last? "rel" l.read = some l.relation := by
    rw [l.read_of_notMem h]
    rfl
  have hurl : Link.last? "url" l.read
      = some (String.ofList (trimEnd Link.isBracket l.uri.toList)) := by
    rw [l.read_of_notMem h]
    rfl
  rw [related_text, hrel, hurl]
  by_cases hrelation : l.relation = relation
  · rw [if_pos hrelation, if_pos (congrArg some hrelation), Option.toList_some]
  · rw [if_neg hrelation, if_neg (fun heq => hrelation (Option.some.inj heq)), Option.toList_none]

/-- The URI is kept to its end exactly when no apostrophe is there. -/
theorem trimEnd_uri_eq_iff :
    trimEnd Link.isBracket l.uri.toList = l.uri.toList ↔ l.uri.toList.getLast? ≠ some '\'' := by
  rw [trimEnd_eq_self_iff]
  constructor
  · intro h hlast
    exact absurd (h _ hlast) (by decide)
  · intro h c hc
    have hbrackets : ['<', '>', ' ', '\'', '"'].all (fun d => Url.isUriChar d → d = '\'') = true := by
      decide
    by_contra hbracket
    have hmem := Link.mem_of_isBracket (Bool.not_eq_false _ ▸ hbracket)
    have hapostrophe := of_decide_eq_true (List.all_eq_true.1 hbrackets c hmem)
      (l.uriChars c (List.mem_of_getLast? hc))
    exact h (hapostrophe ▸ hc)

/-- **A link is read back exactly when it is plain.** -/
theorem related_eq_iff : Link.related l.relation l.text = [l.uri] ↔ l.IsPlain := by
  by_cases hsemicolon : ';' ∈ l.uri.toList
  · refine iff_of_false (fun h => ?_) fun h => h.1 hsemicolon
    rw [related_text] at h
    split at h
    · have hurl : Link.last? "url" l.read = some l.uri := by
        cases hlast : Link.last? "url" l.read with
        | none =>
          rw [hlast] at h
          cases h
        | some u =>
          rw [hlast] at h
          exact congrArg some (List.singleton_inj.1 h)
      rw [Link.last?] at hurl
      obtain ⟨before, after, hsplit, -⟩ := List.lookup_eq_some_iff.1 hurl
      have hmem : ("url", l.uri) ∈ l.read.reverse := by
        rw [hsplit]
        exact List.mem_append_right _ List.mem_cons_self
      exact Link.notMem_of_mem_ofChars (List.mem_reverse.1 hmem) hsemicolon
    · cases h
  · have hofList : ∀ cs : List Char, String.ofList cs = l.uri ↔ cs = l.uri.toList := fun cs =>
      ⟨fun h => by rw [← h, String.toList_ofList], fun h => by rw [h, String.ofList_toList]⟩
    rw [related_of_notMem hsemicolon, if_pos rfl, List.singleton_inj, hofList, trimEnd_uri_eq_iff,
      IsPlain, and_iff_right hsemicolon]

/-- A plain link is read back under its relation only. -/
theorem related_of_isPlain (h : l.IsPlain) (relation : String) :
    Link.related relation l.text = if l.relation = relation then [l.uri] else [] := by
  rw [related_of_notMem h.1, trimEnd_uri_eq_iff.2 h.2, String.ofList_toList]

/-- Plain links are read back as they are. -/
theorem flatMap_related {ls : List WrittenLink} (h : ∀ l ∈ ls, l.IsPlain) (relation : String) :
    (ls.flatMap fun l => Link.related relation l.text)
      = (ls.filter fun l => l.relation = relation).map uri := by
  induction ls with
  | nil => rfl
  | cons l ls ih =>
    obtain ⟨hl, hls⟩ := List.forall_mem_cons.1 h
    rw [List.flatMap_cons, related_of_isPlain hl, ih hls, List.filter_cons]
    by_cases hrelation : l.relation = relation
    · simp [hrelation]
    · simp [hrelation]

/-- The URI of a link against a base: tidied when the base has the same scheme. -/
def seenFrom (l : WrittenLink) (base : String) : String :=
  match Url.split base, Url.split l.uri with
  | .ok b, .ok parts => if b.scheme = parts.scheme then Url.tidied l.uri else l.uri
  | _, _ => l.uri

/-- A URI without a semicolon resolves to what it is seen as. -/
theorem join_eq_seenFrom (h : ';' ∉ l.uri.toList) {base : String} {b : Url.Parts}
    (hb : Url.split base = .ok b) : Url.join base l.uri = .ok (l.seenFrom base) := by
  obtain ⟨parts, hparts, -⟩ := split_of_isAbsolute l.isAbsolute
  rw [join_of_isAbsolute hb l.isAbsolute l.uriChars h hparts, seenFrom, hb, hparts]

/-- A URI is seen as it is when the base has another scheme, or when it is tidy. -/
theorem seenFrom_eq_iff {base : String} {b parts : Url.Parts} (hb : Url.split base = .ok b)
    (hparts : Url.split l.uri = .ok parts) :
    l.seenFrom base = l.uri ↔ b.scheme ≠ parts.scheme ∨ Url.IsTidy l.uri := by
  rw [seenFrom, hb, hparts, ← Url.tidied_eq_self_iff l.isAbsolute l.uriChars]
  dsimp only
  by_cases hscheme : b.scheme = parts.scheme
  · simp [hscheme]
  · simp [hscheme]

end WrittenLink

/-! ### The links of an answer -/

namespace Exchange

open WrittenLink

/-- **Links are read as they are written.** Each link of a header is read for itself, in order, so none
depends on the others. One is read back exactly when its URI has no semicolon and does not end with an
apostrophe. When all are, then the links with a relation are the URIs that were written with it, in
order, resolved against the URL of the request, and that changes a URI only when it has the scheme of
the request and is not tidy: its scheme has capitals, or its query or fragment is empty. -/
theorem links_are_read_as_written (env : Environment) (c : Client) {connection : Connection}
    {r : Response} (hheld : connection.response = some r) {ls : List WrittenLink}
    (hheader : r.headers.get? "Link" = some (header ls)) (relation : String) :
    (links relation).run env (c, connection)
      = ((ls.flatMap fun l => Link.related relation l.text).mapM connection.resolve,
          (c, connection)) ∧
    (∀ l ∈ ls, Link.related l.relation l.text = [l.uri] ↔ l.IsPlain) ∧
    ∀ b, Url.split (connection.url.getD "") = .ok b →
      ((∀ l ∈ ls, l.IsPlain) → (links relation).run env (c, connection)
        = (.ok ((ls.filter fun l => l.relation = relation).map fun l =>
            l.seenFrom (connection.url.getD "")), (c, connection))) ∧
      ((∀ l ∈ ls, l.IsPlain ∧ Url.IsTidy l.uri) → (links relation).run env (c, connection)
        = (.ok ((ls.filter fun l => l.relation = relation).map WrittenLink.uri), (c, connection))) ∧
      ∀ l ∈ ls, ∀ parts, Url.split l.uri = .ok parts →
        (l.seenFrom (connection.url.getD "") = l.uri ↔
          b.scheme ≠ parts.scheme ∨ Url.IsTidy l.uri) := by
  have hrun : (links relation).run env (c, connection)
      = ((ls.flatMap fun l => Link.related relation l.text).mapM connection.resolve,
          (c, connection)) := by
    rw [run_links env c hheld, Response.links, hheader, ← related_header]
    rfl
  refine ⟨hrun, fun l _ => related_eq_iff, fun b hb => ?_⟩
  have hseen : (∀ l ∈ ls, l.IsPlain) → (links relation).run env (c, connection)
      = (.ok ((ls.filter fun l => l.relation = relation).map fun l =>
          l.seenFrom (connection.url.getD "")), (c, connection)) := by
    intro hplain
    rw [hrun, flatMap_related hplain, Prod.mk.injEq, mapM_eq_ok, List.forall₂_map_left_iff,
      List.forall₂_map_right_iff, List.forall₂_same]
    refine ⟨fun l hl => ?_, rfl⟩
    rw [Connection.resolve, join_eq_seenFrom (hplain l (List.mem_filter.1 hl).1).1 hb]
    rfl
  refine ⟨hseen, fun hall => ?_, fun l _ parts hparts => seenFrom_eq_iff hb hparts⟩
  rw [hseen fun l hl => (hall l hl).1]
  refine congrArg (fun uris => (Except.ok uris, (c, connection))) (List.map_congr_left fun l hl => ?_)
  obtain ⟨parts, hparts, -⟩ := split_of_isAbsolute l.isAbsolute
  exact (seenFrom_eq_iff hb hparts).2 (.inr (hall l (List.mem_filter.1 hl).1).2)

end Exchange

/-- A link to a page, with a comma in its query. -/
def WrittenLink.withComma : WrittenLink where
  uri := "https://acme.test/o?from=1,2"
  relation := "next"
  isAbsolute := eq_ok_of_toOption (by decide +kernel)
  uriChars := List.all_eq_true.1 (by decide +kernel)
  isName := by decide +kernel

/-- A link to a page, with a semicolon in its path. -/
def WrittenLink.withSemicolon : WrittenLink where
  uri := "https://acme.test/o;p=2"
  relation := "next"
  isAbsolute := eq_ok_of_toOption (by decide +kernel)
  uriChars := List.all_eq_true.1 (by decide +kernel)
  isName := by decide +kernel

/-- A comma does no harm to a link, but a semicolon does. -/
theorem Exchange.links_are_read_as_written_marks :
    let answer (ls : List WrittenLink) : Response :=
      ⟨200, none, ⟨[("Link", WrittenLink.header ls)]⟩, []⟩
    let connection (ls : List WrittenLink) : Connection :=
      ⟨some (answer ls), some "https://acme.test/x", none⟩
    let env : Environment := ⟨fun _ => .failure "", fun _ => ⟨0, some 0⟩⟩
    let c := Client.ofSession .sample
    (links "next").run env (c, connection [.withComma])
        = (.ok ["https://acme.test/o?from=1,2"], (c, connection [.withComma])) ∧
      Link.related "next" WrittenLink.withSemicolon.text ≠ ["https://acme.test/o;p=2"] ∧
      (links "next").run env (c, connection [.withSemicolon])
        = (.ok ["https://acme.test/o"], (c, connection [.withSemicolon])) := by
  intro answer connection env c
  have hheld : ∀ ls, (connection ls).response = some (answer ls) := fun _ => rfl
  have hname : Headers.sameName "Link" "Link" = true := by decide +kernel
  have hheader : ∀ ls, (answer ls).headers.get? "Link" = some (WrittenLink.header ls) := by
    intro ls
    simp [answer, Headers.get?, hname]
  obtain ⟨b, hb⟩ : ∃ b, Url.split "https://acme.test/x" = .ok b := ⟨_, rfl⟩
  obtain ⟨-, -, hcomma⟩ := links_are_read_as_written env c (hheld _) (hheader [.withComma]) "next"
  obtain ⟨hrun, hexact, -⟩ :=
    links_are_read_as_written env c (hheld _) (hheader [.withSemicolon]) "next"
  have hplain : ∀ l ∈ [WrittenLink.withComma], l.IsPlain ∧ Url.IsTidy l.uri :=
    List.forall_mem_singleton.2 ⟨by decide +kernel, by decide +kernel, by decide +kernel,
      by decide +kernel⟩
  refine ⟨(hcomma b hb).2.1 hplain, fun hread => ?_, hrun.trans ?_⟩
  · exact absurd ((hexact .withSemicolon List.mem_cons_self).1 hread).1 (by decide +kernel)
  · have hresolved : (([WrittenLink.withSemicolon].flatMap fun l =>
        Link.related "next" l.text).mapM (connection [.withSemicolon]).resolve)
          = .ok ["https://acme.test/o"] := eq_ok_of_toOption (by decide +kernel)
    rw [hresolved]

end AcmeClient
