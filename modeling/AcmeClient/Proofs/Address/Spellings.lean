import AcmeClient.Proofs.Address.Parts

/-!
# The spellings of addresses

Which texts spell which address is said here by their form alone, and the reader of addresses is
measured by it:

* `SpellsGroups` — eight groups, or fewer with a gap for the zero groups that are left out;
* `Spells` — the texts of an address;
* `spellsGroups_iff` — groups are spelled exactly by the texts whose parts make them;
* `parseChars?_eq_some_iff` — an address is read exactly from its spellings.
-/

namespace AcmeClient.IpAddress

open Number Text

/-! ### Spellings -/

/-- Whether fields spell groups: each field is a group, but the last one may be a short address, which
is two groups. -/
inductive Fields : List (List Char) → List Nat → Prop where
  | groups {fs gs} (h : List.Forall₂ IsGroup fs gs) : Fields fs gs
  | dotted {fs gs last n} (h : List.Forall₂ IsGroup fs gs) (hlast : IsDotted last n) :
      Fields (fs ++ [last]) (gs ++ [n / 65536, n % 65536])

/-- Whether characters spell eight groups, by all of them between colons, or by some of them with two
colons where at least one zero is left out. -/
inductive SpellsGroups : List Char → List Nat → Prop where
  | full {fs gs} (h : Fields fs gs) (hcount : gs.length = 8) : SpellsGroups (joined ':' fs) gs
  | gap {hfs hs lfs ls} (high : List.Forall₂ IsGroup hfs hs) (low : Fields lfs ls)
      (hcount : hs.length + ls.length < 8) :
      SpellsGroups (joined ':' hfs ++ ':' :: ':' :: joined ':' lfs)
        (hs ++ List.replicate (8 - (hs.length + ls.length)) 0 ++ ls)

/-- Whether characters spell an address. -/
inductive Spells : List Char → IpAddress → Prop where
  | short {cs n} (h : IsDotted cs n) : Spells cs (.v4 n)
  | long {cs gs} (h : SpellsGroups cs gs) : Spells cs (.v6 (ofDigitsBase 65536 gs) none)
  | zoned {cs gs zone} (h : SpellsGroups cs gs) (hne : zone ≠ [])
      (hzone : ∀ c ∈ zone, c ≠ '%' ∧ c ≠ '/') :
      Spells (cs ++ '%' :: zone) (.v6 (ofDigitsBase 65536 gs) (some (String.ofList zone)))

/-! ### The text of parts -/

/-- The parts of joined fields are the fields. -/
theorem pieces_joined_outer {c : Char} {fs : List (List Char)} (h : ∀ f ∈ fs, c ∉ f) :
    pieces c (joined c fs) = outer fs := by
  rw [outer]
  split
  next hnil => rw [hnil]; rfl
  next hne => exact pieces_joined hne h

/-- Two sides with a gap between them are joined with two colons. -/
theorem joined_gap (c : Char) (hps lps : List (List Char)) :
    joined c (outer hps ++ [] :: outer lps) = joined c hps ++ c :: c :: joined c lps := by
  obtain ⟨p, ps, hcons⟩ := List.exists_cons_of_ne_nil (outer_ne_nil lps)
  rw [joined_append (outer_ne_nil hps) (List.cons_ne_nil _ _), joined_outer, ← joined_outer c lps, hcons]
  rfl

theorem colon_notMem_of_groups {fs : List (List Char)} {gs : List Nat}
    (h : List.Forall₂ IsGroup fs gs) : ∀ f ∈ fs, ':' ∉ f :=
  forall_mem_of_forall₂ h.flip fun _ _ hg hmem => by cases hg.chars _ hmem

theorem point_notMem_of_groups {fs : List (List Char)} {gs : List Nat}
    (h : List.Forall₂ IsGroup fs gs) : ∀ f ∈ fs, '.' ∉ f :=
  forall_mem_of_forall₂ h.flip fun _ _ hg hmem => by cases hg.chars _ hmem

theorem colon_notMem_of_isDotted {f : List Char} {n : Nat} (h : IsDotted f n) : ':' ∉ f := by
  intro hmem
  rcases h.chars.2 _ hmem with heq | hdigit
  · cases heq
  · cases hdigit

/-- Without a short address at the end, the parts are the pieces between colons. -/
theorem parts?_plain {cs : List Char} (hlong : 3 ≤ (pieces ':' cs).length)
    (hlast : ∀ last ∈ (pieces ':' cs).getLast?, '.' ∉ last) : parts? cs = some (pieces ':' cs) := by
  obtain ⟨last, hl⟩ := Option.ne_none_iff_exists'.1
    (mt List.getLast?_eq_none_iff.1 (pieces_ne_nil ':' cs))
  simp only [parts?, if_neg (Nat.not_lt.2 hlong), hl, if_neg (hlast last hl)]

/-- A short address at the end makes two parts. -/
theorem parts?_dotted {cs last : List Char} {init : List (List Char)} {n : Nat}
    (hpieces : pieces ':' cs = init ++ [last]) (hlong : 2 ≤ init.length) (hn : IsDotted last n) :
    parts? cs = some (init ++ [hexOfWidth 4 (n / 65536), hexOfWidth 4 (n % 65536)]) := by
  have hmany : ¬ (init ++ [last]).length < 3 := by
    rw [List.length_append, List.length_singleton]
    omega
  simp only [parts?, hpieces, if_neg hmany, List.getLast?_concat, if_pos hn.chars.1,
    parseV4?_eq_some_iff.2 hn, List.dropLast_concat]
  rfl

/-- Parts are the pieces between colons, or these with a short address at the end made two parts. -/
theorem parts?_cases {cs : List Char} {ps : List (List Char)} (h : parts? cs = some ps) :
    1 < (pieces ':' cs).length ∧ (ps = pieces ':' cs ∨ ∃ init last n, pieces ':' cs = init ++ [last] ∧
      IsDotted last n ∧ ps = init ++ [hexOfWidth 4 (n / 65536), hexOfWidth 4 (n % 65536)]) := by
  rw [parts?] at h
  split at h
  next => cases h
  next hlong =>
    refine ⟨by omega, ?_⟩
    split at h
    next => cases h
    next last hlast =>
      split at h
      next =>
        obtain ⟨n, hn, h⟩ := Option.bind_eq_some_iff.1 h
        refine .inr ⟨_, last, n, ?_, parseV4?_eq_some_iff.1 hn, (Option.some.inj h).symm⟩
        obtain ⟨init, hinit⟩ := List.getLast?_eq_some_iff.1 hlast
        rw [hinit, List.dropLast_concat]
      next => exact .inl (Option.some.inj h).symm

/-- The halves of a short address are groups. -/
theorem halves_of_isDotted {last : List Char} {n : Nat} (h : IsDotted last n) :
    List.Forall₂ IsGroup [hexOfWidth 4 (n / 65536), hexOfWidth 4 (n % 65536)]
      [n / 65536, n % 65536] := by
  have hlt := h.lt
  exact .cons (isGroup_hexOfWidth (by omega)) (.cons (isGroup_hexOfWidth (by omega)) .nil)

/-- The pieces of fields, the last of which is a short address. -/
theorem pieces_dotted {fs : List (List Char)} {gs : List Nat} {last : List Char} {n : Nat}
    (h : List.Forall₂ IsGroup fs gs) (hlast : IsDotted last n) :
    pieces ':' (joined ':' (fs ++ [last])) = fs ++ [last] := by
  refine pieces_joined (List.append_ne_nil_of_right_ne_nil _ (List.cons_ne_nil _ _)) ?_
  exact List.forall_mem_append.2 ⟨colon_notMem_of_groups h,
    List.forall_mem_singleton.2 (colon_notMem_of_isDotted hlast)⟩

/-- The pieces of two sides with a gap between them. -/
theorem pieces_gap {fs : List (List Char)} {gs : List Nat} (h : List.Forall₂ IsGroup fs gs)
    (rest : List Char) :
    pieces ':' (joined ':' fs ++ ':' :: ':' :: rest) = outer fs ++ [] :: pieces ':' rest := by
  have hrest : pieces ':' (':' :: rest) = [] :: pieces ':' rest := by
    rw [pieces, if_pos rfl]
  rw [pieces_append_cons, pieces_joined_outer (colon_notMem_of_groups h), hrest]

theorem point_notMem_outer {fs : List (List Char)} {gs : List Nat}
    (h : List.Forall₂ IsGroup fs gs) : ∀ f ∈ outer fs, '.' ∉ f := by
  rw [outer]
  split
  next => exact List.forall_mem_singleton.2 List.not_mem_nil
  next => exact point_notMem_of_groups h

/-- What spells groups has parts that make them. -/
theorem exists_parts_of_spellsGroups {cs : List Char} {gs : List Nat} (h : SpellsGroups cs gs) :
    ∃ ps, parts? cs = some ps ∧ Parts ps gs := by
  cases h with
  | @full fs gs h hcount =>
    cases h with
    | groups h =>
      have hne : fs ≠ [] := List.ne_nil_of_length_pos (by rw [h.length_eq]; omega)
      have hpieces := pieces_joined hne (colon_notMem_of_groups h)
      refine ⟨fs, ?_, .full h hcount⟩
      rw [parts?_plain, hpieces]
      · rw [hpieces, h.length_eq]
        omega
      · intro last hlast
        rw [hpieces] at hlast
        exact point_notMem_of_groups h last (List.mem_of_getLast? hlast)
    | @dotted fs gs last n h hlast =>
      rw [List.length_append] at hcount
      have hlong : 2 ≤ fs.length := by
        rw [h.length_eq]
        simp only [List.length_cons, List.length_nil] at hcount
        omega
      refine ⟨_, parts?_dotted (pieces_dotted h hlast) hlong hlast,
        .full (groups_append h (halves_of_isDotted hlast)) ?_⟩
      rw [List.length_append]
      exact hcount
  | @gap hfs hs lfs ls high low hcount =>
    cases low with
    | groups low =>
      have hpieces : pieces ':' (joined ':' hfs ++ ':' :: ':' :: joined ':' lfs)
          = outer hfs ++ [] :: outer lfs := by
        rw [pieces_gap high, pieces_joined_outer (colon_notMem_of_groups low)]
      refine ⟨outer hfs ++ [] :: outer lfs, ?_, .gap high low hcount⟩
      rw [parts?_plain, hpieces]
      · rw [hpieces, List.length_append, List.length_cons, length_outer, length_outer]
        omega
      · intro last hlast
        rw [hpieces] at hlast
        have hall : ∀ f ∈ outer hfs ++ [] :: outer lfs, '.' ∉ f :=
          List.forall_mem_append.2 ⟨point_notMem_outer high,
            List.forall_mem_cons.2 ⟨nofun, point_notMem_outer low⟩⟩
        exact hall last (List.mem_of_getLast? hlast)
    | @dotted lfs ls last n low hlast =>
      have hpieces : pieces ':' (joined ':' hfs ++ ':' :: ':' :: joined ':' (lfs ++ [last]))
          = (outer hfs ++ [] :: lfs) ++ [last] := by
        rw [pieces_gap high, pieces_dotted low hlast, List.append_assoc, List.cons_append]
      have hlong : 2 ≤ (outer hfs ++ [] :: lfs).length := by
        rw [List.length_append, List.length_cons, length_outer]
        omega
      have hboth := groups_append low (halves_of_isDotted hlast)
      have hparts := Parts.gap high hboth hcount
      rw [outer_of_ne_nil (List.append_ne_nil_of_right_ne_nil _ (List.cons_ne_nil _ _))] at hparts
      refine ⟨_, parts?_dotted hpieces hlong hlast, ?_⟩
      rwa [List.append_assoc, List.cons_append]

/-- Where two parts at the end are not empty, a gap lies in front of them. -/
theorem gap_before_two {A B init : List (List Char)} {p q : List Char} (hp : p ≠ []) (hq : q ≠ [])
    (h : A ++ [] :: B = init ++ [p, q]) : ∃ C, B = C ++ [p, q] ∧ init = A ++ [] :: C := by
  rcases List.append_eq_append_iff.1 h with ⟨as, rfl, hB⟩ | ⟨bs, rfl, hB⟩
  · cases as with
    | nil => exact absurd (List.cons.inj hB).1.symm hp
    | cons a as =>
      obtain ⟨rfl, rfl⟩ := List.cons.inj hB
      exact ⟨as, rfl, rfl⟩
  · match bs, hB with
    | [], hB => exact absurd (List.cons.inj hB).1 hp
    | [_], hB => exact absurd (List.cons.inj (List.cons.inj hB).2).1 hq
    | _ :: _ :: bs, hB =>
      exact absurd (List.cons.inj (List.cons.inj hB).2).2.symm
        (List.append_ne_nil_of_right_ne_nil bs (List.cons_ne_nil _ _))

/-- Groups that end in the halves of a short address. -/
theorem groups_before_halves {init : List (List Char)} {gs : List Nat} {last : List Char} {n : Nat}
    (hlast : IsDotted last n)
    (h : List.Forall₂ IsGroup (init ++ [hexOfWidth 4 (n / 65536), hexOfWidth 4 (n % 65536)]) gs) :
    ∃ front, gs = front ++ [n / 65536, n % 65536] ∧ List.Forall₂ IsGroup init front := by
  induction init generalizing gs with
  | nil =>
    have hhalves := halves_of_isDotted hlast
    refine ⟨[], ?_, .nil⟩
    have hunique : Relator.RightUnique IsGroup := fun _ _ _ => IsGroup.unique
    exact hunique.forall₂ h hhalves
  | cons f init ih =>
    rw [List.cons_append, List.forall₂_cons_left_iff] at h
    obtain ⟨g, gs, hf, hrest, rfl⟩ := h
    obtain ⟨front, rfl, hinit⟩ := ih hrest
    exact ⟨g :: front, rfl, .cons hf hinit⟩

/-- Parts that make groups come from what spells them. -/
theorem spellsGroups_of_parts {cs : List Char} {ps : List (List Char)} {gs : List Nat}
    (hps : parts? cs = some ps) (h : Parts ps gs) : SpellsGroups cs gs := by
  obtain ⟨-, hplain | ⟨init, last, n, hpieces, hlast, rfl⟩⟩ := parts?_cases hps
  · have hcs : cs = joined ':' ps := by rw [hplain, joined_pieces]
    rw [hcs]
    cases h with
    | full h hcount => exact .full (.groups h) hcount
    | gap high low hcount =>
      rw [joined_gap]
      exact .gap high (.groups low) hcount
  · have hcs : cs = joined ':' (init ++ [last]) := by rw [← hpieces, joined_pieces]
    rw [hcs]
    generalize hps' : init ++ [hexOfWidth 4 (n / 65536), hexOfWidth 4 (n % 65536)] = ps at h
    cases h with
    | full h hcount =>
      rw [← hps'] at h
      obtain ⟨front, rfl, hfront⟩ := groups_before_halves hlast h
      exact .full (.dotted hfront hlast) hcount
    | @gap hfs hs lfs ls high low hcount =>
      have hwidth (m : Nat) : hexOfWidth 4 m ≠ [] :=
        List.ne_nil_of_length_pos (by rw [length_hexOfWidth]; decide)
      obtain ⟨C, hlow, rfl⟩ := gap_before_two (hwidth _) (hwidth _) hps'.symm
      have hlfs : lfs = C ++ [hexOfWidth 4 (n / 65536), hexOfWidth 4 (n % 65536)] := by
        rw [← hlow]
        refine (outer_of_ne_nil ?_).symm
        rintro rfl
        -- one empty part is not two parts
        have hlength := congrArg List.length hlow
        rw [length_outer, List.length_append, List.length_cons, List.length_singleton] at hlength
        exact absurd hlength (by simp)
      rw [hlfs] at low
      obtain ⟨front, rfl, hfront⟩ := groups_before_halves hlast low
      have hlastOuter : outer (C ++ [last]) = C ++ [last] :=
        outer_of_ne_nil (List.append_ne_nil_of_right_ne_nil _ (List.cons_ne_nil _ _))
      have hjoined : joined ':' (outer hfs ++ [] :: C ++ [last])
          = joined ':' hfs ++ ':' :: ':' :: joined ':' (C ++ [last]) := by
        rw [← joined_gap, hlastOuter, List.append_assoc, List.cons_append]
      rw [hjoined]
      exact .gap high (.dotted hfront hlast) hcount

/-- Groups are spelled exactly by what has parts that make them. -/
theorem spellsGroups_iff {cs : List Char} {gs : List Nat} :
    SpellsGroups cs gs ↔ ∃ ps, parts? cs = some ps ∧ Parts ps gs :=
  ⟨exists_parts_of_spellsGroups, fun ⟨_, hps, h⟩ => spellsGroups_of_parts hps h⟩

theorem parseGroups?_eq_some_iff {cs : List Char} {n : Nat} :
    parseGroups? cs = some n ↔ ∃ gs, SpellsGroups cs gs ∧ n = ofDigitsBase 65536 gs := by
  simp only [parseGroups?_eq, Option.bind_eq_some_iff, valueOf?_eq_some_iff, spellsGroups_iff]
  constructor
  · rintro ⟨ps, hps, gs, h, hn⟩
    exact ⟨gs, ⟨ps, hps, h⟩, hn⟩
  · rintro ⟨gs, ⟨ps, hps, h⟩, hn⟩
    exact ⟨ps, hps, gs, h, hn⟩

/-! ### Whole addresses -/

/-- The characters of fields are digits, and points in a short address. -/
theorem Fields.chars {fs : List (List Char)} {gs : List Nat} (h : Fields fs gs) :
    ∀ f ∈ fs, ∀ c ∈ f, c = '.' ∨ (hexValue c).isSome = true := by
  have hgroups {fs : List (List Char)} {gs : List Nat} (h : List.Forall₂ IsGroup fs gs) :
      ∀ f ∈ fs, ∀ c ∈ f, c = '.' ∨ (hexValue c).isSome = true :=
    forall_mem_of_forall₂ h.flip fun _ _ hg c hc => .inr (hg.chars c hc)
  cases h with
  | groups h => exact hgroups h
  | dotted h hlast =>
    refine List.forall_mem_append.2 ⟨hgroups h, List.forall_mem_singleton.2 fun c hc => ?_⟩
    refine (hlast.chars.2 c hc).imp_right fun hdigit => ?_
    rw [isDigit] at hdigit
    rw [hexValue, if_pos hdigit]
    rfl

/-- What spells groups has a colon, and neither a percent sign nor a slash. -/
theorem SpellsGroups.chars {cs : List Char} {gs : List Nat} (h : SpellsGroups cs gs) :
    ':' ∈ cs ∧ ∀ c ∈ cs, c ≠ '%' ∧ c ≠ '/' := by
  constructor
  · obtain ⟨ps, hps, -⟩ := spellsGroups_iff.1 h
    have hlong := (parts?_cases hps).1
    by_contra hnone
    rw [pieces_of_notMem hnone] at hlong
    exact absurd hlong (Nat.lt_irrefl 1)
  · have hfield {c : Char} (hc : c = '.' ∨ (hexValue c).isSome = true) : c ≠ '%' ∧ c ≠ '/' := by
      constructor
      · rintro rfl
        exact absurd hc (by decide)
      · rintro rfl
        exact absurd hc (by decide)
    have hjoined {fs : List (List Char)} {gs : List Nat} (h : Fields fs gs) :
        ∀ c ∈ joined ':' fs, c ≠ '%' ∧ c ≠ '/' := by
      intro c hc
      rcases mem_joined hc with rfl | ⟨f, hf, hc⟩
      · decide
      · exact hfield (h.chars f hf c hc)
    cases h with
    | full h _ => exact hjoined h
    | gap high low _ =>
      exact List.forall_mem_append.2 ⟨hjoined (.groups high),
        List.forall_mem_cons.2 ⟨by decide, List.forall_mem_cons.2 ⟨by decide, hjoined low⟩⟩⟩

/-- A long address is read from groups, and from groups with a zone behind them. -/
theorem spells_of_parseV6? {cs : List Char} {a : IpAddress} (h : parseV6? cs = some a)
    (hslash : '/' ∉ cs) : Spells cs a := by
  obtain ⟨hnone, hcut⟩ | ⟨body, zone, -, rfl, hcut⟩ := cut_cases '%' cs
  · rw [parseV6?, hcut] at h
    obtain ⟨n, hn, rfl⟩ := Option.map_eq_some_iff.1 h
    obtain ⟨gs, hgs, rfl⟩ := parseGroups?_eq_some_iff.1 hn
    exact .long hgs
  · rw [parseV6?, hcut] at h
    dsimp only at h
    split at h
    next => cases h
    next hzone =>
      obtain ⟨hne, hpercent⟩ := not_or.1 hzone
      obtain ⟨n, hn, rfl⟩ := Option.map_eq_some_iff.1 h
      obtain ⟨gs, hgs, rfl⟩ := parseGroups?_eq_some_iff.1 hn
      refine .zoned hgs hne fun c hc => ⟨fun heq => hpercent (heq ▸ hc), fun heq => hslash ?_⟩
      exact heq ▸ List.mem_append_right _ (List.mem_cons_of_mem _ hc)

/-- A long address is no short one, as it has colons. -/
theorem parseChars?_of_colon {cs : List Char} (hcolon : ':' ∈ cs) (hslash : '/' ∉ cs) :
    parseChars? cs = parseV6? cs := by
  have hnone : parseV4? cs = none := by
    cases hn : parseV4? cs with
    | none => rfl
    | some n => exact absurd hcolon (colon_notMem_of_isDotted (parseV4?_eq_some_iff.1 hn))
  rw [parseChars?, if_neg hslash, hnone]

/-- An address is read from its spellings, and from nothing else. -/
theorem parseChars?_eq_some_iff {cs : List Char} {a : IpAddress} :
    parseChars? cs = some a ↔ Spells cs a := by
  constructor
  · intro h
    rw [parseChars?] at h
    split at h
    next => cases h
    next hslash =>
      split at h
      next n hn =>
        obtain rfl := Option.some.inj h
        exact .short (parseV4?_eq_some_iff.1 hn)
      next => exact spells_of_parseV6? h hslash
  · intro h
    cases h with
    | @short cs n h =>
      have hslash : '/' ∉ cs := fun hmem => absurd (h.chars.2 _ hmem) (by decide)
      rw [parseChars?, if_neg hslash, parseV4?_eq_some_iff.2 h]
    | @long cs gs h =>
      obtain ⟨hcolon, hmarks⟩ := h.chars
      have hpercent : '%' ∉ cs := fun hmem => (hmarks _ hmem).1 rfl
      have hslash : '/' ∉ cs := fun hmem => (hmarks _ hmem).2 rfl
      rw [parseChars?_of_colon hcolon hslash, parseV6?, cut_of_notMem hpercent]
      simp only [parseGroups?_eq_some_iff.2 ⟨gs, h, rfl⟩, Option.map_some]
    | @zoned cs gs zone h hne hzone =>
      obtain ⟨hcolon, hmarks⟩ := h.chars
      have hpercent : '%' ∉ cs := fun hmem => (hmarks _ hmem).1 rfl
      have hslash : '/' ∉ cs ++ '%' :: zone := by
        intro hmem
        rcases List.mem_append.1 hmem with hmem | hmem
        · exact (hmarks _ hmem).2 rfl
        · rcases List.mem_cons.1 hmem with heq | hmem
          · cases heq
          · exact (hzone _ hmem).2 rfl
      have hmarked : ¬ (zone = [] ∨ '%' ∈ zone) :=
        not_or.2 ⟨hne, fun hmem => (hzone _ hmem).1 rfl⟩
      rw [parseChars?_of_colon (List.mem_append_left _ hcolon) hslash, parseV6?,
        cut_append hpercent]
      simp only [if_neg hmarked, parseGroups?_eq_some_iff.2 ⟨gs, h, rfl⟩, Option.map_some]

end AcmeClient.IpAddress
