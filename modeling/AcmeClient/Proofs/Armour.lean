import AcmeClient.Asn1.Pem
import AcmeClient.Proofs.PaddedBase64
import Mathlib.Data.List.Chain

/-!
# Armoured blocks are read back

The marks of a block begin with a hyphen, and neither a label nor base64 has one, so each mark is
found where it stands. A body without empty lines has no headers, and white space in it does not
count:

* `Pem.IsFolded` and `lines_of_isFolded` — lines of 64 characters, which are those that are written;
* `Pem.IsBlock` and `isBlock_iff` — the text of a block, with any base64 in it;
* `until?_append`, `until?_eq_none` — a mark is found behind octets without its first octet, and
  only where it stands;
* `Pem.IsSpread` — base64 in lines of any length, with any white space;
* `Pem.IsArmour` — the text of a block with any layout, which what is written is one of;
* `frame?_armoured` — the first block of a text, and what follows it;
* `blocks?_of_areBlocks`, `blocks?_of_isArmour` — all blocks of a text that consists of blocks, and
  the one block of a text with any layout.
-/

namespace AcmeClient.Asn1.Pem

open Text

/-! ### Texts of blocks -/

/-- Whether lines are characters that are folded: all but the last one have 64 characters, and the
last one at most as many. -/
inductive IsFolded : List Char → List (List Char) → Prop where
  | nil : IsFolded [] []
  | last {l : List Char} : l ≠ [] → l.length ≤ 64 → IsFolded l [l]
  | full {l cs : List Char} {ls : List (List Char)} : l.length = 64 → IsFolded cs ls →
      IsFolded (l ++ cs) (l :: ls)

/-- Whether a text is a block: a marker with a label, base64 in lines of 64 characters, and the
other marker, each line with a line end. -/
structure IsBlock (label : String) (cs : List Char) (text : String) : Prop where
  body : ∀ c ∈ cs, c ∈ Base64.alphabet ∨ c = '='
  folded : ∃ ls, IsFolded cs ls ∧ text = "-----BEGIN " ++ label ++ "-----\n"
    ++ String.join (ls.map fun l => String.ofList l ++ "\n") ++ "-----END " ++ label ++ "-----\n"

section Folding

variable {cs : List Char} {ls : List (List Char)}

theorem lines_nil (size : Nat) : lines size [] = [] := by
  rw [lines, dif_pos (.inl rfl)]

theorem lines_of_ne_nil {size : Nat} (hsize : 0 < size) (hcs : cs ≠ []) :
    lines size cs = cs.take size ++ '\n' :: lines size (cs.drop size) := by
  have hlength : 0 < cs.length := List.length_pos_iff.2 hcs
  rw [lines, dif_neg (by omega)]

/-- Folded characters are written as their lines. -/
theorem lines_of_isFolded (h : IsFolded cs ls) : lines 64 cs = ls.flatMap (· ++ ['\n']) := by
  induction h with
  | nil => exact lines_nil 64
  | @last l hne hle =>
    rw [lines_of_ne_nil (by decide) hne, List.take_of_length_le hle, List.drop_of_length_le hle,
      lines_nil]
    simp
  | @full l cs ls hlength _ ih =>
    have hne : l ++ cs ≠ [] := by
      intro hnil
      rw [(List.append_eq_nil_iff.1 hnil).1] at hlength
      cases hlength
    rw [lines_of_ne_nil (by decide) hne, List.take_left' hlength, List.drop_left' hlength, ih]
    simp

theorem exists_isFolded (cs : List Char) : ∃ ls, IsFolded cs ls := by
  induction hn : cs.length using Nat.strongRecOn generalizing cs with
  | ind n ih =>
    by_cases hnil : cs = []
    · exact ⟨[], hnil ▸ .nil⟩
    by_cases hle : cs.length ≤ 64
    · exact ⟨[cs], .last hnil hle⟩
    · have hlength : (cs.take 64).length = 64 := by
        rw [List.length_take]
        omega
      obtain ⟨ls, hls⟩ := ih (cs.drop 64).length (by rw [List.length_drop]; omega) (cs.drop 64) rfl
      have hfull := IsFolded.full hlength hls
      rw [List.take_append_drop] at hfull
      exact ⟨_, hfull⟩

theorem flatten_of_isFolded (h : IsFolded cs ls) : ls.flatten = cs := by
  induction h with
  | nil => rfl
  | last _ _ => simp
  | full _ _ ih => rw [List.flatten_cons, ih]

theorem mem_of_isFolded (h : IsFolded cs ls) {l : List Char} {c : Char} (hl : l ∈ ls) (hc : c ∈ l) :
    c ∈ cs := by
  rw [← flatten_of_isFolded h]
  exact List.mem_flatten_of_mem hl hc

theorem ne_nil_of_isFolded (h : IsFolded cs ls) : ∀ l ∈ ls, l ≠ [] := by
  induction h with
  | nil => exact nofun
  | last hne _ => simpa using hne
  | full hlength _ ih =>
    refine List.forall_mem_cons.2 ⟨fun hnil => ?_, ih⟩
    rw [hnil] at hlength
    cases hlength

/-- A text is a block exactly when it is written for its base64. -/
theorem isBlock_iff {label text : String} : IsBlock label cs text ↔
    (∀ c ∈ cs, c ∈ Base64.alphabet ∨ c = '=') ∧ text = "-----BEGIN " ++ label ++ "-----\n"
      ++ String.ofList (lines 64 cs) ++ "-----END " ++ label ++ "-----\n" := by
  have hjoin : ∀ {ls}, IsFolded cs ls →
      String.join (ls.map fun l => String.ofList l ++ "\n") = String.ofList (lines 64 cs) := by
    intro ls hls
    refine String.toList_injective ?_
    simp [lines_of_isFolded hls, List.flatMap_map]
  constructor
  · rintro ⟨hbody, ls, hls, rfl⟩
    exact ⟨hbody, by rw [hjoin hls]⟩
  · rintro ⟨hbody, rfl⟩
    obtain ⟨ls, hls⟩ := exists_isFolded cs
    exact ⟨hbody, ls, hls, by rw [hjoin hls]⟩

/-- What is written for octets is the block of their base64. -/
theorem isBlock_block (label : String) (bs : List UInt8) :
    IsBlock label (Base64.encodePadded bs).toList (block label bs) :=
  isBlock_iff.2 ⟨Base64.mem_alphabet_of_isPadded (Base64.isPadded_encodePadded bs), rfl⟩

theorem eq_block_of_isBlock {label text : String} {bs : List UInt8} (h : IsBlock label cs text)
    (hcs : Base64.IsPadded bs cs) : text = block label bs := by
  obtain rfl := Base64.isPadded_iff.1 hcs
  exact (isBlock_iff.1 h).2

end Folding

/-! ### Marks -/

section Marks

variable {m : UInt8} {mark : List UInt8}

/-- Octets without the first one of a mark are passed over. -/
theorem search?_append {before : List UInt8} (h : m ∉ before) (passed rest : List UInt8) :
    search? (m :: mark) (m :: mark) passed (before ++ rest)
      = search? (m :: mark) (m :: mark) (before.reverse ++ passed) rest := by
  induction before generalizing passed with
  | nil => rfl
  | cons b before ih =>
    obtain ⟨hb, hbefore⟩ := not_or.1 (mt List.mem_cons.2 h)
    rw [List.cons_append, search?, if_neg (Ne.symm hb), ih hbefore, List.reverse_cons,
      List.append_assoc, List.singleton_append]

/-- The mark ends where its last octet stands. -/
theorem search?_mark (mark awaited passed rest : List UInt8) :
    search? mark awaited passed (awaited ++ rest)
      = some (((awaited.reverse ++ passed).drop mark.length).reverse, rest) := by
  induction awaited generalizing passed with
  | nil =>
    cases rest with
    | nil => rfl
    | cons b rest => rfl
  | cons a awaited ih =>
    rw [List.cons_append, search?, if_pos rfl, ih, List.reverse_cons, List.append_assoc,
      List.singleton_append]

/-- A mark is found behind octets without its first one. -/
theorem until?_append {before : List UInt8} (h : m ∉ before) (mark rest : List UInt8) :
    until? (m :: mark) (before ++ (m :: mark ++ rest)) = some (before, rest) := by
  rw [until?, search?_append h, search?_mark, List.append_nil, List.drop_left' (by simp),
    List.reverse_reverse]

/-- What is found stands in the octets: a part of the mark has been passed, and the other part is
awaited. -/
theorem isInfix_of_search? {mark awaited passed bs : List UInt8} {r : List UInt8 × List UInt8}
    (done : List UInt8) (hmark : mark = done ++ awaited) (hdone : done <:+ passed.reverse)
    (h : search? mark awaited passed bs = some r) : mark <:+: passed.reverse ++ bs := by
  induction bs generalizing done awaited passed with
  | nil =>
    rw [search?] at h
    split at h
    next hnil =>
      rw [hmark, hnil, List.append_nil, List.append_nil]
      exact hdone.isInfix
    · cases h
  | cons b bs ih =>
    cases awaited with
    | nil =>
      rw [hmark, List.append_nil]
      exact hdone.isInfix.trans (List.prefix_append _ _).isInfix
    | cons a more =>
      rw [search?] at h
      have hpassed : (b :: passed).reverse ++ bs = passed.reverse ++ b :: bs := by simp
      rw [← hpassed]
      split at h
      next hb =>
        refine ih (done ++ [a]) (by simpa using hmark) ?_ h
        rw [List.reverse_cons, hb]
        exact (List.suffix_append_self_iff).2 hdone
      · exact ih [] rfl (List.nil_suffix) h

/-- A mark is not found where it does not stand. -/
theorem until?_eq_none {mark bs : List UInt8} (h : ¬mark <:+: bs) : until? mark bs = none := by
  cases hfound : until? mark bs with
  | none => rfl
  | some r => exact absurd (isInfix_of_search? [] rfl List.nil_suffix hfound) h

end Marks

/-! ### ASCII -/

theorem ascii_append (s t : String) : ascii (s ++ t) = ascii s ++ ascii t := by
  simp [ascii]

theorem ascii_join (ts : List String) : ascii (String.join ts) = ts.flatMap ascii := by
  rw [ascii, String.toList_join, List.map_flatMap]
  rfl

theorem isAscii_of_all {s : String} (h : s.toList.all (·.toNat < 128) = true) :
    ∀ c ∈ s.toList, c.toNat < 128 :=
  fun c hc => of_decide_eq_true (List.all_eq_true.1 h c hc)

theorem encode_eq_ascii {s : String} (h : ∀ c ∈ s.toList, c.toNat < 128) :
    Utf8.encode s = ascii s :=
  Utf8.encode_of_ascii h

theorem decode_ascii {s : String} (h : ∀ c ∈ s.toList, c.toNat < 128) :
    Utf8.decode (ascii s) = .ok s := by
  rw [← encode_eq_ascii h, Utf8.decode_encode]

/-- The characters of padded base64 are ASCII, and no hyphens or blanks. -/
theorem plain_of_mem_body {c : Char} (h : c ∈ Base64.alphabet ∨ c = '=') :
    c.toNat < 128 ∧ isSpace c = false ∧ UInt8.ofNat c.toNat ∉ [45, 32, 9, 10, 13] := by
  have all : ('=' :: Base64.alphabet).all (fun c => c.toNat < 128 ∧ isSpace c = false ∧
      UInt8.ofNat c.toNat ∉ ([45, 32, 9, 10, 13] : List UInt8)) = true := by decide +kernel
  refine of_decide_eq_true (List.all_eq_true.1 all c ?_)
  rcases h with h | rfl
  · exact List.mem_cons_of_mem _ h
  · exact List.mem_cons_self

/-! ### Layouts -/

def whites : List Char :=
  [' ', '\t', '\n', '\x0b', '\x0c', '\r']

/-- Whether a text is characters of base64 with white space anywhere, but without an empty line. -/
structure IsSpread (cs body : List Char) : Prop where
  chars : ∀ c ∈ cs, c ∈ Base64.alphabet ∨ c = '='
  filtered : body.filter (!isSpace ·) = cs
  white : ∀ c ∈ body, isSpace c = true → c ∈ whites
  noEmptyLine : body.IsChain fun a b => a = '\n' → b ≠ '\n' ∧ b ≠ '\r'

/-- A text between the markers of a label. -/
def armoured (label : String) (body : List Char) : String :=
  "-----BEGIN " ++ label ++ "-----" ++ String.ofList body ++ "-----END " ++ label ++ "-----"

theorem armoured_eq (label : String) (body : List Char) : armoured label body
    = "-----BEGIN " ++ label ++ "-----" ++ String.ofList body ++ "-----END " ++ label ++ "-----" :=
  rfl

/-- Whether a text is a block of octets with some layout: their base64 in lines of any length, with
any white space in them and behind the block. -/
inductive IsArmour (label : String) (bs : List UInt8) : String → Prop where
  | mk {body : List Char} (after : List Char) : IsSpread (Base64.encodePadded bs).toList body →
      (∀ c ∈ after, c ∈ whites) → IsArmour label bs (armoured label body ++ String.ofList after)

section Layouts

variable {cs body : List Char}

/-- White space is ASCII, and no hyphens. -/
theorem plain_of_mem_whites {c : Char} (h : c ∈ whites) :
    c.toNat < 128 ∧ isSpace c = true ∧ UInt8.ofNat c.toNat ≠ 45 := by
  have all : whites.all (fun c => c.toNat < 128 ∧ isSpace c = true ∧
      UInt8.ofNat c.toNat ≠ 45) = true := by decide
  exact of_decide_eq_true (List.all_eq_true.1 all c h)

theorem mem_of_isSpread (h : IsSpread cs body) {c : Char} (hc : c ∈ body) :
    c ∈ whites ∨ (c ∈ Base64.alphabet ∨ c = '=') := by
  by_cases hspace : isSpace c = true
  · exact .inl (h.white c hc hspace)
  · refine .inr (h.chars c ?_)
    rw [← h.filtered]
    exact List.mem_filter.2 ⟨hc, by simpa using hspace⟩

theorem isAscii_of_isSpread (h : IsSpread cs body) : ∀ c ∈ body, c.toNat < 128 := by
  intro c hc
  rcases mem_of_isSpread h hc with hwhite | hchar
  · exact (plain_of_mem_whites hwhite).1
  · exact (plain_of_mem_body hchar).1

theorem ascii_ofList (cs : List Char) :
    ascii (String.ofList cs) = cs.map fun c => UInt8.ofNat c.toNat := by
  simp [ascii]

theorem notMem_hyphen_of_isSpread (h : IsSpread cs body) : 45 ∉ ascii (String.ofList body) := by
  rw [ascii_ofList]
  intro hmem
  obtain ⟨c, hc, h45⟩ := List.mem_map.1 hmem
  rcases mem_of_isSpread h hc with hwhite | hchar
  · exact (plain_of_mem_whites hwhite).2.2 h45
  · exact (plain_of_mem_body hchar).2.2 (by rw [h45]; decide)

/-- Base64 has no line ends, so it does not matter in which order its characters follow. -/
theorem isChain_of_isBase64 {l : List Char} (hl : ∀ c ∈ l, c ∈ Base64.alphabet ∨ c = '=') :
    l.IsChain fun a b => a = '\n' → b ≠ '\n' ∧ b ≠ '\r' := by
  refine (List.pairwise_of_forall_mem_list fun a ha b _ hfeed => ?_).isChain
  rw [hfeed] at ha
  exact absurd (hl '\n' ha) (by decide +kernel)

/-- A line end is white space, and no empty line. -/
theorem isSpread_lineEnd {eol : List Char} (heol : eol = ['\n'] ∨ eol = ['\r', '\n']) :
    IsSpread [] eol := by
  have hwhite : ∀ c ∈ eol, c ∈ whites := by rcases heol with rfl | rfl <;> simp [whites]
  refine ⟨nofun, ?_, fun c hc _ => hwhite c hc, ?_⟩
  · rcases heol with rfl | rfl <;> rfl
  · rcases heol with rfl | rfl <;> simp

/-- A line of base64 may stand between a line end and what is spread. -/
theorem IsSpread.line {eol l : List Char} (heol : IsSpread [] eol) (hne : l ≠ [])
    (hl : ∀ c ∈ l, c ∈ Base64.alphabet ∨ c = '=') (h : IsSpread cs body) :
    IsSpread (l ++ cs) (eol ++ l ++ body) := by
  have hkept : l.filter (!isSpace ·) = l := by
    refine List.filter_eq_self.2 fun c hc => ?_
    rw [(plain_of_mem_body (hl c hc)).2.1]
    rfl
  refine ⟨List.forall_mem_append.2 ⟨hl, h.chars⟩, ?_, ?_, ?_⟩
  · rw [List.filter_append, List.filter_append, heol.filtered, hkept, h.filtered]
    rfl
  · refine List.forall_mem_append.2 ⟨List.forall_mem_append.2 ⟨heol.white, ?_⟩, h.white⟩
    intro c hc hspace
    rw [(plain_of_mem_body (hl c hc)).2.1] at hspace
    cases hspace
  · -- neither the first nor the last character of a line is a line end
    have hfront : (eol ++ l).IsChain fun a b => a = '\n' → b ≠ '\n' ∧ b ≠ '\r' := by
      refine heol.noEmptyLine.append (isChain_of_isBase64 hl) fun a _ b hb _ => ?_
      have hb := hl b (List.mem_of_mem_head? hb)
      constructor <;> rintro rfl <;> exact absurd hb (by decide +kernel)
    refine hfront.append h.noEmptyLine fun a ha b _ hfeed => ?_
    rw [List.getLast?_append_of_ne_nil _ hne] at ha
    rw [hfeed] at ha
    exact absurd (hl '\n' (List.mem_of_getLast? ha)) (by decide +kernel)

/-- Lines are spread base64, if none of them is empty: each has a line end, and so has the marker
in front. -/
theorem isSpread_lines {ls : List (List Char)} {eol : List Char}
    (heol : eol = ['\n'] ∨ eol = ['\r', '\n'])
    (hne : ∀ l ∈ ls, l ≠ []) (hls : ∀ l ∈ ls, ∀ c ∈ l, c ∈ Base64.alphabet ∨ c = '=') :
    IsSpread ls.flatten (eol ++ ls.flatMap (· ++ eol)) := by
  induction ls with
  | nil => simpa using isSpread_lineEnd heol
  | cons l ls ih =>
    obtain ⟨hl, hls⟩ := List.forall_mem_cons.1 hls
    obtain ⟨hlne, hne⟩ := List.forall_mem_cons.1 hne
    have hline := (isSpread_lineEnd heol).line hlne hl (ih hne hls)
    simpa [List.append_assoc] using hline

/-- What is written is one of the layouts. -/
theorem isSpread_of_isFolded {ls : List (List Char)} (h : IsFolded cs ls)
    (hcs : ∀ c ∈ cs, c ∈ Base64.alphabet ∨ c = '=') : IsSpread cs ('\n' :: lines 64 cs) := by
  have hspread := isSpread_lines (.inl rfl) (ne_nil_of_isFolded h)
    fun l hl c hc => hcs c (mem_of_isFolded h hl hc)
  rwa [flatten_of_isFolded h, ← lines_of_isFolded h] at hspread

end Layouts

/-! ### Headers -/

/-- No header stands in front of a text without empty lines. -/
theorem withoutHeaders?_of_isSpread {cs body : List Char} (h : IsSpread cs body) :
    withoutHeaders? (ascii (String.ofList body)) = some (ascii (String.ofList body)) := by
  have hoctet : ∀ {c d : Char}, c.toNat < 128 → d.toNat < 128 →
      UInt8.ofNat c.toNat = UInt8.ofNat d.toNat → c = d := by
    intro c d hc hd heq
    have hnat := congrArg UInt8.toNat heq
    rw [Utf8.toNat_ofNat_of_lt (by omega), Utf8.toNat_ofNat_of_lt (by omega)] at hnat
    exact Char.toNat_inj.1 hnat
  have hchain : (ascii (String.ofList body)).IsChain
      fun a b : UInt8 => a = 10 → b ≠ 10 ∧ b ≠ 13 := by
    rw [ascii_ofList, List.isChain_map]
    refine h.noEmptyLine.imp_of_mem_imp fun a b ha hb hab hfeed => ?_
    have hab := hab (hoctet (isAscii_of_isSpread h a ha) (d := '\n') (by decide) hfeed)
    have hb := isAscii_of_isSpread h b hb
    exact ⟨fun h10 => hab.1 (hoctet hb (d := '\n') (by decide) h10),
      fun h13 => hab.2 (hoctet hb (d := '\r') (by decide) h13)⟩
  have hfeeds : until? [10, 10] (ascii (String.ofList body)) = none :=
    until?_eq_none fun hfound => by simpa using hchain.infix hfound
  have hreturns : until? [13, 10, 13, 10] (ascii (String.ofList body)) = none :=
    until?_eq_none fun hfound => by simpa using hchain.infix hfound
  rw [withoutHeaders?, hfeeds, hreturns]
  rfl

/-! ### Frames -/

/-- Whether a text can be the label of a block. -/
structure IsLabel (label : String) : Prop where
  nonempty : ascii label ≠ []
  plain : 45 ∉ ascii label
  isAscii : ∀ c ∈ label.toList, c.toNat < 128

theorem skip_of_head {bs : List UInt8}
    (h : ∀ b, bs.head? = some b → b ≠ 32 ∧ b ≠ 9 ∧ b ≠ 10 ∧ b ≠ 13) : skip bs = bs := by
  cases bs with
  | nil => rfl
  | cons b bs =>
    obtain ⟨h32, h9, h10, h13⟩ := h b rfl
    rw [skip, List.dropWhile_cons_of_neg (by simp [h32, h9, h10, h13])]

theorem skip_lineEnd (bs : List UInt8) : skip (10 :: bs) = skip bs :=
  List.dropWhile_cons_of_pos rfl

/-- No blanks are skipped behind those of a text that ends at a mark. -/
theorem skip_append_mark (bs rest : List UInt8) :
    skip (bs ++ (ascii "-----END " ++ rest)) = skip bs ++ (ascii "-----END " ++ rest) := by
  induction bs with
  | nil => exact skip_of_head fun b hb => Option.some.inj hb ▸ by decide
  | cons b bs ih =>
    rw [List.cons_append, skip, skip, List.dropWhile_cons, List.dropWhile_cons]
    split
    · exact ih
    · rfl

/-- The first block of a text, if there are no hyphens in front of it, in its label and in its
body. -/
theorem frame?_eq {front label body : List UInt8} (hfront : 45 ∉ front) (hlabel : 45 ∉ label)
    (hbody : 45 ∉ body) (rest : List UInt8) :
    frame? (front ++ (ascii "-----BEGIN " ++ (label ++ (ascii "-----" ++ (body
        ++ (ascii "-----END " ++ (label ++ (ascii "-----" ++ rest))))))))
      = some (⟨label, skip body, label⟩, skip rest) := by
  have hskipped : 45 ∉ skip body := fun hmem => hbody ((List.dropWhile_suffix _).mem hmem)
  have hbegin : ∀ r, until? (ascii "-----BEGIN ") (front ++ (ascii "-----BEGIN " ++ r))
      = some (front, r) :=
    until?_append hfront (ascii "----BEGIN ")
  have hclose : ∀ r, until? (ascii "-----") (label ++ (ascii "-----" ++ r)) = some (label, r) :=
    until?_append hlabel (ascii "----")
  have hend : ∀ r, until? (ascii "-----END ") (skip body ++ (ascii "-----END " ++ r))
      = some (skip body, r) :=
    until?_append hskipped (ascii "----END ")
  simp only [frame?, hbegin, hclose, skip_append_mark, hend, Option.bind_eq_bind, Option.bind_some,
    Option.pure_def]

/-- There is no block without a marker. -/
theorem frame?_eq_none {bs : List UInt8} (h : 45 ∉ bs) : frame? bs = none := by
  have hbegin : until? (ascii "-----BEGIN ") bs = none :=
    until?_eq_none fun hfound => h (hfound.mem (by decide))
  simp [frame?, hbegin]

/-! ### Blocks -/

section Blocks

variable {label text : String} {cs body : List Char}

theorem ascii_armoured (label : String) (body : List Char) :
    ascii (armoured label body)
      = ascii "-----BEGIN " ++ (ascii label ++ (ascii "-----" ++ (ascii (String.ofList body)
        ++ (ascii "-----END " ++ (ascii label ++ ascii "-----"))))) := by
  simp only [armoured_eq, ascii_append, List.append_assoc]

theorem isAscii_armoured (hlabel : IsLabel label) (h : IsSpread cs body) :
    ∀ c ∈ (armoured label body).toList, c.toNat < 128 := by
  have hbegin : ∀ c ∈ "-----BEGIN ".toList, c.toNat < 128 := isAscii_of_all (by decide)
  have hend : ∀ c ∈ "-----END ".toList, c.toNat < 128 := isAscii_of_all (by decide)
  have hclose : ∀ c ∈ "-----".toList, c.toNat < 128 := isAscii_of_all (by decide)
  simp only [armoured_eq, String.toList_append, List.forall_mem_append, String.toList_ofList]
  exact ⟨⟨⟨⟨⟨⟨hbegin, hlabel.isAscii⟩, hclose⟩, isAscii_of_isSpread h⟩, hend⟩, hlabel.isAscii⟩,
    hclose⟩

theorem isAscii_of_isArmour {bs : List UInt8} (hlabel : IsLabel label)
    (h : IsArmour label bs text) : ∀ c ∈ text.toList, c.toNat < 128 := by
  obtain ⟨_, hbody, hafter⟩ := h
  rw [String.toList_append, String.toList_ofList, List.forall_mem_append]
  exact ⟨isAscii_armoured hlabel hbody, fun c hc => (plain_of_mem_whites (hafter c hc)).1⟩

/-- The block in a frame is the octets that its text is base64 of. -/
theorem block?_of_isSpread (hlabel : IsLabel label) (h : IsSpread cs body) :
    Frame.block? ⟨ascii label, ascii (String.ofList body), ascii label⟩
      = (Base64.decodePadded cs).map fun bs => ⟨label, bs⟩ := by
  have htext : Utf8.decode (ascii (String.ofList body)) = .ok (String.ofList body) :=
    decode_ascii (by simpa using isAscii_of_isSpread h)
  rw [Frame.block?]
  simp only [decode_ascii hlabel.isAscii, withoutHeaders?_of_isSpread h, htext, Except.toOption,
    Option.bind_eq_bind, Option.bind_some, String.toList_ofList, h.filtered, true_and,
    if_pos hlabel.nonempty]
  cases Base64.decodePadded cs <;> rfl

/-- A text is still spread without the blanks in front. -/
theorem exists_skip_eq (h : IsSpread cs body) : ∃ rest, IsSpread cs rest ∧
    skip (ascii (String.ofList body)) = ascii (String.ofList rest) := by
  let isSkipped (c : Char) : Bool :=
    [(32 : UInt8), 9, 10, 13].contains (UInt8.ofNat c.toNat)
  have hskip : skip (ascii (String.ofList body))
      = ascii (String.ofList (body.dropWhile isSkipped)) := by
    rw [ascii_ofList, ascii_ofList, skip, List.dropWhile_map]
    refine congrArg (List.map _) (congrArg (List.dropWhile · body) (funext fun c => ?_))
    simp [isSkipped, Bool.or_assoc]
  have hsuffix : body.dropWhile isSkipped <:+ body := List.dropWhile_suffix _
  -- what is skipped is no base64
  have hdropped : (body.takeWhile isSkipped).filter (!isSpace ·) = [] := by
    refine List.filter_eq_nil_iff.2 fun c hc => ?_
    have hskipped : isSkipped c = true := List.mem_takeWhile_imp hc
    rcases mem_of_isSpread h ((List.takeWhile_prefix _).mem hc) with hwhite | hchar
    · simp [(plain_of_mem_whites hwhite).2.1]
    · refine absurd ?_ (plain_of_mem_body hchar).2.2
      exact List.mem_cons_of_mem _ (List.contains_iff_mem.1 hskipped)
  refine ⟨_, ⟨h.chars, ?_, fun c hc => h.white c (hsuffix.mem hc), h.noEmptyLine.suffix hsuffix⟩,
    hskip⟩
  have hfiltered := h.filtered
  rw [← List.takeWhile_append_dropWhile (p := isSkipped) (l := body), List.filter_append,
    hdropped] at hfiltered
  exact hfiltered

/-- The frame of a block is found in front of anything, and the block in it. -/
theorem frame?_armoured (hlabel : IsLabel label) (h : IsSpread cs body) :
    ∃ f : Frame, (∀ front rest, 45 ∉ front →
        frame? (front ++ (ascii (armoured label body) ++ rest)) = some (f, skip rest)) ∧
      f.block? = (Base64.decodePadded cs).map fun bs => ⟨label, bs⟩ := by
  obtain ⟨kept, hkept, hskip⟩ := exists_skip_eq h
  refine ⟨⟨ascii label, skip (ascii (String.ofList body)), ascii label⟩,
    fun front rest hfront => ?_, ?_⟩
  · rw [ascii_armoured]
    simp only [List.append_assoc]
    exact frame?_eq hfront hlabel.plain (notMem_hyphen_of_isSpread h) rest
  · rw [hskip]
    exact block?_of_isSpread hlabel hkept

/-- A block is armoured lines, and a line end. -/
theorem exists_armoured (h : IsBlock label cs text) :
    ∃ body, IsSpread cs body ∧ text = armoured label body ++ "\n" := by
  obtain ⟨hcs, ls, hls, -⟩ := id h
  refine ⟨_, isSpread_of_isFolded hls hcs, ?_⟩
  rw [(isBlock_iff.1 h).2]
  refine String.toList_injective ?_
  simp [armoured_eq]

/-- What is written for octets is one of the layouts of their block. -/
theorem isArmour_block (label : String) (bs : List UInt8) : IsArmour label bs (block label bs) := by
  obtain ⟨body, hbody, htext⟩ := exists_armoured (isBlock_block label bs)
  rw [htext]
  exact .mk ['\n'] hbody (by simp [whites])

theorem ascii_of_isBlock (h : IsBlock label cs text) : ∃ body, IsSpread cs body ∧
    ascii text = ascii (armoured label body) ++ [10] := by
  obtain ⟨body, hbody, rfl⟩ := exists_armoured h
  exact ⟨body, hbody, ascii_append _ _⟩

theorem ascii_of_isBlock_cons (h : IsBlock label cs text) : ∃ bs, ascii text = 45 :: bs := by
  obtain ⟨body, -, htext⟩ := ascii_of_isBlock h
  rw [htext, ascii_armoured]
  exact ⟨_, rfl⟩

theorem isAscii_of_isBlock (hlabel : IsLabel label) (h : IsBlock label cs text) :
    ∀ c ∈ text.toList, c.toNat < 128 := by
  obtain ⟨body, hbody, rfl⟩ := exists_armoured h
  rw [String.toList_append, List.forall_mem_append]
  exact ⟨isAscii_armoured hlabel hbody, isAscii_of_all (by decide)⟩

/-- The frame of a block is found in front of anything, and the block in it. -/
theorem frame?_of_isBlock (hlabel : IsLabel label) (h : IsBlock label cs text) :
    ∃ f : Frame, (∀ rest, frame? (ascii text ++ rest) = some (f, skip rest)) ∧
      f.block? = (Base64.decodePadded cs).map fun bs => ⟨label, bs⟩ := by
  obtain ⟨body, hbody, htext⟩ := ascii_of_isBlock h
  obtain ⟨f, hframe, hf⟩ := frame?_armoured hlabel hbody
  refine ⟨f, fun rest => ?_, hf⟩
  have hfound := hframe [] (10 :: rest) List.not_mem_nil
  rwa [skip_lineEnd, List.nil_append, ← List.singleton_append, ← List.append_assoc, ← htext]
    at hfound

/-- The frames of blocks in a row hold what the blocks are the base64 of. -/
theorem mapM_frames {css : List (List Char)} {texts : List String} (hlabel : IsLabel label)
    (h : List.Forall₂ (IsBlock label) css texts) {fuel : Nat} (hfuel : texts.length ≤ fuel) :
    (frames fuel (texts.flatMap ascii)).mapM Frame.block?
      = css.mapM fun cs => (Base64.decodePadded cs).map fun bs => ⟨label, bs⟩ := by
  induction h generalizing fuel with
  | nil => cases fuel <;> rfl
  | @cons cs text css texts hblock hrest ih =>
    obtain ⟨f, hframe, hf⟩ := frame?_of_isBlock hlabel hblock
    have hskip : skip (texts.flatMap ascii) = texts.flatMap ascii := by
      refine skip_of_head fun b hb => ?_
      cases hrest with
      | nil => cases hb
      | cons hnext _ =>
        obtain ⟨bs, hbs⟩ := ascii_of_isBlock_cons hnext
        rw [List.flatMap_cons, hbs] at hb
        rw [← Option.some.inj hb]
        decide
    cases fuel with
    | zero => cases hfuel
    | succ fuel =>
      rw [List.flatMap_cons, frames, hframe, hskip]
      dsimp only
      rw [List.mapM_cons, List.mapM_cons, hf, ih (Nat.le_of_succ_le_succ hfuel)]

/-- All blocks of a text that consists of blocks are read, if they hold padded base64. -/
theorem blocks?_of_areBlocks {css : List (List Char)} {texts : List String} (hlabel : IsLabel label)
    (h : List.Forall₂ (IsBlock label) css texts) :
    blocks? (ascii (String.join texts))
      = css.mapM fun cs => (Base64.decodePadded cs).map fun bs => ⟨label, bs⟩ := by
  have hlength : texts.length ≤ (texts.flatMap ascii).length := by
    clear hlabel
    induction h with
    | nil => exact Nat.le_refl _
    | cons hblock _ ih =>
      obtain ⟨bs, hbs⟩ := ascii_of_isBlock_cons hblock
      rw [List.flatMap_cons, hbs, List.length_append, List.length_cons, List.length_cons]
      omega
  rw [blocks?, ascii_join, mapM_frames hlabel h hlength]

/-- The one block of a text is read, whatever its layout and however much white space stands in
front. -/
theorem blocks?_of_isArmour {bs : List UInt8} {front : List Char} (hlabel : IsLabel label)
    (h : IsArmour label bs text) (hfront : ∀ c ∈ front, c ∈ whites) :
    blocks? (ascii (String.ofList front ++ text)) = some [⟨label, bs⟩] := by
  obtain @⟨body, after, hbody, hafter⟩ := h
  have hnone : ∀ {cs : List Char}, (∀ c ∈ cs, c ∈ whites) → 45 ∉ ascii (String.ofList cs) := by
    intro cs hcs hmem
    rw [ascii_ofList] at hmem
    obtain ⟨c, hc, h45⟩ := List.mem_map.1 hmem
    exact (plain_of_mem_whites (hcs c hc)).2.2 h45
  obtain ⟨f, hframe, hf⟩ := frame?_armoured hlabel hbody
  have hfound := hframe (ascii (String.ofList front)) (ascii (String.ofList after)) (hnone hfront)
  have hrest : frame? (skip (ascii (String.ofList after))) = none :=
    frame?_eq_none fun hmem => hnone hafter ((List.dropWhile_suffix _).mem hmem)
  have hframes : ∀ fuel, frames fuel (skip (ascii (String.ofList after))) = [] := by
    intro fuel
    cases fuel with
    | zero => rfl
    | succ fuel => rw [frames, hrest]
  rw [blocks?, ascii_append, ascii_append]
  generalize hoctets : ascii (String.ofList front) ++ (ascii (armoured label body)
    ++ ascii (String.ofList after)) = octets at hfound
  have hlength : octets.length ≠ 0 := by
    rw [← hoctets, ascii_armoured]
    simp [ascii]
  obtain ⟨fuel, hfuel⟩ := Nat.exists_eq_succ_of_ne_zero hlength
  rw [hfuel, frames, hfound]
  dsimp only
  rw [hframes, List.mapM_cons, List.mapM_nil, hf, Base64.decodePadded_eq_some_iff.2
    (Base64.isPadded_encodePadded bs)]
  rfl

end Blocks

end AcmeClient.Asn1.Pem
