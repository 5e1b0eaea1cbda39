import AcmeClient.Proofs.Operations
import AcmeClient.Proofs.Posted
import Mathlib.Data.List.Infix

/-!
# Texts of nonces

A nonce is written in base64 without padding, and its text is read leniently: characters of no
group are passed over, bits that fill no octet are dropped, and what stands behind complete padding
is not read. So more texts are read than are written:

* `Base64.IsUnpadded` — the texts that are written, with `isUnpadded_iff`;
* `Base64.IsRead` and `Base64.Spells` — how far characters are read, and the octets that they spell;
* `Base64.decodeChars_eq_ok_iff` — characters are read exactly when they spell octets;
* `nonces_are_read_leniently` — which texts of nonces are kept or refused, and which of them a
  signed request repeats.
-/

namespace AcmeClient

open Act

namespace Base64

/-! ### Texts that are written -/

/-- In how many ways the bits of the last group that fill no octet can be set. -/
def spare (count : Nat) : Nat :=
  match count % 4 with
  | 2 => 16
  | 3 => 4
  | _ => 1

/-- Whether characters are base64 in the `url` alphabet without padding: they can be those of whole
octets, and the bits that fill no octet are zero. -/
structure IsUnpadded (cs : List Char) : Prop where
  alphabet : ∀ c ∈ cs, isUrlChar c = true
  length : cs.length % 4 ≠ 1
  unused : ∀ c n, cs.getLast? = some c → value c = some n → n % spare cs.length = 0

/-- A character of the `url` alphabet is written for the group that it stands for. -/
theorem urlDigit_of_isUrlChar {c : Char} (h : isUrlChar c = true) :
    ∃ n, value c = some n ∧ n < 64 ∧ urlDigit n = c := by
  have all : ∀ k ∈ List.range 128, isUrlChar (Char.ofNat k) = true →
      (value (Char.ofNat k)).any (fun n => n < 64 && urlDigit n == Char.ofNat k) = true := by
    decide +kernel
  have hany := all c.toNat (List.mem_range.2 (toNat_lt_of_isUrlChar h))
  rw [Char.ofNat_toNat] at hany
  obtain ⟨n, hn, hdigit⟩ := (Option.any_eq_true _ _).1 (hany h)
  obtain ⟨hlt, heq⟩ := Bool.and_eq_true_iff.1 hdigit
  exact ⟨n, hn, of_decide_eq_true hlt, beq_iff_eq.1 heq⟩

/-- Characters of the `url` alphabet are written for the groups that they stand for. -/
theorem exists_groups {cs : List Char} (h : ∀ c ∈ cs, isUrlChar c = true) :
    ∃ ns : List Nat, (∀ n ∈ ns, n < 64) ∧ cs = ns.map urlDigit := by
  induction cs with
  | nil => exact ⟨[], nofun, rfl⟩
  | cons c cs ih =>
    obtain ⟨n, -, hn, hc⟩ := urlDigit_of_isUrlChar (h c (by simp))
    obtain ⟨ns, hns, hcs⟩ := ih fun d hd => h d (by simp [hd])
    refine ⟨n :: ns, ?_, by rw [List.map_cons, hc, ← hcs]⟩
    exact List.forall_mem_cons.2 ⟨hn, hns⟩

theorem spare_add_four (count : Nat) : spare (count + 4) = spare count := by
  simp [spare]

theorem getLast?_cons_four {a b c d : Nat} {rest : List Nat} {n : Nat}
    (h : rest.getLast? = some n) : (a :: b :: c :: d :: rest).getLast? = some n := by
  cases rest with
  | nil => cases h
  | cons x xs => simpa using h

/-- The bits of the last group of octets that fill no octet are zero. -/
theorem getLast?_sextets (bs : List UInt8) (n : Nat) (h : (sextets bs).getLast? = some n) :
    n % spare (sextets bs).length = 0 := by
  fun_induction sextets bs with
  | case1 => cases h
  | case2 a m =>
    cases h
    show m % 4 * 16 % 16 = 0
    omega
  | case3 a b m =>
    cases h
    show m % 16 * 4 % 4 = 0
    omega
  | case4 a b c rest m ih =>
    show n % spare ((sextets rest).length + 4) = 0
    rw [spare_add_four]
    cases hrest : sextets rest with
    | nil => exact Nat.mod_one _
    | cons k ks =>
      rw [hrest] at h ih
      exact ih (by simpa using h)

/-- Groups are those of the octets that they spell when no group is left alone and no bit that fills
no octet is set. -/
theorem sextets_octets {ns : List Nat} (hlt : ∀ n ∈ ns, n < 64) (hlength : ns.length % 4 ≠ 1)
    (hunused : ∀ n, ns.getLast? = some n → n % spare ns.length = 0) :
    sextets (octets ns) = ns := by
  fun_induction octets ns with
  | case1 a b c d rest n ih =>
    simp only [List.forall_mem_cons] at hlt
    obtain ⟨ha, hb, hc, hd, hrest⟩ := hlt
    have ih' : sextets (octets rest) = rest := by
      refine ih hrest ?_ fun k hk => ?_
      · simp only [List.length_cons] at hlength
        omega
      · rw [← spare_add_four]
        exact hunused k (getLast?_cons_four hk)
    have h1 : (UInt8.ofNat (n / 65536)).toNat = n / 65536 := by
      rw [UInt8.toNat_ofNat']
      omega
    have h2 : (UInt8.ofNat (n / 256)).toNat = n / 256 % 256 := UInt8.toNat_ofNat'
    have h3 : (UInt8.ofNat n).toNat = n % 256 := UInt8.toNat_ofNat'
    simp only [sextets, ih', h1, h2, h3, List.cons.injEq, and_true]
    omega
  | case2 a b c n =>
    simp only [List.forall_mem_cons] at hlt
    have hc : c % 4 = 0 := hunused c rfl
    have h1 : (UInt8.ofNat (n / 1024)).toNat = n / 1024 := by
      rw [UInt8.toNat_ofNat']
      omega
    have h2 : (UInt8.ofNat (n / 4)).toNat = n / 4 % 256 := UInt8.toNat_ofNat'
    simp only [sextets, h1, h2, List.cons.injEq, and_true]
    omega
  | case3 a b =>
    simp only [List.forall_mem_cons] at hlt
    have hb : b % 16 = 0 := hunused b rfl
    have h1 : (UInt8.ofNat ((a * 64 + b) / 16)).toNat = (a * 64 + b) / 16 := by
      rw [UInt8.toNat_ofNat']
      omega
    simp only [sextets, h1, List.cons.injEq, and_true]
    omega
  | case4 ns h4 h3 h2 =>
    match ns, hlength with
    | [], _ => rfl
    | [a], hlength => exact absurd rfl hlength
    | [a, b], _ => exact absurd rfl (h2 a b)
    | [a, b, c], _ => exact absurd rfl (h3 a b c)
    | a :: b :: c :: d :: rest, _ => exact absurd rfl (h4 a b c d rest)

/-- Characters are base64 without padding exactly when octets are written so. -/
theorem isUnpadded_iff {cs : List Char} : IsUnpadded cs ↔ ∃ bs, cs = (encode bs).toList := by
  constructor
  · intro h
    obtain ⟨ns, hlt, rfl⟩ := exists_groups h.alphabet
    refine ⟨octets ns, ?_⟩
    rw [toList_encode, sextets_octets hlt]
    · simpa using h.length
    · intro n hn
      have hlast : (ns.map urlDigit).getLast? = some (urlDigit n) := by
        rw [List.getLast?_map, hn]
        rfl
      have hvalue := value_urlDigit n (hlt n (List.mem_of_getLast? hn))
      simpa using h.unused _ n hlast hvalue
  · rintro ⟨bs, rfl⟩
    have hlt := sextets_lt bs
    rw [toList_encode]
    refine ⟨?_, by simpa using length_sextets_mod bs, ?_⟩
    · intro c hc
      obtain ⟨n, hn, rfl⟩ := List.mem_map.1 hc
      exact isUrlChar_urlDigit (hlt n hn)
    · intro c n hc hn
      rw [List.getLast?_map] at hc
      obtain ⟨m, hm, rfl⟩ := Option.map_eq_some_iff.1 hc
      rw [value_urlDigit m (hlt m (List.mem_of_getLast? hm)), Option.some.injEq] at hn
      subst hn
      simpa using getLast?_sextets bs m hm

/-! ### How far characters are read -/

/-- The groups that characters stand for, whatever stands between them. -/
def groupsIn (cs : List Char) : List Nat :=
  cs.filterMap value

/-- The number of padding characters behind the last group. -/
def padding (cs : List Char) : Nat :=
  (cs.reverse.takeWhile fun c => (value c).isNone).count '='

/-- Whether padding completes the last four groups, at least two of which are there. -/
def Completes (cs : List Char) : Prop :=
  2 ≤ (groupsIn cs).length % 4 ∧ 4 ≤ (groupsIn cs).length % 4 + padding cs

instance : DecidablePred Completes :=
  fun _ => inferInstanceAs (Decidable (_ ∧ _))

/-- Whether characters are read up to some place: to where padding completes four groups for the
first time, or to the end. -/
structure IsRead (cs front : List Char) : Prop where
  isFront : front <+: cs
  first : ∀ p, p <+: front → Completes p → p = front
  last : Completes front ∨ front = cs

/-- Whether characters spell octets: no group is left open where reading ends. -/
def Spells (cs : List Char) (bs : List UInt8) : Prop :=
  ∃ front, IsRead cs front ∧ (Completes front ∨ (groupsIn front).length % 4 = 0) ∧
    octets (groupsIn front) = bs

section Concat

variable {c : Char} {n : Nat}

theorem groupsIn_concat_none (h : value c = none) (cs : List Char) :
    groupsIn (cs ++ [c]) = groupsIn cs := by
  simp [groupsIn, h]

theorem length_groupsIn_concat_some (h : value c = some n) (cs : List Char) :
    (groupsIn (cs ++ [c])).length = (groupsIn cs).length + 1 := by
  simp [groupsIn, h]

theorem padding_concat_none (h : value c = none) (cs : List Char) :
    padding (cs ++ [c]) = padding cs + if c = '=' then 1 else 0 := by
  simp [padding, h, List.count_cons]

theorem padding_concat_some (h : value c = some n) (cs : List Char) :
    padding (cs ++ [c]) = 0 := by
  simp [padding, h]

end Concat

theorem value_pad : value '=' = none := by decide

theorem not_completes_nil : ¬ Completes [] := by decide

/-- Whether what is collected from characters behind some others is what is to be read of them. -/
def CollectsBehind (before cs : List Char) (r : List Nat × Bool) : Prop :=
  ∃ front, front <+: cs ∧ r.1 = groupsIn front ∧ (r.2 = true ↔ Completes (before ++ front)) ∧
    (∀ p, p <+: front → Completes (before ++ p) → p = front) ∧
    (Completes (before ++ front) ∨ front = cs)

/-- What is collected behind a character is collected from it on, unless reading ended before. -/
theorem CollectsBehind.cons {before cs : List Char} {c : Char} {r : List Nat × Bool}
    (hbefore : ¬ Completes before) (h : CollectsBehind (before ++ [c]) cs r) :
    CollectsBehind before (c :: cs) ((value c).toList ++ r.1, r.2) := by
  obtain ⟨front, hfront, hgroups, hdone, hfirst, hlast⟩ := h
  have hshift : ∀ p, before ++ c :: p = before ++ [c] ++ p := fun p => by simp
  refine ⟨c :: front, List.cons_prefix_cons.2 ⟨rfl, hfront⟩, ?_, ?_, ?_, ?_⟩
  · rw [hgroups]
    cases hv : value c <;> simp [groupsIn, hv]
  · rw [hshift]
    exact hdone
  · intro p hp hcompletes
    cases p with
    | nil => exact absurd (by simpa using hcompletes) hbefore
    | cons x p =>
      obtain ⟨rfl, hrest⟩ := List.cons_prefix_cons.1 hp
      rw [hfirst p hrest (by rwa [← hshift])]
  · rw [hshift]
    exact hlast.imp_right fun heq => by rw [heq]

/-- Reading ends at the padding character that completes four groups. -/
theorem collectsBehind_full {before cs : List Char} (hbefore : ¬ Completes before)
    (hfull : Completes (before ++ ['='])) : CollectsBehind before ('=' :: cs) ([], true) := by
  refine ⟨['='], by simp, rfl, by simpa using hfull, ?_, .inl hfull⟩
  intro p hp hcompletes
  cases p with
  | nil => exact absurd (by simpa using hcompletes) hbefore
  | cons x p =>
    obtain ⟨rfl, hrest⟩ := List.cons_prefix_cons.1 hp
    rw [List.prefix_nil.1 hrest]

/-- The groups are collected behind some characters, of which only the count of groups and that of
padding characters is known. -/
theorem collectsBehind_gather (cs before : List Char) (pads : Nat)
    (hpads : 2 ≤ (groupsIn before).length % 4 → pads = padding before)
    (hbefore : ¬ Completes before) :
    CollectsBehind before cs (gather (groupsIn before).length pads cs) := by
  induction cs generalizing before pads with
  | nil =>
    refine ⟨[], List.prefix_refl _, rfl, ?_, fun p hp _ => List.prefix_nil.1 hp, .inr rfl⟩
    rw [List.append_nil]
    exact ⟨nofun, fun h => absurd h hbefore⟩
  | cons c cs ih =>
    have hskip : ∀ {pads'}, value c = none →
        (2 ≤ (groupsIn before).length % 4 → pads' = padding (before ++ [c])) →
        ¬ Completes (before ++ [c]) →
        CollectsBehind before (c :: cs) (gather (groupsIn before).length pads' cs) := by
      intro pads' hv hpads' hnot
      have h := (ih (before ++ [c]) pads' (by rwa [groupsIn_concat_none hv]) hnot).cons hbefore
      rw [groupsIn_concat_none hv, hv] at h
      exact h
    by_cases hpad : c = '='
    · subst hpad
      have hgroups := groupsIn_concat_none value_pad before
      have hpadding := padding_concat_none value_pad before
      rw [if_pos rfl] at hpadding
      rw [gather, if_pos rfl]
      by_cases hfew : (groupsIn before).length % 4 < 2
      · rw [if_pos hfew]
        refine hskip value_pad (fun h => absurd h (by omega)) ?_
        rintro ⟨hopen, -⟩
        rw [hgroups] at hopen
        omega
      · have hcount := hpads (by omega)
        rw [if_neg hfew]
        by_cases hfull : 4 ≤ (groupsIn before).length % 4 + pads + 1
        · rw [if_pos hfull]
          refine collectsBehind_full hbefore ?_
          rw [Completes, hgroups, hpadding]
          omega
        · rw [if_neg hfull]
          refine hskip value_pad (fun _ => by omega) ?_
          rw [Completes, hgroups, hpadding]
          omega
    · rw [gather, if_neg hpad]
      cases hv : value c with
      | none =>
        have hpadding := padding_concat_none hv before
        rw [if_neg hpad, Nat.add_zero] at hpadding
        refine hskip hv (fun h => by rw [hpadding, hpads h]) ?_
        rw [Completes, groupsIn_concat_none hv, hpadding]
        exact hbefore
      | some n =>
        have hpadding := padding_concat_some hv before
        have hnot : ¬ Completes (before ++ [c]) := by
          rw [Completes, hpadding]
          omega
        have h := (ih (before ++ [c]) 0 (fun _ => hpadding.symm) hnot).cons hbefore
        rw [length_groupsIn_concat_some hv, hv] at h
        exact h

/-- The groups are collected from what is read. -/
theorem isRead_gather (cs : List Char) : ∃ front, IsRead cs front ∧
    (gather 0 0 cs).1 = groupsIn front ∧ ((gather 0 0 cs).2 = true ↔ Completes front) := by
  obtain ⟨front, hfront, hgroups, hdone, hfirst, hlast⟩ :=
    collectsBehind_gather cs [] 0 (fun _ => rfl) not_completes_nil
  exact ⟨front, ⟨hfront, hfirst, hlast⟩, hgroups, hdone⟩

/-- There is one place where reading ends. -/
theorem IsRead.unique {cs front front' : List Char} (h : IsRead cs front) (h' : IsRead cs front') :
    front = front' := by
  have eq_of_isFront : ∀ {p q}, IsRead cs p → IsRead cs q → p <+: q → p = q := by
    intro p q hp hq hpq
    rcases hp.last with hcompletes | rfl
    · exact hq.first p hpq hcompletes
    · exact hpq.eq_of_length_le hq.isFront.length_le
  rcases List.prefix_or_prefix_of_prefix h.isFront h'.isFront with hp | hp
  · exact eq_of_isFront h h' hp
  · exact (eq_of_isFront h' h hp).symm

/-- Characters are read exactly when they spell octets. -/
theorem decodeChars_eq_ok_iff {cs : List Char} {bs : List UInt8} :
    decodeChars cs = .ok bs ↔ Spells cs bs := by
  obtain ⟨front, hread, hgroups, hdone⟩ := isRead_gather cs
  have hspells : Spells cs bs ↔ (Completes front ∨ (groupsIn front).length % 4 = 0) ∧
      octets (groupsIn front) = bs := by
    constructor
    · rintro ⟨front', hread', h⟩
      rwa [hread.unique hread']
    · exact fun h => ⟨front, hread, h⟩
  have hclosed : ((gather 0 0 cs).2 = true ∨ (gather 0 0 cs).1.length % 4 = 0) ↔
      (Completes front ∨ (groupsIn front).length % 4 = 0) := by
    rw [hdone, hgroups]
  rw [hspells, decodeChars]
  dsimp only
  by_cases h : Completes front ∨ (groupsIn front).length % 4 = 0
  · rw [if_pos (hclosed.2 h), hgroups, Except.ok.injEq]
    exact ⟨fun heq => ⟨h, heq⟩, And.right⟩
  · rw [if_neg fun hc => h (hclosed.1 hc)]
    constructor
    · intro heq
      split at heq <;> cases heq
    · exact fun heq => absurd heq.1 h

/-- Of the characters of the `url` alphabet only the count matters. -/
theorem decodeSized_eq_ok_iff {cs : List Char} (h : ∀ c ∈ cs, isUrlChar c = true) :
    (∃ bs, decodeSized cs.length cs = .ok bs) ↔ cs.length % 4 ≠ 1 := by
  obtain ⟨ns, hlt, rfl⟩ := exists_groups h
  have hgather : ∀ pads, gather 0 0 (ns.map urlDigit ++ pads)
      = (ns ++ (gather ns.length 0 pads).1, (gather ns.length 0 pads).2) := by
    intro pads
    rw [gather_digits ns hlt, Nat.zero_add]
  rw [List.length_map, decodeSized, decodeChars, hgather]
  by_cases hlone : ns.length % 4 = 1
  · have hpads : gather ns.length 0 (List.replicate 3 '=') = ([], false) := by
      simp [List.replicate, gather, hlone]
    rw [hlone, hpads]
    simp [hlone]
  · rw [gather_padding _ hlone]
    by_cases hwhole : ns.length % 4 = 0
    · simp [hwhole]
    · simp [hwhole, hlone]

end Base64

/-! ### Nonces -/

/-- The characters of a text with the padding that is supplied. -/
def Nonce.supplied (text : String) : List Char :=
  text.toList ++ List.replicate (4 - (Text.Utf8.encode text).length % 4) '='

theorem decodeHeaderNonce_eq_ok_iff {text : String} {bs : List UInt8} :
    decodeHeaderNonce text = .ok bs ↔ Base64.Spells (Nonce.supplied text) bs := by
  rw [← Base64.decodeChars_eq_ok_iff]
  have hdecode : decodeHeaderNonce text
      = ((Base64.decodeChars (Nonce.supplied text)).mapError fun d =>
          DecodingDefect.nonce (.base64 d)).mapError fun d => .badNonce text d.message := rfl
  rw [hdecode]
  cases Base64.decodeChars (Nonce.supplied text) with
  | error d => simp [Except.mapError]
  | ok bs' => simp [Except.mapError]

/-- A nonce that is not read is refused as a bad one. -/
theorem badNonce_of_decodeHeaderNonce {text : String} {e : Fault}
    (h : decodeHeaderNonce text = .error e) : ∃ reason, e = .badNonce text reason := by
  rw [decodeHeaderNonce] at h
  cases hd : Nonce.decode text with
  | error d =>
    rw [hd] at h
    cases h
    exact ⟨_, rfl⟩
  | ok bs =>
    rw [hd] at h
    cases h

/-- The texts whose octets are written with the same text are base64 without padding. -/
theorem encode_eq_iff {text : String} {bs : List UInt8} (h : decodeHeaderNonce text = .ok bs) :
    Base64.encode bs = text ↔ Base64.IsUnpadded text.toList := by
  rw [Base64.isUnpadded_iff]
  constructor
  · rintro rfl
    exact ⟨bs, rfl⟩
  · rintro ⟨bs', hbs'⟩
    obtain rfl : text = Base64.encode bs' := String.toList_injective hbs'
    rw [decodeHeaderNonce, Nonce.decode_encode] at h
    cases h
    rfl

theorem isOk_decodeHeaderNonce {text : String}
    (h : ∀ c ∈ text.toList, Base64.isUrlChar c = true) :
    (∃ bs, decodeHeaderNonce text = .ok bs) ↔ text.toList.length % 4 ≠ 1 := by
  have hsize : (Text.Utf8.encode text).length = text.toList.length :=
    Text.Utf8.length_encode_of_ascii fun c hc => Base64.toNat_lt_of_isUrlChar (h c hc)
  rw [← Base64.decodeSized_eq_ok_iff h]
  simp only [decodeHeaderNonce_eq_ok_iff, ← Base64.decodeChars_eq_ok_iff, Nonce.supplied, hsize]
  rfl

/-- The header of a signed request has its nonce, written without padding, unless it is empty. -/
theorem Request.get?_nonce {r : Request} {s : Signed} {payload : List UInt8} {key : Key}
    {bs : List UInt8} {url : String} {kid : Option String} (hr : r.body = some s)
    (hs : Signed.request payload key bs (some url) kid = .ok s) :
    ∃ header, r.header? = some header ∧
      header.get? "nonce" = if bs = [] then none else some (.string (Base64.encode bs)) := by
  obtain ⟨a, -, hheader⟩ := header?_of_isRequest hr (Signed.isRequest_of_request hs)
  refine ⟨_, hheader, ?_⟩
  rw [Signed.headerMembers, (Signed.get?_sparse _ _ _ _ _).2.2.2.1]
  cases bs <;> rfl

/-- **Nonces are read leniently.** A text is read exactly when its characters, with the padding that
is supplied, spell octets; of the `url` alphabet all texts but those with a lone character are.
What is read enters the pool, and a request signed with it repeats the text exactly if that is
base64 without padding and not empty. What is not read is refused as a bad nonce, and nothing changes. -/
theorem nonces_are_read_leniently (text : String) :
    (Base64.IsUnpadded text.toList →
      ∃ bs, decodeHeaderNonce text = .ok bs ∧ Base64.encode bs = text) ∧
    ((∀ c ∈ text.toList, Base64.isUrlChar c = true) →
      ((∃ bs, decodeHeaderNonce text = .ok bs) ↔ text.toList.length % 4 ≠ 1)) ∧
    match decodeHeaderNonce text with
    | .ok bs =>
      Base64.Spells (Nonce.supplied text) bs ∧
      (Base64.encode bs = text ↔ Base64.IsUnpadded text.toList) ∧
      (∀ env c, (Client.offerNonce text).run env c = (.ok (),
        { c with session := { c.session with nonces := c.session.nonces.add bs } })) ∧
      ∀ (r : Request) s payload key url kid, r.body = some s →
        Signed.request payload key bs (some url) kid = .ok s →
        ∃ header, r.header? = some header ∧
          (header.get? "nonce" = some (.string text) ↔
            Base64.IsUnpadded text.toList ∧ text ≠ "")
    | .error e =>
      (∃ reason, e = .badNonce text reason) ∧
      (∀ bs, ¬ Base64.Spells (Nonce.supplied text) bs) ∧
      ∀ env c, (Client.offerNonce text).run env c = (.error e, c) := by
  refine ⟨fun h => ?_, isOk_decodeHeaderNonce, ?_⟩
  · obtain ⟨bs, hdecode⟩ := (isOk_decodeHeaderNonce h.alphabet).2 h.length
    exact ⟨bs, hdecode, (encode_eq_iff hdecode).2 h⟩
  cases hdecode : decodeHeaderNonce text with
  | error e =>
    refine ⟨badNonce_of_decodeHeaderNonce hdecode, fun bs hspells => ?_, fun env c => ?_⟩
    · rw [decodeHeaderNonce_eq_ok_iff.2 hspells] at hdecode
      cases hdecode
    · rw [Client.offerNonce, run_bind, run_lift, hdecode]
  | ok bs =>
    have hencode := encode_eq_iff hdecode
    refine ⟨decodeHeaderNonce_eq_ok_iff.1 hdecode, hencode, fun env c => ?_, ?_⟩
    · rw [Client.offerNonce, run_bind, run_lift, hdecode]
      rfl
    · intro r s payload key url kid hr hs
      obtain ⟨header, hheader, hnonce⟩ := Request.get?_nonce hr hs
      refine ⟨header, hheader, ?_⟩
      rw [hnonce, ← hencode]
      cases bs with
      | nil => simp [Base64.encode, Base64.sextets, eq_comm]
      | cons b bs =>
        -- the empty text has no octets
        have hne : text ≠ "" := by
          rintro rfl
          have hnil : decodeHeaderNonce "" = .ok [] := rfl
          rw [hnil] at hdecode
          cases hdecode
        simp [hne]

theorem nonces_are_read_leniently_unused :
    decodeHeaderNonce "AB" = .ok [0] ∧ ¬ Base64.IsUnpadded "AB".toList ∧
      (Client.offerNonce "AB").run countingEnvironment (.ofSession .sample)
        = (.ok (), .ofSession { Session.sample with nonces := ⟨[[0]]⟩ }) := by
  have hdecode : decodeHeaderNonce "AB" = .ok [0] := by rfl
  have h := (nonces_are_read_leniently "AB").2.2
  rw [hdecode] at h
  obtain ⟨-, hencode, hoffer, -⟩ := h
  refine ⟨hdecode, ?_, hoffer _ _⟩
  rw [← hencode]
  decide

end AcmeClient
