import AcmeClient.Proofs.Address.Numbers

/-!
# The parts of a long address

The reader of long addresses cuts a text at its colons, and finds among the parts the empty one that
a gap leaves behind:

* `Parts` — the parts that make eight groups, with or without a gap;
* `valueOf?` — the second step of the reader, from parts to a number, with `parseGroups?_eq`;
* `valueOf?_gap`, `valueOf?_flat` — what it does with a gap and without one;
* `valueOf?_eq_some_iff` — it reads exactly the parts that make groups.
-/

namespace AcmeClient.IpAddress

open Number Text

/-! ### Parts between colons -/

/-- The parts on one side of a gap; without any there is an empty one. -/
def outer (ps : List (List Char)) : List (List Char) :=
  if ps = [] then [[]] else ps

/-- Whether parts between colons make eight groups. -/
inductive Parts : List (List Char) → List Nat → Prop where
  | full {ps gs} (h : List.Forall₂ IsGroup ps gs) (hcount : gs.length = 8) : Parts ps gs
  | gap {hps hs lps ls} (high : List.Forall₂ IsGroup hps hs) (low : List.Forall₂ IsGroup lps ls)
      (hcount : hs.length + ls.length < 8) :
      Parts (outer hps ++ [] :: outer lps)
        (hs ++ List.replicate (8 - (hs.length + ls.length)) 0 ++ ls)

/-- The number that parts make. -/
def valueOf? (parts : List (List Char)) : Option Nat :=
  if 9 < parts.length then none
  else
    let inner := (parts.drop 1).dropLast
    match inner.idxOf? [] with
    | some i =>
        if 1 < inner.count [] then none
        else do
          let high ← side? parts.head? (parts.take (i + 1))
          let low ← side? parts.getLast? (parts.drop (i + 2))
          if 8 ≤ high.length + low.length then none
          else do
            let h ← high.mapM group?
            let l ← low.mapM group?
            return ofDigitsBase 65536 (h ++ List.replicate (8 - (h.length + l.length)) 0 ++ l)
    | none =>
        if parts.length = 8 then (parts.mapM group?).map (ofDigitsBase 65536) else none

theorem parseGroups?_eq (cs : List Char) : parseGroups? cs = (parts? cs).bind valueOf? :=
  rfl

/-! ### Groups as parts -/

section Groups

variable {ps : List (List Char)} {gs : List Nat} (h : List.Forall₂ IsGroup ps gs)
include h

theorem ne_nil_of_groups : ∀ p ∈ ps, p ≠ [] :=
  forall_mem_of_forall₂ h.flip fun _ _ hg => hg.ne_nil

theorem nil_notMem_of_groups : [] ∉ ps :=
  fun hmem => ne_nil_of_groups h [] hmem rfl

theorem lt_of_groups : ∀ g ∈ gs, g < 65536 :=
  forall_mem_of_forall₂ h fun _ _ hg => hg.lt

/-- One side of a gap is taken as it is. -/
theorem side?_outer :
    side? (outer ps).head? (outer ps) = some ps ∧ side? (outer ps).getLast? (outer ps) = some ps := by
  cases ps with
  | nil => exact ⟨rfl, rfl⟩
  | cons p rest =>
    have hne := nil_notMem_of_groups h
    rw [outer, if_neg (List.cons_ne_nil p rest), side?, side?]
    refine ⟨if_neg fun hhead => ?_, if_neg fun hlast => ?_⟩
    · exact hne (List.mem_of_head? hhead)
    · exact hne (List.mem_of_getLast? hlast)

/-- Next to a gap nothing else is empty. -/
theorem nil_notMem_outer : [] ∉ (outer ps).drop 1 ∧ [] ∉ (outer ps).dropLast := by
  cases ps with
  | nil => exact ⟨nofun, nofun⟩
  | cons p rest =>
    have hne := nil_notMem_of_groups h
    rw [outer, if_neg (List.cons_ne_nil p rest)]
    exact ⟨fun hmem => hne (List.mem_of_mem_drop hmem),
      fun hmem => hne ((List.dropLast_prefix _).mem hmem)⟩

end Groups

theorem groups_append {fs fs' : List (List Char)} {gs gs' : List Nat}
    (h : List.Forall₂ IsGroup fs gs) (h' : List.Forall₂ IsGroup fs' gs') :
    List.Forall₂ IsGroup (fs ++ fs') (gs ++ gs') :=
  List.rel_append h h'

theorem outer_ne_nil (ps : List (List Char)) : outer ps ≠ [] := by
  rw [outer]
  split
  · exact List.cons_ne_nil _ _
  · assumption

theorem outer_of_ne_nil {ps : List (List Char)} (h : ps ≠ []) : outer ps = ps :=
  if_neg h

theorem length_outer (ps : List (List Char)) : (outer ps).length = max 1 ps.length := by
  rw [outer]
  split
  next h => rw [h]; rfl
  next h => have := List.length_pos_iff.2 h; omega

theorem joined_outer (c : Char) (ps : List (List Char)) : joined c (outer ps) = joined c ps := by
  rw [outer]
  split
  next h => rw [h]; rfl
  next => rfl

/-- What is taken of one side of a gap is all there is on it. -/
theorem outer_of_side? {last : Option (List Char)} {A ps : List (List Char)} (hA : A ≠ [])
    (hlast : last = A.head? ∨ last = A.getLast?) (h : side? last A = some ps) : A = outer ps := by
  rw [side?] at h
  split at h
  next hempty =>
    split at h
    next hone =>
      obtain ⟨a, rfl⟩ := List.length_eq_one_iff.1 hone
      have ha : last = some a := hlast.elim id id
      rw [← Option.some.inj h, Option.some.inj (ha.symm.trans hempty)]
      rfl
    next => cases h
  next =>
    rw [← Option.some.inj h]
    exact (if_neg hA).symm

/-! ### The gap -/

/-- The first empty part is where a gap is. -/
theorem idxOf?_nil_eq_some_iff {ps : List (List Char)} {i : Nat} :
    ps.idxOf? [] = some i ↔ ∃ X Y, ps = X ++ [] :: Y ∧ [] ∉ X ∧ X.length = i := by
  induction ps generalizing i with
  | nil =>
    constructor
    · intro h
      cases h
    · rintro ⟨X, Y, h, -, -⟩
      exact absurd h (List.append_ne_nil_of_right_ne_nil X (List.cons_ne_nil _ _)).symm
  | cons p ps ih =>
    rw [List.idxOf?_cons]
    by_cases hp : p = []
    · subst hp
      constructor
      · intro h
        exact ⟨[], ps, rfl, nofun, Option.some.inj h⟩
      · rintro ⟨X, Y, h, hX, rfl⟩
        cases X with
        | nil => rfl
        | cons x X => exact absurd ((List.cons.inj h).1 ▸ List.mem_cons_self) hX
    · rw [if_neg (by simpa using hp), Option.map_eq_some_iff]
      constructor
      · rintro ⟨k, hk, rfl⟩
        obtain ⟨X, Y, rfl, hX, rfl⟩ := ih.1 hk
        exact ⟨p :: X, Y, rfl, List.not_mem_cons_of_ne_of_not_mem (Ne.symm hp) hX, rfl⟩
      · rintro ⟨X, Y, h, hX, rfl⟩
        cases X with
        | nil => exact absurd (List.cons.inj h).1 hp
        | cons x X =>
          obtain ⟨-, rfl⟩ := List.cons.inj h
          exact ⟨X.length, ih.2 ⟨X, Y, rfl, fun hmem => hX (List.mem_cons_of_mem x hmem), rfl⟩, rfl⟩

/-- What lies between the first and the last part. -/
theorem inner_gap {A B : List (List Char)} (hA : A ≠ []) (hB : B ≠ []) :
    ((A ++ [] :: B).drop 1).dropLast = A.drop 1 ++ [] :: B.dropLast := by
  obtain ⟨a, A, rfl⟩ := List.exists_cons_of_ne_nil hA
  rw [List.cons_append, List.drop_one, List.tail_cons,
    List.dropLast_append_of_ne_nil (List.cons_ne_nil [] B), List.dropLast_cons_of_ne_nil hB]
  rfl

/-- Parts with something empty between the first and the last one. -/
theorem exists_gap {ps X Y : List (List Char)} (h : (ps.drop 1).dropLast = X ++ [] :: Y) :
    ∃ A B, ps = A ++ [] :: B ∧ A ≠ [] ∧ B ≠ [] ∧ A.drop 1 = X := by
  cases ps with
  | nil => exact absurd h (List.append_ne_nil_of_right_ne_nil X (List.cons_ne_nil _ _)).symm
  | cons p ps =>
    rw [List.drop_one, List.tail_cons] at h
    have hne : ps ≠ [] := by
      rintro rfl
      exact absurd h (List.append_ne_nil_of_right_ne_nil X (List.cons_ne_nil _ _)).symm
    refine ⟨p :: X, Y ++ [ps.getLast hne], ?_, List.cons_ne_nil _ _,
      List.append_ne_nil_of_right_ne_nil _ (List.cons_ne_nil _ _), rfl⟩
    calc p :: ps = p :: (ps.dropLast ++ [ps.getLast hne]) := by rw [List.dropLast_append_getLast hne]
      _ = p :: X ++ [] :: (Y ++ [ps.getLast hne]) := by
        rw [h, List.append_assoc, List.cons_append, List.cons_append]

/-- Parts with a gap make the number of the groups on its two sides. -/
theorem valueOf?_gap {A B : List (List Char)} (hA : A ≠ []) (hB : B ≠ [])
    (hfirst : [] ∉ A.drop 1) :
    valueOf? (A ++ [] :: B)
      = if 9 < A.length + 1 + B.length ∨ [] ∈ B.dropLast then none
        else do
          let high ← side? A.head? A
          let low ← side? B.getLast? B
          if 8 ≤ high.length + low.length then none
          else do
            let h ← high.mapM group?
            let l ← low.mapM group?
            return ofDigitsBase 65536 (h ++ List.replicate (8 - (h.length + l.length)) 0 ++ l) := by
  have hlength : (A.drop 1).length + 1 = A.length := by
    have := List.length_pos_iff.2 hA
    rw [List.length_drop]
    omega
  have hplace : (A.drop 1 ++ [] :: B.dropLast).idxOf? [] = some (A.drop 1).length :=
    idxOf?_nil_eq_some_iff.2 ⟨_, _, rfl, hfirst, rfl⟩
  have hcount : 1 < (A.drop 1 ++ [] :: B.dropLast).count [] ↔ [] ∈ B.dropLast := by
    rw [List.count_append, List.count_eq_zero.2 hfirst, List.count_cons_self,
      ← List.count_pos_iff (a := []) (l := B.dropLast)]
    omega
  have htotal : (A ++ [] :: B).length = A.length + 1 + B.length := by
    rw [List.length_append, List.length_cons]
    omega
  have hhead : (A ++ [] :: B).head? = A.head? := List.head?_append_of_ne_nil A hA
  have hlast : (A ++ [] :: B).getLast? = B.getLast? := by
    obtain ⟨b, B, rfl⟩ := List.exists_cons_of_ne_nil hB
    rw [List.getLast?_append_cons, List.getLast?_cons_cons]
  have htake : (A ++ [] :: B).take A.length = A := List.take_left' rfl
  have hdrop : (A ++ [] :: B).drop (A.length + 1) = B := by
    rw [← List.drop_drop, List.drop_left' rfl]
    rfl
  simp only [valueOf?, inner_gap hA hB, hplace, hcount, htotal, hhead, hlast, hlength, htake]
  rw [show (A.drop 1).length + 2 = A.length + 1 by omega, hdrop]
  by_cases hlong : 9 < A.length + 1 + B.length
  · rw [if_pos hlong, if_pos (.inl hlong)]
  · simp only [hlong, if_false, false_or]

/-- Parts without a gap have to be eight groups. -/
theorem valueOf?_flat {ps : List (List Char)} (h : [] ∉ (ps.drop 1).dropLast) :
    valueOf? ps = if ps.length = 8 then (ps.mapM group?).map (ofDigitsBase 65536) else none := by
  simp only [valueOf?, List.idxOf?_eq_none_iff.2 h]
  split
  · rw [if_neg (by omega)]
  · rfl

/-- The number of parts is that of the groups which they make. -/
theorem valueOf?_eq_some_iff {ps : List (List Char)} {n : Nat} :
    valueOf? ps = some n ↔ ∃ gs, Parts ps gs ∧ n = ofDigitsBase 65536 gs := by
  constructor
  · intro h
    by_cases hgap : [] ∈ (ps.drop 1).dropLast
    · obtain ⟨X, Y, hinner, hX⟩ := List.eq_append_cons_of_mem hgap
      obtain ⟨A, B, rfl, hA, hB, hdrop⟩ := exists_gap hinner
      rw [valueOf?_gap hA hB (hdrop ▸ hX)] at h
      split at h
      next => cases h
      next =>
        obtain ⟨high, hhigh, h⟩ := Option.bind_eq_some_iff.1 h
        obtain ⟨low, hlow, h⟩ := Option.bind_eq_some_iff.1 h
        split at h
        next => cases h
        next hcount =>
          obtain ⟨hs, hhs, h⟩ := Option.bind_eq_some_iff.1 h
          obtain ⟨ls, hls, h⟩ := Option.bind_eq_some_iff.1 h
          have hgroups := mapM_group?_eq_some_iff.1 hhs
          have lgroups := mapM_group?_eq_some_iff.1 hls
          rw [hgroups.length_eq, lgroups.length_eq] at hcount
          rw [outer_of_side? hA (.inl rfl) hhigh, outer_of_side? hB (.inr rfl) hlow]
          exact ⟨_, .gap hgroups lgroups (Nat.not_le.1 hcount), (Option.some.inj h).symm⟩
    · rw [valueOf?_flat hgap] at h
      split at h
      next hcount =>
        obtain ⟨gs, hgs, rfl⟩ := Option.map_eq_some_iff.1 h
        have hgroups := mapM_group?_eq_some_iff.1 hgs
        exact ⟨gs, .full hgroups (hgroups.length_eq ▸ hcount), rfl⟩
      next => cases h
  · rintro ⟨gs, hparts, rfl⟩
    cases hparts with
    | full h hcount =>
      have hflat : [] ∉ (ps.drop 1).dropLast := fun hmem =>
        nil_notMem_of_groups h (List.mem_of_mem_drop ((List.dropLast_prefix _).mem hmem))
      rw [valueOf?_flat hflat, if_pos (h.length_eq.trans hcount), mapM_group?_eq_some_iff.2 h]
      rfl
    | @gap hps hs lps ls high low hcount =>
      have hfew : ¬ (9 < (outer hps).length + 1 + (outer lps).length ∨
          [] ∈ (outer lps).dropLast) := by
        rw [length_outer, length_outer, high.length_eq, low.length_eq, not_or]
        exact ⟨by omega, (nil_notMem_outer low).2⟩
      have hsides : ¬ 8 ≤ hps.length + lps.length := by
        rw [high.length_eq, low.length_eq]
        exact Nat.not_le.2 hcount
      rw [valueOf?_gap (outer_ne_nil _) (outer_ne_nil _) (nil_notMem_outer high).1, if_neg hfew,
        (side?_outer high).1, (side?_outer low).2]
      simp only [Option.bind_eq_bind, Option.bind_some, if_neg hsides,
        mapM_group?_eq_some_iff.2 high, mapM_group?_eq_some_iff.2 low, Option.pure_def]

end AcmeClient.IpAddress
