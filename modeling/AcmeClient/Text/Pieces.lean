/-!
# Cutting texts at a character

* **`cut`** cuts at the first occurrence of a character, **`cutLast`** at the last one; `cut_cases`
  says what is cut.
* **`pieces`** cuts at every occurrence; `joined_pieces` says that joining undoes it.
* **`joined`** puts a character between any two pieces; `pieces_joined` says that cutting undoes it,
  `joined_append` and `mem_joined` what is put together.
-/

namespace AcmeClient.Text

/-- What stands before the first occurrence of `c`, and what follows it if there is one. -/
def cut (c : Char) : List Char → List Char × Option (List Char)
  | [] => ([], none)
  | x :: xs =>
      if x = c then ([], some xs)
      else
        let r := cut c xs
        (x :: r.1, r.2)

/-- What stands before the last occurrence of `c`, if there is one, and what follows it. -/
def cutLast (c : Char) (cs : List Char) : Option (List Char) × List Char :=
  let r := cut c cs.reverse
  (r.2.map List.reverse, r.1.reverse)

/-- The pieces between the occurrences of `c`, one more than there are occurrences. -/
def pieces (c : Char) : List Char → List (List Char)
  | [] => [[]]
  | x :: xs =>
      if x = c then [] :: pieces c xs
      else
        match pieces c xs with
        | [] => [[x]]
        | p :: ps => (x :: p) :: ps

/-- The pieces with `c` between any two of them. -/
def joined (c : Char) : List (List Char) → List Char
  | [] => []
  | [p] => p
  | p :: q :: ps => p ++ c :: joined c (q :: ps)

theorem cut_of_notMem {c : Char} {cs : List Char} (h : c ∉ cs) : cut c cs = (cs, none) := by
  induction cs with
  | nil => rfl
  | cons x xs ih =>
      obtain ⟨hx, hxs⟩ := not_or.1 (mt List.mem_cons.2 h)
      simp [cut, Ne.symm hx, ih hxs]

theorem cut_append {c : Char} {before : List Char} (h : c ∉ before) (after : List Char) :
    cut c (before ++ c :: after) = (before, some after) := by
  induction before with
  | nil => simp [cut]
  | cons x xs ih =>
      obtain ⟨hx, hxs⟩ := not_or.1 (mt List.mem_cons.2 h)
      simp [cut, Ne.symm hx, ih hxs]

/-- A text that is followed by the character is cut as it is, or at the end. -/
theorem cut_append_cons (c : Char) (front rest : List Char) :
    cut c (front ++ c :: rest)
      = ((cut c front).1, some (((cut c front).2.map (· ++ c :: rest)).getD rest)) := by
  induction front with
  | nil => simp [cut]
  | cons x xs ih =>
      by_cases h : x = c
      · simp [cut, h]
      · simp [cut, h, ih]

/-- A text is cut where the character stands first, if it is there. -/
theorem cut_cases (c : Char) (cs : List Char) :
    (c ∉ cs ∧ cut c cs = (cs, none)) ∨
      ∃ before after, c ∉ before ∧ cs = before ++ c :: after ∧
        cut c cs = (before, some after) := by
  by_cases h : c ∈ cs
  · obtain ⟨before, after, rfl, hbefore⟩ := List.eq_append_cons_of_mem h
    exact .inr ⟨before, after, hbefore, rfl, cut_append hbefore after⟩
  · exact .inl ⟨h, cut_of_notMem h⟩

/-- What is cut gives the text back, with the character in its place. -/
theorem cut_append_eq (c : Char) (cs : List Char) :
    (cut c cs).1 ++ ((cut c cs).2.map (c :: ·)).getD [] = cs := by
  obtain ⟨-, hcut⟩ | ⟨before, after, -, hcs, hcut⟩ := cut_cases c cs
  · simp [hcut]
  · rw [hcut, hcs]
    rfl

theorem mem_of_mem_cut {c d : Char} {cs : List Char} (h : d ∈ (cut c cs).1) : d ∈ cs := by
  rw [← cut_append_eq c cs]
  exact List.mem_append_left _ h

theorem notMem_cut (c : Char) (cs : List Char) : c ∉ (cut c cs).1 := by
  obtain ⟨h, hcut⟩ | ⟨before, after, h, -, hcut⟩ := cut_cases c cs
  · rw [hcut]
    exact h
  · rw [hcut]
    exact h

theorem cut_append_of_notMem {c : Char} {front : List Char} (h : c ∉ front) (rest : List Char) :
    cut c (front ++ rest) = (front ++ (cut c rest).1, (cut c rest).2) := by
  induction front with
  | nil => rfl
  | cons x xs ih =>
      obtain ⟨hx, hxs⟩ := not_or.1 (mt List.mem_cons.2 h)
      simp [cut, Ne.symm hx, ih hxs]

theorem pieces_ne_nil (c : Char) (cs : List Char) : pieces c cs ≠ [] := by
  cases cs with
  | nil => simp [pieces]
  | cons x xs =>
      by_cases h : x = c
      · simp [pieces, h]
      · simp only [pieces, h, if_false]
        split <;> simp

theorem pieces_of_notMem {c : Char} {cs : List Char} (h : c ∉ cs) : pieces c cs = [cs] := by
  induction cs with
  | nil => rfl
  | cons x xs ih =>
      obtain ⟨hx, hxs⟩ := not_or.1 (mt List.mem_cons.2 h)
      simp [pieces, Ne.symm hx, ih hxs]

/-- A text is cut at each of its separators. -/
theorem pieces_append_cons (c : Char) (before after : List Char) :
    pieces c (before ++ c :: after) = pieces c before ++ pieces c after := by
  induction before with
  | nil => simp [pieces]
  | cons x xs ih =>
      by_cases h : x = c
      · simp [pieces, h, ih]
      · simp only [List.cons_append, pieces, h, if_false, ih]
        cases hp : pieces c xs with
        | nil => exact absurd hp (pieces_ne_nil c xs)
        | cons p ps => rfl

theorem notMem_of_mem_pieces {c : Char} {cs p : List Char} (h : p ∈ pieces c cs) : c ∉ p := by
  induction cs generalizing p with
  | nil =>
      rw [pieces, List.mem_singleton] at h
      simp [h]
  | cons x xs ih =>
      by_cases hx : x = c
      · simp only [pieces, hx, if_true, List.mem_cons] at h
        rcases h with rfl | h
        · simp
        · exact ih h
      · simp only [pieces, hx, if_false] at h
        cases hp : pieces c xs with
        | nil => exact absurd hp (pieces_ne_nil c xs)
        | cons q qs =>
            rw [hp] at ih h
            rcases List.mem_cons.1 h with rfl | h
            · simp [Ne.symm hx, ih List.mem_cons_self]
            · exact ih (List.mem_cons_of_mem _ h)

theorem mem_of_mem_pieces {c d : Char} {cs p : List Char} (h : p ∈ pieces c cs) (hd : d ∈ p) :
    d ∈ cs := by
  induction cs generalizing p with
  | nil =>
      rw [pieces, List.mem_singleton] at h
      rw [h] at hd
      cases hd
  | cons x xs ih =>
      by_cases hx : x = c
      · simp only [pieces, hx, if_true, List.mem_cons] at h
        rcases h with rfl | h
        · cases hd
        · exact List.mem_cons_of_mem _ (ih h hd)
      · simp only [pieces, hx, if_false] at h
        cases hp : pieces c xs with
        | nil => exact absurd hp (pieces_ne_nil c xs)
        | cons q qs =>
            rw [hp] at ih h
            rcases List.mem_cons.1 h with rfl | h
            · rcases List.mem_cons.1 hd with rfl | hd
              · exact List.mem_cons_self
              · exact List.mem_cons_of_mem _ (ih List.mem_cons_self hd)
            · exact List.mem_cons_of_mem _ (ih (List.mem_cons_of_mem _ h) hd)

/-- Joining the pieces gives the text back. -/
theorem joined_pieces (c : Char) (cs : List Char) : joined c (pieces c cs) = cs := by
  induction cs with
  | nil => rfl
  | cons x xs ih =>
      by_cases h : x = c
      · subst h
        simp only [pieces, if_true]
        cases hp : pieces x xs with
        | nil => exact absurd hp (pieces_ne_nil x xs)
        | cons p ps => rw [hp] at ih; simp [joined, ih]
      · simp only [pieces, h, if_false]
        cases hp : pieces c xs with
        | nil => exact absurd hp (pieces_ne_nil c xs)
        | cons p ps =>
            rw [hp] at ih
            cases ps with
            | nil => simpa [joined] using ih
            | cons q qs => simpa [joined] using ih

/-- Cutting what is joined gives the pieces back. -/
theorem pieces_joined {c : Char} {ps : List (List Char)} (hne : ps ≠ []) (h : ∀ p ∈ ps, c ∉ p) :
    pieces c (joined c ps) = ps := by
  induction ps with
  | nil => exact absurd rfl hne
  | cons p ps ih =>
      obtain ⟨hp, hps⟩ := List.forall_mem_cons.1 h
      cases ps with
      | nil => exact pieces_of_notMem hp
      | cons q ps =>
          rw [joined, pieces_append_cons, pieces_of_notMem hp, ih (List.cons_ne_nil q ps) hps,
            List.singleton_append]

theorem mem_joined {c d : Char} {ps : List (List Char)} (h : d ∈ joined c ps) :
    d = c ∨ ∃ p ∈ ps, d ∈ p := by
  induction ps with
  | nil => cases h
  | cons p ps ih =>
      cases ps with
      | nil => exact .inr ⟨p, List.mem_cons_self, h⟩
      | cons q ps =>
          rcases List.mem_append.1 h with h | h
          · exact .inr ⟨p, List.mem_cons_self, h⟩
          · rcases List.mem_cons.1 h with h | h
            · exact .inl h
            · exact (ih h).imp_right fun ⟨r, hr, hd⟩ => ⟨r, List.mem_cons_of_mem p hr, hd⟩

theorem joined_append {c : Char} {ps qs : List (List Char)} (hps : ps ≠ []) (hqs : qs ≠ []) :
    joined c (ps ++ qs) = joined c ps ++ c :: joined c qs := by
  induction ps with
  | nil => exact absurd rfl hps
  | cons p ps ih =>
      cases ps with
      | nil =>
          obtain ⟨q, qs, rfl⟩ := List.exists_cons_of_ne_nil hqs
          rfl
      | cons r ps =>
          rw [List.cons_append, List.cons_append, joined, ← List.cons_append,
            ih (List.cons_ne_nil r ps), joined, List.append_assoc, List.cons_append]

end AcmeClient.Text
