/-!
# Classes of characters, and white space of all scripts

A class of characters that is a union of intervals is given by the ascending list of the code points
where membership changes: the first bound enters the class, the second leaves it, and so on.

Besides the six ASCII blanks, the four ASCII information separators, NEL, the no-break space and
the space separators of Unicode count as white space.

* **`Span.contains`** decides membership in a class that is given by its bounds.
* **`isBlank`** decides the class of one character; **`isSpace`** is the class without the
  information separators.
* **`strip`**, **`stripWhere`** remove a class of characters from both ends of a text.
-/

namespace AcmeClient.Text

/-- `n` is in the class when an odd number of bounds are at most `n`. -/
def Span.contains (bounds : List Nat) (n : Nat) : Bool :=
  (bounds.takeWhile (· ≤ n)).length % 2 == 1

/-- White space of any script. -/
def isBlank (c : Char) : Bool :=
  let n := c.toNat
  (9 ≤ n && n ≤ 13) || (0x1c ≤ n && n ≤ 0x20) || n == 0x85 || n == 0xa0 || n == 0x1680
    || (0x2000 ≤ n && n ≤ 0x200a) || n == 0x2028 || n == 0x2029 || n == 0x202f || n == 0x205f
    || n == 0x3000

/-- White space of any script, apart from the four information separators. -/
def isSpace (c : Char) : Bool :=
  isBlank c && !(0x1c ≤ c.toNat && c.toNat ≤ 0x1f)

/-- The characters of a text without those of the class `p` at its end. -/
def trimEnd (p : Char → Bool) (cs : List Char) : List Char :=
  (cs.reverse.dropWhile p).reverse

/-- The characters of a text without those of the class `p` at its two ends. -/
def trimWhere (p : Char → Bool) (cs : List Char) : List Char :=
  trimEnd p (cs.dropWhile p)

theorem trimEnd_concat (p : Char → Bool) (cs : List Char) (c : Char) :
    trimEnd p (cs ++ [c]) = if p c then trimEnd p cs else cs ++ [c] := by
  rw [trimEnd, List.reverse_append, List.reverse_singleton, List.singleton_append,
    List.dropWhile_cons]
  split
  · rfl
  · rw [List.reverse_cons, List.reverse_reverse]

theorem length_trimEnd_le (p : Char → Bool) (cs : List Char) :
    (trimEnd p cs).length ≤ cs.length := by
  have hle := (List.dropWhile_suffix p (l := cs.reverse)).length_le
  rwa [List.length_reverse, ← List.length_reverse] at hle

/-- Nothing is removed at an end where another class of characters stands. -/
theorem trimEnd_eq_self_iff {p : Char → Bool} {cs : List Char} :
    trimEnd p cs = cs ↔ ∀ c, cs.getLast? = some c → p c = false := by
  rcases List.eq_nil_or_concat cs with rfl | ⟨front, c, rfl⟩
  · simp [trimEnd]
  · rw [List.concat_eq_append, trimEnd_concat, List.getLast?_concat]
    by_cases hc : p c = true
    · rw [if_pos hc]
      constructor
      · intro h
        have hlength := length_trimEnd_le p front
        rw [h, List.length_append, List.length_singleton] at hlength
        omega
      · intro h
        rw [h c rfl] at hc
        cases hc
    · rw [if_neg hc]
      simp [hc]

/-- Nothing is removed in front of another class of characters. -/
theorem trimWhere_of_head {p : Char → Bool} {cs : List Char}
    (h : ∀ c, cs.head? = some c → p c = false) : trimWhere p cs = trimEnd p cs := by
  rw [trimWhere]
  cases cs with
  | nil => rfl
  | cons c cs => rw [List.dropWhile_cons_of_neg (by simp [h c rfl])]

theorem mem_of_mem_trimWhere {p : Char → Bool} {cs : List Char} {c : Char}
    (h : c ∈ trimWhere p cs) : c ∈ cs := by
  have hback : c ∈ (cs.dropWhile p).reverse :=
    (List.dropWhile_suffix p).mem (List.mem_reverse.1 h)
  exact (List.dropWhile_suffix p).mem (List.mem_reverse.1 hback)

/-- A text without the characters of the class `p` at its two ends. -/
def stripWhere (p : Char → Bool) (s : String) : String :=
  String.ofList (trimWhere p s.toList)

def strip (s : String) : String :=
  stripWhere isBlank s

end AcmeClient.Text
