import AcmeClient.Json.Parser
import AcmeClient.Json.Printer

/-!
# The values a text can give back

Not every value survives being written and read: a floating point number has a text of its own, a
long integer is refused, and of two members with one name only the last is kept. And a layout that
sorts members gives them back sorted. What is left:

* `Legible` — the values that can be read back;
* `arranged` — a value with its members in the order of a layout;
* `Members.ofPairs_of_nodup` — pairs with distinct names make up an object as they stand;
* `ordered_writeMembers` — the written members are the ordered members, written.
-/

namespace AcmeClient

open Number Text

namespace Members

/-- Names that differ from all before them are put at the end. -/
theorem put_of_notMem {name : String} {value : Json} {ms : Members} (h : name ∉ ms.names) :
    put name value ms = ms ++ [(name, value)] := by
  induction ms with
  | nil => rfl
  | cons m ms ih =>
    have hne : m.1 ≠ name := fun he => h (by simp [names, he])
    have hrest : name ∉ Members.names ms := fun hm => h (by simp_all [names])
    rw [put, if_neg hne, ih hrest]
    rfl

/-- Pairs with distinct names make up an object as they stand. -/
theorem ofPairs_of_nodup {ps : List (String × Json)} (h : (ps.map Prod.fst).Nodup) :
    ofPairs ps = ps := by
  have key : ∀ (qs : List (String × Json)) (ms : Members),
      ((ms ++ qs).map Prod.fst).Nodup → qs.foldl (fun ms p => put p.1 p.2 ms) ms = ms ++ qs := by
    intro qs
    induction qs with
    | nil =>
      intro ms _
      exact (List.append_nil ms).symm
    | cons q qs ih =>
      intro ms hms
      have hq : q.1 ∉ Members.names ms := by
        rw [List.map_append, List.map_cons, List.nodup_append] at hms
        intro hm
        exact hms.2.2 q.1 hm q.1 (by simp) rfl
      rw [List.foldl_cons, put_of_notMem hq, ih]
      · simp
      · simpa using hms
  exact key ps [] h

end Members

namespace Json

/-! ### What can be read back -/

mutual

/-- Whether a value can be read back from its text: it has no floating point numbers, its integers
respect the limit of digits, and no object in it shows a name twice. -/
def Legible : Json → Prop
  | .null | .bool _ | .string _ => True
  | .int n => (numeral n.natAbs).length ≤ digitLimit
  | .float _ => False
  | .array items => LegibleItems items
  | .object members => (members.map Prod.fst).Nodup ∧ LegibleMembers members

/-- Whether all items can be read back. -/
def LegibleItems : List Json → Prop
  | [] => True
  | x :: xs => Legible x ∧ LegibleItems xs

/-- Whether the values of all members can be read back. -/
def LegibleMembers : List (String × Json) → Prop
  | [] => True
  | (_, x) :: xs => Legible x ∧ LegibleMembers xs

end

/-- Members in the order of a layout. -/
def Layout.order (l : Layout) (ms : Members) : Members :=
  if l.sorted then ms.mergeSort fun a b => decide (a.1 ≤ b.1) else ms

mutual

/-- A value whose members are in the order of a layout. -/
def arranged (l : Layout) : Json → Json
  | .array items => .array (arrangedItems l items)
  | .object members => .object (l.order (arrangedMembers l members))
  | j => j

def arrangedItems (l : Layout) : List Json → List Json
  | [] => []
  | x :: xs => arranged l x :: arrangedItems l xs

def arrangedMembers (l : Layout) : List (String × Json) → List (String × Json)
  | [] => []
  | (n, x) :: xs => (n, arranged l x) :: arrangedMembers l xs

end

theorem legibleItems_iff {xs : List Json} : LegibleItems xs ↔ ∀ x ∈ xs, Legible x := by
  induction xs with
  | nil => simp [LegibleItems]
  | cons x xs ih => simp [LegibleItems, ih]

theorem legibleMembers_iff {ms : Members} : LegibleMembers ms ↔ ∀ p ∈ ms, Legible p.2 := by
  induction ms with
  | nil => simp [LegibleMembers]
  | cons p ms ih => simp [LegibleMembers, ih]

theorem arrangedMembers_eq_map (l : Layout) (ms : Members) :
    arrangedMembers l ms = ms.map fun p => (p.1, arranged l p.2) := by
  induction ms with
  | nil => rfl
  | cons p ms ih => simp [arrangedMembers, ih]

theorem writeItems_eq_map (l : Layout) (items : List Json) :
    writeItems l items = items.map (write l) := by
  induction items with
  | nil => rfl
  | cons x xs ih => rw [writeItems, ih, List.map_cons]

def writeMember (l : Layout) (p : String × Json) : List Char :=
  renderString p.1 ++ l.nameSeparator ++ write l p.2

theorem writeMembers_eq_map (l : Layout) (ms : Members) :
    writeMembers l ms = ms.map fun p => (p.1, writeMember l p) := by
  induction ms with
  | nil => rfl
  | cons p ms ih => simp [writeMembers, writeMember, ih]

/-- Sorting looks at names only, so it may come before or after a change of the values. -/
theorem Layout.order_map (l : Layout) (f : String × Json → Json) (ms : Members) :
    l.order (ms.map fun p => (p.1, f p)) = (l.order ms).map fun p => (p.1, f p) := by
  unfold Layout.order
  split
  · rw [List.map_mergeSort]
    intro a _ b _
    rfl
  · rfl

/-- The written members in the order of a layout are the members in that order, written. -/
theorem ordered_writeMembers (l : Layout) (ms : Members) :
    (if l.sorted then (writeMembers l ms).mergeSort nameLE else writeMembers l ms).map Prod.snd
      = (l.order ms).map (writeMember l) := by
  rw [writeMembers_eq_map]
  unfold Layout.order
  split
  · rw [← List.map_mergeSort (r := fun a b => decide (a.1 ≤ b.1)), List.map_map]
    · rfl
    · intro a _ b _
      rfl
  · rw [List.map_map]
    rfl

theorem Layout.order_perm (l : Layout) (ms : Members) : (l.order ms).Perm ms := by
  unfold Layout.order
  split
  · exact List.mergeSort_perm ms _
  · exact List.Perm.refl ms

end Json

end AcmeClient
