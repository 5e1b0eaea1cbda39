import AcmeClient.Proofs.Json.Legible
import AcmeClient.Proofs.Results

/-!
# The JSON forms of claims

A claim is converted when it is put into a draft, and written later. Whatever it is, what is written
is the form that its kind calls for:

* `Value.plain` — the JSON form of a value;
* `Value.IsClaim` — the values that have a text that can be read back;
* `IsClaim.legible` — their forms are legible;
* `IsClaim.serialize_eq`, `IsClaim.convert_eq` — what is kept of a claim is its form.
-/

namespace AcmeClient

open Number

namespace Value

/-! ### Forms -/

mutual

/-- The JSON form of a value: an instant is its timestamp, a constant its name, an identifier an
object of its kind and value, and a draft the object that its members make. -/
def plain : Value → Json
  | .null => .null
  | .bool b => .bool b
  | .int n => .int n
  | .float x => .float x
  | .string s => .string s
  | .octets bs => .array (bs.map fun b => .int b.toNat)
  | .instant t => .string (t.stamp?.getD "")
  | .constant c => .string c.name
  | .identifier kind value => .object [("type", .string kind.name), ("value", plain value)]
  | .document members => .object members
  | .draft members => .object (plainMembers members)
  | .list items => .array (plainItems items)
  | .tuple items => .array (plainItems items)
  | .record members => .object (plainMembers members)

def plainItems : List Value → List Json
  | [] => []
  | v :: rest => plain v :: plainItems rest

def plainMembers : List (String × Value) → Members
  | [] => []
  | (n, v) :: rest => (n, plain v) :: plainMembers rest

end

/-- Whether a value is a claim with a text that can be read back: it has no floating point numbers,
its integers respect the limit of digits, and names are distinct. An instant has to know its offset. A
document and the members of a draft are JSON already. In an identifier only some kinds have a form. -/
inductive IsClaim : (inIdentifier : Bool) → Value → Prop where
  | null {inside} : IsClaim inside .null
  | bool {inside} (b : Bool) : IsClaim inside (.bool b)
  | int {inside} {n : Int} : (numeral n.natAbs).length ≤ Json.digitLimit → IsClaim inside (.int n)
  | string {inside} (s : String) : IsClaim inside (.string s)
  | instant {t : Calendar.Instant} : t.offset.isSome → IsClaim false (.instant t)
  | constant {inside} (c : Constant) : IsClaim inside (.constant c)
  | identifier {inside} {kind : IdentifierKind} {v : Value} : IsClaim true v →
      IsClaim inside (.identifier kind v)
  | document {ms : Members} : Json.Legible (.object ms) → IsClaim false (.document ms)
  | draft {ms : Members} : Json.Legible (.object ms) → IsClaim false (.draft (ofMembers ms))
  | list {inside} {items : List Value} : (∀ v ∈ items, IsClaim inside v) → IsClaim inside (.list items)
  | tuple {inside} {items : List Value} : (∀ v ∈ items, IsClaim inside v) →
      IsClaim inside (.tuple items)
  | record {inside} {members : List (String × Value)} : (members.map Prod.fst).Nodup →
      (∀ p ∈ members, IsClaim inside p.2) → IsClaim inside (.record members)

theorem plainItems_eq_map (items : List Value) : plainItems items = items.map plain := by
  induction items with
  | nil => rfl
  | cons v items ih => rw [plainItems, ih, List.map_cons]

theorem plainMembers_eq_map (members : List (String × Value)) :
    plainMembers members = members.map fun p => (p.1, plain p.2) := by
  induction members with
  | nil => rfl
  | cons p members ih => rw [plainMembers, ih, List.map_cons]

mutual

/-- A JSON value is its own form. -/
theorem plain_ofJson : ∀ j, (ofJson j).plain = j
  | .null => rfl
  | .bool _ => rfl
  | .int _ => rfl
  | .float _ => rfl
  | .string _ => rfl
  | .array items => by rw [ofJson, plain, plainItems_ofItems items]
  | .object ms => by rw [ofJson, plain, plainMembers_ofMembers ms]

theorem plainItems_ofItems : ∀ items, plainItems (ofItems items) = items
  | [] => rfl
  | j :: rest => by rw [ofItems, plainItems, plain_ofJson j, plainItems_ofItems rest]

theorem plainMembers_ofMembers : ∀ ms : Members, plainMembers (ofMembers ms) = ms
  | [] => rfl
  | (n, j) :: rest => by rw [ofMembers, plainMembers, plain_ofJson j, plainMembers_ofMembers rest]

end

theorem ofMembers_eq_map (ms : Members) : ofMembers ms = ms.map fun p => (p.1, ofJson p.2) := by
  induction ms with
  | nil => rfl
  | cons p ms ih => rw [ofMembers, ih, List.map_cons]

/-! ### What is kept of a claim -/

/-- Items that turn into their forms turn into the forms of the items. -/
theorem serializeItems_eq {items : List Value} (h : ∀ v ∈ items, v.serialize = ofJson v.plain) :
    serializeItems items = ofItems (plainItems items) := by
  induction items with
  | nil => rfl
  | cons v items ih =>
    obtain ⟨hv, hitems⟩ := List.forall_mem_cons.1 h
    rw [serializeItems, plainItems, ofItems, hv, ih hitems]

theorem serializeMembers_eq {members : List (String × Value)}
    (h : ∀ p ∈ members, p.2.serialize = ofJson p.2.plain) :
    serializeMembers members = ofMembers (plainMembers members) := by
  induction members with
  | nil => rfl
  | cons p members ih =>
    obtain ⟨hp, hmembers⟩ := List.forall_mem_cons.1 h
    rw [serializeMembers, plainMembers, ofMembers, hp, ih hmembers]

/-- Items that are converted into their forms are converted into the forms of the items. -/
theorem convertItems_eq {items ws : List Value}
    (h : ∀ v ∈ items, ∀ w, v.convert = .ok w → w = ofJson v.plain)
    (hws : convertItems items = .ok ws) : ws = ofItems (plainItems items) := by
  induction items generalizing ws with
  | nil =>
    cases hws
    rfl
  | cons v items ih =>
    obtain ⟨hv, hitems⟩ := List.forall_mem_cons.1 h
    rw [convertItems] at hws
    obtain ⟨w, hconvert, hws⟩ := bind_eq_ok.1 hws
    obtain ⟨rest, hrest, hws⟩ := bind_eq_ok.1 hws
    cases hws
    rw [plainItems, ofItems, ← hv w hconvert, ← ih hitems hrest]

theorem convertMembers_eq {members ws : List (String × Value)}
    (h : ∀ p ∈ members, ∀ w, p.2.convert = .ok w → w = ofJson p.2.plain)
    (hws : convertMembers members = .ok ws) : ws = ofMembers (plainMembers members) := by
  induction members generalizing ws with
  | nil =>
    cases hws
    rfl
  | cons p members ih =>
    obtain ⟨hp, hmembers⟩ := List.forall_mem_cons.1 h
    rw [convertMembers] at hws
    obtain ⟨w, hconvert, hws⟩ := bind_eq_ok.1 hws
    obtain ⟨rest, hrest, hws⟩ := bind_eq_ok.1 hws
    cases hws
    rw [plainMembers, ofMembers, ← hp w hconvert, ← ih hmembers hrest]

variable {inside : Bool} {v : Value}

/-- The form of a claim is legible. -/
theorem IsClaim.legible (h : IsClaim inside v) : v.plain.Legible := by
  induction h with
  | null | bool _ | string _ | instant _ | constant _ => trivial
  | int hn => exact hn
  | identifier _ ih => exact ⟨by simp, trivial, ih, trivial⟩
  | document hms => exact hms
  | draft hms =>
    rw [plain, plainMembers_ofMembers]
    exact hms
  | list _ ih | tuple _ ih =>
    rw [plain, plainItems_eq_map]
    exact Json.legibleItems_iff.2 (List.forall_mem_map.2 ih)
  | record hnames _ ih =>
    rw [plain, plainMembers_eq_map]
    refine ⟨?_, Json.legibleMembers_iff.2 (List.forall_mem_map.2 ih)⟩
    rw [List.map_map]
    exact hnames

/-- In an identifier a claim turns into its form. -/
theorem IsClaim.serialize_eq (h : IsClaim inside v) (hinside : inside = true) :
    v.serialize = ofJson v.plain := by
  induction h with
  | null | bool _ | int _ | string _ | constant _ => rfl
  | instant _ | document _ | draft _ => cases hinside
  | identifier _ ih =>
    rw [serialize, ih rfl]
    rfl
  | list _ ih | tuple _ ih =>
    rw [serialize, serializeItems_eq fun v hv => ih v hv hinside, plain, ofJson]
  | record _ _ ih => rw [serialize, serializeMembers_eq fun p hp => ih p hp hinside, plain, ofJson]

/-- A claim that is converted turns into its form. -/
theorem IsClaim.convert_eq (h : IsClaim inside v) (hinside : inside = false) {w : Value}
    (hw : v.convert = .ok w) : w = ofJson v.plain := by
  induction h generalizing w with
  | null | bool _ | int _ | string _ | constant _ | document _ =>
    cases hw
    rfl
  | @instant t _ =>
    rw [convert, stamp] at hw
    split at hw
    · cases hw
    · split at hw
      · rename_i s hs
        cases hw
        rw [plain, hs]
        rfl
      · cases hw
  | identifier hv _ =>
    cases hw
    exact serialize_eq (.identifier hv) rfl
  | draft _ =>
    cases hw
    rw [plain, plainMembers_ofMembers, ofJson]
  | list _ ih | tuple _ ih =>
    obtain ⟨ws, hws, rfl⟩ := map_eq_ok.1 hw
    rw [plain, ofJson, ← convertItems_eq (fun v hv w => ih v hv hinside) hws]
  | record _ _ ih =>
    obtain ⟨ws, hws, rfl⟩ := map_eq_ok.1 hw
    rw [plain, ofJson, ← convertMembers_eq (fun p hp w => ih p hp hinside) hws]

end Value

end AcmeClient
