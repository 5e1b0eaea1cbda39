import AcmeClient.Proofs.DirectoryReading
import AcmeClient.Proofs.Json.Trees

/-!
# Directories are read back

The directory of a document keeps the entries as they stand and puts the notes behind them. Of the
notes it writes those with one of the four names that say something, and what is written for it is
read as a directory that is written in the same way:

* `Members.get?_remove`, `Members.get?_filter` — what is left under the names of an object;
* `DirectoryMeta.get?_members` — what is written of the notes;
* `DirectoryMeta.members_ofMembers_members` — it is written again when it is read;
* `Directory.Presents` — what a directory shows of a document, and what is written for it;
* `Directory.entries_are_kept` — so does the directory of every document whose notes are an object.
-/

namespace AcmeClient

/-! ### What is left of an object -/

namespace Members

variable {ms : Members} {name : String}

theorem names_remove (ms : Members) (gone : String) :
    (ms.remove gone).names = ms.names.filter (· ≠ gone) := by
  rw [names, names, remove, List.filter_map]
  rfl

theorem get?_remove_self (ms : Members) (gone : String) : (ms.remove gone).get? gone = none := by
  refine List.lookup_eq_none_iff.2 fun p hp => ?_
  have hne : p.1 ≠ gone := of_decide_eq_true (List.mem_filter.1 hp).2
  simpa using hne.symm

/-- The other names keep their values. -/
theorem get?_remove {gone : String} (h : name ≠ gone) :
    (ms.remove gone).get? name = ms.get? name := by
  induction ms with
  | nil => rfl
  | cons m ms ih =>
    by_cases hm : m.1 = gone
    · have hskip : (name == m.1) = false := by simpa [hm] using h
      have hremove : remove gone (m :: ms) = remove gone ms := by simp [remove, hm]
      rw [hremove, ih, get?, get?, List.lookup_cons, hskip]
    · have hremove : remove gone (m :: ms) = m :: remove gone ms := by simp [remove, hm]
      rw [hremove, get?, get?, List.lookup_cons, List.lookup_cons]
      cases name == m.1 with
      | true => rfl
      | false => exact ih

/-- Where names are distinct, a name keeps its value if the value is one to keep. -/
theorem get?_filter (h : ms.names.Nodup) (keeps : Json → Bool) :
    get? (ms.filter fun p => keeps p.2) name = (ms.get? name).filter keeps := by
  have hnames : Members.names (ms.filter fun p => keeps p.2) |>.Nodup :=
    h.sublist (List.filter_sublist.map Prod.fst)
  refine Option.ext fun j => ?_
  rw [get?_eq_some_iff hnames, List.mem_filter, Option.filter_eq_some_iff, get?_eq_some_iff h]

theorem get?_append (ms ns : Members) : get? (ms ++ ns) name = (ms.get? name).or (ns.get? name) :=
  List.lookup_append

/-- An object with one value for each of some names. -/
theorem get?_map (names : List String) (f : String → Json) :
    get? (names.map fun n => (n, f n)) name = if name ∈ names then some (f name) else none := by
  induction names with
  | nil => rfl
  | cons n names ih =>
    rw [List.map_cons, get?, List.lookup_cons]
    by_cases hn : name = n
    · simp [hn]
    · have hskip : (name == n) = false := by simpa using hn
      rw [hskip]
      refine ih.trans ?_
      simp [hn]

end Members

/-! ### What is written of the notes -/

namespace DirectoryMeta

variable {name : String}

/-- The notes that an object makes are written from what stands under the four names. -/
theorem members_ofMembers (ns : Members) :
    (ofMembers ns).members = (noteNames.map fun n => (n, ns.get n)).filter fun p => isSaid p.2 :=
  rfl

/-- Of the notes in an object those with one of the four names are written that say something. -/
theorem get?_members (ns : Members) (name : String) : (ofMembers ns).members.get? name
    = if name ∈ noteNames then (ns.get? name).filter isSaid else none := by
  have hnames : Members.names (noteNames.map fun n => (n, ns.get n)) |>.Nodup :=
    (by decide : noteNames.Nodup)
  rw [members_ofMembers, Members.get?_filter hnames, Members.get?_map]
  split
  · -- `null`, which stands for a name that is missing, says nothing
    cases hj : ns.get? name with
    | none => simp [Members.get, hj, isSaid, Json.isTruthy, Option.filter]
    | some j => simp [Members.get, hj]
  · rfl

/-- Notes that were written are written in the same way when they are read. -/
theorem members_ofMembers_members (ns : Members) :
    (ofMembers (ofMembers ns).members).members = (ofMembers ns).members := by
  have hread : ∀ n ∈ noteNames, (ofMembers ns).members.get n
      = if isSaid (ns.get n) then ns.get n else .null := by
    intro n hn
    rw [Members.get, get?_members, if_pos hn, Members.get]
    cases hj : ns.get? n with
    | none => simp [isSaid, Json.isTruthy, Option.filter]
    | some j => cases hsaid : isSaid j <;> simp [Option.filter, hsaid]
  -- a note that says nothing is left out before and after
  have hkept : noteNames.filter ((fun p : String × Json => isSaid p.2) ∘
        fun n => (n, (ofMembers ns).members.get n))
      = noteNames.filter ((fun p : String × Json => isSaid p.2) ∘ fun n => (n, ns.get n)) := by
    refine List.filter_congr fun n hn => ?_
    rw [Function.comp, Function.comp, hread n hn]
    cases hsaid : isSaid (ns.get n) with
    | true => simp [hsaid]
    | false => rfl
  calc (ofMembers (ofMembers ns).members).members
      = (noteNames.filter ((fun p : String × Json => isSaid p.2) ∘ fun n => (n, ns.get n))).map
          fun n => (n, (ofMembers ns).members.get n) := by
        rw [members_ofMembers, List.filter_map, hkept]
    _ = (noteNames.filter ((fun p : String × Json => isSaid p.2) ∘ fun n => (n, ns.get n))).map
          fun n => (n, ns.get n) := by
        refine List.map_congr_left fun n hn => ?_
        obtain ⟨hmem, hsaid⟩ := List.mem_filter.1 hn
        have hsaid : isSaid (ns.get n) = true := hsaid
        rw [hread n hmem, if_pos hsaid]
    _ = (ofMembers ns).members := by rw [members_ofMembers, List.filter_map]

end DirectoryMeta

/-! ### What a directory shows -/

namespace Directory

/-- Whether a directory shows a document: its names are those of the document with the name of the
notes at the end; the entries are found under their names, under constants and as attributes, and
nothing else is. What is written for it has the entries of the document and of its notes what they
say, and is read as a directory for which the same is written. -/
structure Presents (d : Directory) (ms : Members) : Prop where
  names : d.names = ms.names.filter (· ≠ metaName) ++ [metaName]
  entries : ∀ k : DirectoryKey, k.name ≠ metaName → ∀ j, ms.get? k.name = some j →
    d.entry k = .ok j ∧ d.attributeOf k.name = .ok j
  absent : ∀ k : DirectoryKey, k.name ∉ d.names →
    d.entry k = .error (.noEntry k.name) ∧ d.attributeOf k.name = .error (.lacking (.entry k.name))
  holds : ∀ k : DirectoryKey, d.holds k = true ↔ k.name ∈ d.names
  written : d.members.remove metaName = ms.remove metaName
  notes : ∃ ns said : Members, ms.notes = .object ns ∧
    d.members.get? metaName = some (.object said) ∧
    ∀ name, said.get? name =
      if name ∈ DirectoryMeta.noteNames then (ns.get? name).filter DirectoryMeta.isSaid else none
  settled : ∃ d', ofJson (.object d.members) = .ok d' ∧ d'.members = d.members

variable {ms ns : Members}

/-- The directory of a document whose notes are an object. -/
def ofDocument (ms ns : Members) : Directory :=
  ⟨ms.remove metaName, .ofMembers ns⟩

theorem ofJson_of_notes (h : ms.names.Nodup) (hnotes : ms.notes = .object ns) :
    ofJson (.object ms) = .ok (ofDocument ms ns) := by
  rw [ofJson_document h, hnotes]
  rfl

theorem members_ofDocument (ms ns : Members) : (ofDocument ms ns).members
    = ms.remove metaName ++ [(metaName, .object (DirectoryMeta.ofMembers ns).members)] :=
  rfl

theorem get?_members_metaName (ms ns : Members) : (ofDocument ms ns).members.get? metaName
    = some (.object (DirectoryMeta.ofMembers ns).members) := by
  rw [members_ofDocument, Members.get?_append, Members.get?_remove_self, Option.none_or,
    Members.get?, List.lookup_cons_self]

theorem get?_members_of_ne (ns : Members) {name : String} (h : name ≠ metaName) :
    (ofDocument ms ns).members.get? name = ms.get? name := by
  have hskip : (name == metaName) = false := by simpa using h
  rw [members_ofDocument, Members.get?_append, Members.get?_remove h]
  simp [Members.get?, List.lookup_cons, hskip]

theorem names_ofDocument (ms ns : Members) :
    (ofDocument ms ns).names = ms.names.filter (· ≠ metaName) ++ [metaName] := by
  rw [names, members_ofDocument, ← Members.names_remove]
  exact List.map_append

theorem nodup_names_ofDocument (h : ms.names.Nodup) : (ofDocument ms ns).names.Nodup := by
  rw [names_ofDocument, List.nodup_append]
  refine ⟨h.filter _, List.nodup_singleton _, fun name hname other hother => ?_⟩
  rw [List.mem_singleton.1 hother]
  exact of_decide_eq_true (List.mem_filter.1 hname).2

theorem remove_members_ofDocument (ms ns : Members) :
    (ofDocument ms ns).members.remove metaName = ms.remove metaName := by
  rw [members_ofDocument, Members.remove, List.filter_append]
  simp [Members.remove]

/-- What is written for the directory of a document is read as a directory for which the same is
written. -/
theorem settled_ofDocument (h : ms.names.Nodup) :
    ∃ d, ofJson (.object (ofDocument ms ns).members) = .ok d ∧
      d.members = (ofDocument ms ns).members := by
  have hnotes : (ofDocument ms ns).members.notes
      = .object (DirectoryMeta.ofMembers ns).members := by
    rw [Members.notes, get?_members_metaName, Option.getD_some]
  refine ⟨_, ofJson_of_notes (nodup_names_ofDocument h) hnotes, ?_⟩
  rw [members_ofDocument, remove_members_ofDocument, DirectoryMeta.members_ofMembers_members,
    members_ofDocument]

/-- **Entries are kept.** A document whose notes are missing or an object is read as a directory,
which shows it. -/
theorem entries_are_kept (hnames : ms.names.Nodup)
    (hnotes : ∀ j, ms.get? metaName = some j → ∃ ns, j = .object ns) :
    ∃ d, ofJson (.object ms) = .ok d ∧ d.Presents ms := by
  obtain ⟨ns, hns⟩ : ∃ ns, ms.notes = .object ns := by
    rw [Members.notes]
    cases hj : ms.get? metaName with
    | none => exact ⟨[], rfl⟩
    | some j => exact hnotes j hj
  have hmem : ∀ name, (ofDocument ms ns).members.get? name = none ↔
      name ∉ (ofDocument ms ns).names := by
    intro name
    rw [names, Members.mem_names_iff, ← Option.ne_none_iff_exists', not_not]
  refine ⟨ofDocument ms ns, ofJson_of_notes hnames hns, ?_⟩
  constructor
  case names => exact names_ofDocument ms ns
  case entries =>
    intro k hk j hj
    rw [← get?_members_of_ne ns hk] at hj
    rw [entry, lookup, attributeOf, hj]
    exact ⟨rfl, rfl⟩
  case absent =>
    intro k hk
    rw [entry, lookup, attributeOf, (hmem k.name).2 hk]
    exact ⟨rfl, rfl⟩
  case holds =>
    intro k
    rw [holds, has, Members.has, Option.isSome_iff_ne_none, Ne, hmem, not_not]
  case written => exact remove_members_ofDocument ms ns
  case notes =>
    exact ⟨ns, _, hns, get?_members_metaName ms ns, DirectoryMeta.get?_members ns⟩
  case settled => exact settled_ofDocument hnames

/-- A document with its notes in the middle: one of them says nothing, and one has another name. -/
def sampleDocument : Members :=
  [("newNonce", .string "https://acme.test/new-nonce"),
    ("meta", .object [("website", .string ""), ("caaIdentities", .array [.string "acme.test"]),
      ("x", .int 1)]),
    ("renewalInfo", .array [.null])]

theorem entries_are_kept_sample :
    sampleDocument.names.Nodup ∧
      (∀ j, sampleDocument.get? metaName = some j → ∃ ns, j = .object ns) ∧
      ∃ d, ofJson (.object sampleDocument) = .ok d ∧ d.Presents sampleDocument ∧
        d.names = ["newNonce", "renewalInfo", "meta"] ∧
        d.entry (.constant "renewalInfo") = .ok (.array [.null]) := by
  have hnames : sampleDocument.names.Nodup := by decide
  have hnotes : ∀ j, sampleDocument.get? metaName = some j → ∃ ns, j = .object ns := by
    intro j hj
    cases hj
    exact ⟨_, rfl⟩
  obtain ⟨d, hread, hpresents⟩ := entries_are_kept hnames hnotes
  refine ⟨hnames, hnotes, d, hread, hpresents, ?_, ?_⟩
  · rw [hpresents.names]
    decide
  · exact (hpresents.entries (.constant "renewalInfo") (by decide) _ rfl).1

end Directory

end AcmeClient
