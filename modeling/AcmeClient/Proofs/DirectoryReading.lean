import AcmeClient.Proofs.Json.Documents
import AcmeClient.Proofs.Json.Octets
import AcmeClient.Proofs.KnownDirectory

/-!
# What is read as a directory

An answer with a directory is a document whose notes stand under one name. Everything else in it is
kept as it is. The notes are searched for four names, and not every value can be searched:

* `Json.notesDefect?` — why a value cannot be read as notes, and `DirectoryMeta.ofJson_eq`;
* `Directory.ofJson_document` — the directory in a document;
* `Client.directory_ends` — what an access to the directory ends with when the server sent one.
-/

namespace AcmeClient

open Act Text

/-! ### Notes -/

namespace DirectoryMeta

def noteNames : List String :=
  ["termsOfService", "website", "caaIdentities", "externalAccountRequired"]

/-- Notes that say nothing. -/
def silent : DirectoryMeta :=
  ⟨.null, .null, .null, .null⟩

/-- What the members of an object say. -/
def ofMembers (ms : Members) : DirectoryMeta :=
  ⟨ms.get "termsOfService", ms.get "website", ms.get "caaIdentities",
    ms.get "externalAccountRequired"⟩

/-- What a value says that can be read as notes: nothing unless it is an object. -/
def ofNotes : Json → DirectoryMeta
  | .object ms => ofMembers ms
  | _ => silent

end DirectoryMeta

namespace Json

/-- Whether one of the names of the notes is found in a value. -/
def showsNote (j : Json) : Bool :=
  DirectoryMeta.noteNames.any fun name => (j.holds name).toOption = some true

/-- Why a value cannot be read as notes. Arrays and texts can be searched for a name, but nothing
stands under it; other values than objects cannot be searched at all. -/
def notesDefect? : Json → Option ContainerDefect
  | .object _ => none
  | .array items => if (Json.array items).showsNote then some .arrayIndex else none
  | .string s => if (Json.string s).showsNote then some .textIndex else none
  | j => some (.notSearchable j.kindName)

end Json

namespace DirectoryMeta

theorem read_object (ms : Members) (name : String) :
    read (.object ms) name = .ok (ms.get name) := by
  cases h : Members.get? ms name with
  | none => simp [read, contained, Json.holds, Members.has, Members.get, h]
  | some v => simp [read, contained, Json.holds, Json.under, Members.has, Members.get, h]

/-- Of a value that can be searched but has nothing under a name, silence is read unless one of the
names is found. -/
theorem ofJson_of_holds {j : Json} {found : String → Bool} {d : ContainerDefect}
    (hholds : ∀ name, j.holds name = .ok (found name)) (hunder : ∀ name, j.under name = .error d) :
    ofJson j = if j.showsNote then .error (.container d) else .ok silent := by
  have hstep (name : String) (k : Json → Except Fault DirectoryMeta) :
      (read j name >>= k) = if found name then .error (.container d) else k .null := by
    rw [read, hholds, hunder]
    cases found name with
    | true => rfl
    | false => rfl
  have hshows : j.showsNote = noteNames.any found := by
    simp [Json.showsNote, hholds, Except.toOption]
  simp only [ofJson, hstep, hshows, noteNames, List.any_cons, List.any_nil, Bool.or_false]
  cases found "termsOfService" with
  | true => rfl
  | false =>
    cases found "website" with
    | true => rfl
    | false =>
      cases found "caaIdentities" with
      | true => rfl
      | false => rfl

/-- Notes are read from every value without a defect. -/
theorem ofJson_eq (j : Json) : ofJson j =
    match j.notesDefect? with
    | some d => .error (.container d)
    | none => .ok (ofNotes j) := by
  cases j with
  | object ms => simp [ofJson, read_object, Json.notesDefect?, ofNotes, ofMembers]
  | array items =>
    rw [ofJson_of_holds (fun _ => rfl) fun _ => rfl, Json.notesDefect?]
    cases (Json.array items).showsNote with
    | true => rfl
    | false => rfl
  | string s =>
    rw [ofJson_of_holds (fun _ => rfl) fun _ => rfl, Json.notesDefect?]
    cases (Json.string s).showsNote with
    | true => rfl
    | false => rfl
  | null => rfl
  | bool b => rfl
  | int n => rfl
  | float x => rfl

end DirectoryMeta

/-! ### Directories -/

/-- The notes in the document of a directory; a document without notes has empty ones. -/
def Members.notes (ms : Members) : Json :=
  (ms.get? Directory.metaName).getD (.object [])

namespace Directory

variable {ms : Members}

/-- The pairs of an object. -/
theorem pairs_object (ms : Members) :
    Json.pairs (.object ms) = .ok (ms.map fun p => (.string p.1, p.2)) :=
  rfl

theorem isEntry_string (name : String) (value : Json) :
    isEntry (.string name, value) = decide (name ≠ metaName) := by
  simp [isEntry, Json.string?]

/-- Of distinct names the last one that is found is the only one. -/
theorem find?_notes (h : ms.names.Nodup) :
    ((ms.map fun p => ((Json.string p.1, p.2) : Json × Json)).reverse.find? fun p => !isEntry p).map
      Prod.snd = ms.get? metaName := by
  induction ms with
  | nil => rfl
  | cons m ms ih =>
    obtain ⟨name, value⟩ := m
    obtain ⟨hnew, hnames⟩ := List.nodup_cons.1 h
    rw [List.map_cons, List.reverse_cons, List.find?_append, Option.map_or, ih hnames]
    by_cases hm : name = metaName
    · have hrest : Members.get? ms metaName = none := by
        refine List.lookup_eq_none_iff.2 fun p hp => ?_
        have hp : p.1 ∈ ms.map Prod.fst := List.mem_map_of_mem hp
        rw [← hm]
        simpa using fun he : name = p.1 => hnew (he ▸ hp)
      rw [hrest]
      simp [isEntry_string, hm, Members.get?]
    · have hne : (metaName == name) = false := by simpa using fun he => hm he.symm
      simp [isEntry_string, hm, Members.get?, List.lookup_cons, hne]

/-- What is under the other names are the entries. -/
theorem named_entries (ms : Members) :
    Json.named ((ms.map fun p => ((Json.string p.1, p.2) : Json × Json)).filter isEntry)
      = .ok (ms.remove metaName) := by
  induction ms with
  | nil => rfl
  | cons m ms ih =>
    by_cases hm : m.1 = metaName
    · simpa [isEntry_string, hm, Members.remove] using ih
    · simp only [List.map_cons, List.filter_cons, isEntry_string]
      simp [Json.named, ih, Members.remove, hm]

/-- The directory in a document with distinct names: its entries, and the notes if they can be
read. -/
theorem ofJson_document (h : ms.names.Nodup) : ofJson (.object ms) =
    match ms.notes.notesDefect? with
    | some d => .error (.container d)
    | none => .ok ⟨ms.remove metaName, .ofNotes ms.notes⟩ := by
  have hentries : Members.ofPairs (ms.remove metaName) = ms.remove metaName :=
    Members.ofPairs_of_nodup (h.sublist (List.filter_sublist.map Prod.fst))
  rw [ofJson, pairs_object]
  dsimp only [contained, ok_mapError]
  rw [ok_bind, find?_notes h, named_entries, ← Members.notes, DirectoryMeta.ofJson_eq]
  cases ms.notes.notesDefect? with
  | some d => rfl
  | none => exact congrArg (fun es => Except.ok (Directory.mk es _)) hentries

end Directory

/-! ### Access to the directory -/

/-- Whether an answer carries no nonce, or one that can be read. -/
def Response.NonceIsReadable (r : Response) : Prop :=
  ∀ text, r.headers.get? Exchange.nonceHeader = some text →
    ∃ token, decodeHeaderNonce text = .ok token

def Response.directoryDocument (r : Response) (url : String) : Except Fault Members :=
  match (Body.octets r.content).document with
  | .error d =>
      .error (.protocol (if r.content.isEmpty then .emptyBody (some url) else .document d))
  | .ok ms => .ok ms

/-- A nonce that is absent or can be read is no obstacle. -/
theorem Exchange.run_keepNonce_of_readable {r : Response} (h : r.NonceIsReadable)
    (env : Environment) (s : Client × Connection) :
    ∃ c, (keepNonce r false).run env s = (.ok (), (c, s.2)) := by
  rw [keepNonce]
  cases hheader : r.headers.get? nonceHeader with
  | none => exact ⟨s.1, rfl⟩
  | some text =>
    obtain ⟨token, htoken⟩ := h text hheader
    refine ⟨{ s.1 with session := { s.1.session with nonces := s.1.session.nonces.add token } }, ?_⟩
    show (onFirst (Client.offerNonce text) : Exchange Unit).run env _ = _
    rw [run_onFirst, Client.offerNonce, run_bind, run_lift, htoken]
    rfl

namespace Client

variable {env : Environment} {c : Client} {r : Response}

/-- What is fetched from a server that answers is the document of the answer. -/
theorem run_fetchDirectory
    (hreply : env.server (c.sent ++ [c.session.directoryRequest]) = .response r)
    (hstatus : r.status = 200) (hnonce : r.NonceIsReadable) :
    ∃ c', (connected (fetchDirectory c.session.directoryUrl)).run env c
      = (r.directoryDocument c.session.directoryUrl, c') := by
  have hsession : (onFirst getSession : Exchange Session).run env (c, .idle)
      = (.ok c.session, (c, .idle)) := rfl
  have hsend := Exchange.run_send env (c, .idle) (q := c.session.directoryRequest) rfl
  rw [hreply] at hsend
  obtain ⟨c', hkeep⟩ := Exchange.run_keepNonce_of_readable hnonce env
    ({ c with sent := c.sent ++ [c.session.directoryRequest] },
      ⟨some r, some c.session.directoryUrl, none⟩)
  have hplain : (Exchange.sendPlain c.session.directoryUrl Exchange.jsonType).run env (c, .idle)
      = (.ok r.status, (c', ⟨some r, some c.session.directoryUrl, none⟩)) := by
    rw [Exchange.sendPlain, run_bind_of_ok env hsession, run_bind_of_ok env hsend,
      run_bind_of_ok env hkeep]
    rfl
  have haccept : (Exchange.accept [200]).run env
        (c', ⟨some r, some c.session.directoryUrl, none⟩)
      = (.ok r.status, (c', ⟨some r, some c.session.directoryUrl, none⟩)) :=
    Exchange.run_accept_of_mem (List.mem_singleton.2 hstatus)
  refine ⟨c', ?_⟩
  rw [connected, run_within, fetchDirectory, run_bind_of_ok env hplain, run_bind, run_tryCatch,
    run_bind_of_ok env haccept, run_pure]
  dsimp only
  rw [Exchange.run_readJson, Response.directoryDocument]
  cases hdocument : (Body.octets r.content).document with
  | error d =>
    cases r.content.isEmpty with
    | true => rfl
    | false => rfl
  | ok ms =>
    rw [Body.isEmpty_of_document hdocument]
    rfl

/-- What is read from a document is its directory. -/
theorem readDirectory_document {ms : Members} (h : ms.names.Nodup) : readDirectory ms =
    match ms.notes.notesDefect? with
    | some d => .error (.container d)
    | none => .ok ⟨ms.remove Directory.metaName, .ofNotes ms.notes⟩ := by
  rw [readDirectory, Directory.ofJson_document h]
  cases ms.notes.notesDefect? with
  | some d => rfl
  | none => rfl

/-- **What an access to the directory ends with.** When the server answers a client that has no
directory yet with the status of success, and with no nonce or one that can be read, an access has
one of three ends. If the body is no JSON object, that breaks the protocol. If its notes are missing
or an object, or an array or a text in which none of their names is found, the entries and the notes
are the directory. All other notes end the access with the fault of a value that is no container. -/
theorem directory_ends (hunknown : c.session.directory = none)
    (hreply : env.server (c.sent ++ [c.session.directoryRequest]) = .response r)
    (hstatus : r.status = 200) (hnonce : r.NonceIsReadable) :
    (directory.run env c).1 =
      match (Body.octets r.content).document with
      | .error d => .error (.protocol
          (if r.content.isEmpty then .emptyBody (some c.session.directoryUrl) else .document d))
      | .ok ms =>
          match ms.notes.notesDefect? with
          | some d => .error (.container d)
          | none => .ok ⟨ms.remove Directory.metaName, .ofNotes ms.notes⟩ := by
  have hsession : getSession.run env c = (.ok c.session, c) := rfl
  obtain ⟨c', hfetch⟩ := run_fetchDirectory hreply hstatus hnonce
  rw [directory, run_bind_of_ok env hsession, hunknown]
  dsimp only
  rw [run_bind, hfetch, Response.directoryDocument]
  cases hdocument : (Body.octets r.content).document with
  | error d => rfl
  | ok ms =>
    dsimp only
    rw [run_bind, run_lift, readDirectory_document (Body.nodup_of_document hdocument)]
    cases ms.notes.notesDefect? with
    | some d => rfl
    | none => rfl

def nullNotes : Response :=
  ⟨200, none, ⟨[]⟩, Utf8.encode ((Json.object [("meta", .null)]).render .plain)⟩

/-- An access to that directory neither succeeds nor finds the protocol broken. -/
theorem directory_ends_null_notes :
    let env : Environment := ⟨fun _ => .response nullNotes, fun _ => ⟨0, some 0⟩⟩
    let c := ofSession .sample
    c.session.directory = none ∧
      env.server (c.sent ++ [c.session.directoryRequest]) = .response nullNotes ∧
      nullNotes.status = 200 ∧ nullNotes.NonceIsReadable ∧
      (directory.run env c).1 = .error (.container (.notSearchable "NoneType")) := by
  intro env c
  have hnonce : nullNotes.NonceIsReadable := by
    intro text htext
    cases htext
  have hdocument : (Body.octets nullNotes.content).document = .ok [("meta", .null)] :=
    Body.document_plain ⟨by simp, by simp [Json.LegibleMembers, Json.Legible]⟩
  have hnotes : Members.notes [("meta", .null)] = .null := by
    simp [Members.notes, Members.get?, Directory.metaName]
  have hends : (directory.run env c).1 = _ := directory_ends (r := nullNotes) rfl rfl rfl hnonce
  rw [hdocument] at hends
  dsimp only at hends
  rw [hnotes] at hends
  exact ⟨rfl, rfl, rfl, hnonce, hends⟩

end Client

end AcmeClient
