import AcmeClient.Proofs.AlikeOperations
import AcmeClient.Proofs.Answers

/-!
# The directory is fetched once

A directory that is not known is asked for at each access, until an access succeeds. From then on it
is kept, and its URL does not matter any more:

* `Session.directoryRequest` — the request for the directory;
* `Client.FetchesDirectory` and `fetches_directory` — what an access does that has to ask;
* `Client.KnowsDirectory` — how accesses are answered from a directory that is known;
* `Client.directory_is_kept` — what the first access that succeeds means for all later operations.
-/

namespace AcmeClient

open Act

def Session.directoryRequest (s : Session) : Request where
  method := .get
  url := s.directoryUrl
  headers := Exchange.headersFor s (some Exchange.jsonType)
  verification := s.verification
  timeout := s.timeout
  body := none

namespace Client

/-- Whether a client sent nothing and has the same directory. -/
def Rests (c c' : Client) : Prop :=
  c'.sent = c.sent ∧ c'.session.directory = c.session.directory

/-- Whether a client sent one request and has the same directory. -/
def Asks (q : Request) (c c' : Client) : Prop :=
  c'.sent = c.sent ++ [q] ∧ c'.session.directory = c.session.directory

variable {c c₁ c₂ c₃ : Client} {q : Request}

theorem Rests.refl (c : Client) : c.Rests c :=
  ⟨rfl, rfl⟩

theorem Rests.trans (c₁ c₂ c₃ : Client) (h : c₁.Rests c₂) (h' : c₂.Rests c₃) : c₁.Rests c₃ :=
  ⟨h'.1.trans h.1, h'.2.trans h.2⟩

theorem Rests.of_quiet (c c' : Client) (hsession : c'.session = c.session)
    (hsent : c'.sent = c.sent) : c.Rests c' :=
  ⟨hsent, congrArg Session.directory hsession⟩

theorem Asks.trans (c₁ c₂ c₃ : Client) (h : c₁.Asks q c₂) (h' : c₂.Rests c₃) : c₁.Asks q c₃ :=
  ⟨h'.1.trans h.1, h'.2.trans h.2⟩

end Client

/-! ### Asking for the directory -/

namespace Exchange

/-- A plain request is one request, whatever comes of it. -/
theorem asks_sendPlain (env : Environment) (s : Client × Connection) (url wanted : String) :
    s.1.Asks ⟨.get, url, headersFor s.1.session (some wanted), s.1.session.verification,
      s.1.session.timeout, none⟩ ((sendPlain url wanted).run env s).2.1 := by
  have hsession : (onFirst Client.getSession : Exchange Session).run env s
      = (.ok s.1.session, s) := rfl
  rw [sendPlain, run_bind_of_ok env hsession]
  refine leads_bind (v := Prod.fst) (R := Client.Asks _) ?_ (fun r => ?_) (fun _ _ h => h)
    Client.Asks.trans
  · rw [run_send env s rfl]
    cases env.server (s.1.sent ++ [_]) with
    | failure text => exact ⟨rfl, rfl⟩
    | response r => exact ⟨rfl, rfl⟩
  · exact moves_bind Client.Rests.trans
      (moves_keepNonce Client.Rests.refl (fun _ _ => ⟨rfl, rfl⟩) r false) fun _ _ _ => .refl _

end Exchange

namespace Client

/-- So is the request for the directory. -/
theorem asks_fetchDirectory (env : Environment) (s : Client × Connection) :
    s.1.Asks s.1.session.directoryRequest
      ((fetchDirectory s.1.session.directoryUrl).run env s).2.1 := by
  refine leads_bind (v := Prod.fst) (R := Client.Asks _) (Exchange.asks_sendPlain env s _ _)
    (fun _ => ?_) (fun _ _ h => h) Client.Asks.trans
  have haccept : (Exchange.accept [200]).Moves Rests Prod.fst :=
    moves_of_isReading Rests.of_quiet (Exchange.isReading_accept _)
  have hread : Exchange.readJson.Moves Rests Prod.fst :=
    moves_of_isReading Rests.of_quiet Exchange.isReading_readJson
  refine moves_bind Rests.trans (moves_tryCatch Rests.trans ?_ ?_) fun _ => hread
  · exact moves_bind Rests.trans haccept fun _ _ _ => .refl _
  · -- a refusal is only worded anew
    intro e
    split
    · exact fun _ _ => .refl _
    · exact fun _ _ => .refl _

/-- What an access to a directory that is not known does: it sends the one request for it, and keeps
the directory if and only if the access succeeds. An access to a URL in the directory does the
same. -/
structure FetchesDirectory (env : Environment) (c : Client) : Prop where
  sent : (directory.run env c).2.sent = c.sent ++ [c.session.directoryRequest]
  kept : (directory.run env c).2.session.directory = (directory.run env c).1.toOption
  endpointUrl : ∀ name, ((endpointUrl name).run env c).2 = (directory.run env c).2

theorem run_endpointUrl (env : Environment) (c : Client) (name : String) :
    (endpointUrl name).run env c =
      ((directory.run env c).1.bind fun d => d.url name, (directory.run env c).2) := by
  rw [endpointUrl, run_bind]
  rcases directory.run env c with ⟨e | d, c'⟩
  · rfl
  · rfl

/-- An access to a directory that is not known fetches it. -/
theorem fetches_directory (env : Environment) {c : Client} (hc : c.session.directory = none) :
    c.FetchesDirectory env := by
  have hsession : getSession.run env c = (.ok c.session, c) := rfl
  have hasks : c.Asks c.session.directoryRequest
      ((connected (fetchDirectory c.session.directoryUrl)).run env c).2 := by
    rw [connected, run_within]
    exact asks_fetchDirectory env (c, .idle)
  suffices h : (directory.run env c).2.sent = c.sent ++ [c.session.directoryRequest] ∧
      (directory.run env c).2.session.directory = (directory.run env c).1.toOption from
    ⟨h.1, h.2, fun name => by rw [run_endpointUrl]⟩
  rw [directory, run_bind_of_ok env hsession, hc]
  dsimp only
  rw [run_bind]
  rcases hrun : (connected (fetchDirectory c.session.directoryUrl)).run env c with ⟨e | ms, c₁⟩
  · rw [hrun] at hasks
    exact ⟨hasks.1, hasks.2.trans hc⟩
  · rw [hrun] at hasks
    dsimp only
    rw [run_bind, run_lift]
    cases readDirectory ms with
    | error e => exact ⟨hasks.1, hasks.2.trans hc⟩
    | ok d => exact ⟨hasks.1, rfl⟩

/-! ### Keeping the directory -/

/-- How a client answers from a directory that is known: at once, and always in the same way. -/
structure KnowsDirectory (env : Environment) (d : Directory) (c : Client) : Prop where
  directory : directory.run env c = (.ok d, c)
  endpointUrl : ∀ name, (endpointUrl name).run env c = (d.url name, c)

theorem knowsDirectory (env : Environment) {d : Directory} {c : Client}
    (hc : c.session.directory = some d) : c.KnowsDirectory env d := by
  have hsession : getSession.run env c = (.ok c.session, c) := rfl
  have hdirectory : Client.directory.run env c = (.ok d, c) := by
    rw [Client.directory, run_bind_of_ok env hsession, hc]
    rfl
  refine ⟨hdirectory, fun name => ?_⟩
  rw [run_endpointUrl, hdirectory]
  rfl

/-- An access that succeeds leaves the directory that it gives. -/
theorem directory_of_run {env : Environment} {d : Directory} {c c' : Client}
    (h : directory.run env c = (.ok d, c')) : c'.session.directory = some d := by
  cases hc : c.session.directory with
  | none =>
    have hkept := (fetches_directory env hc).kept
    rw [h] at hkept
    exact hkept
  | some known =>
    have hknown := (knowsDirectory env hc).directory
    rw [hknown] at h
    cases h
    exact hc

/-- A client whose session has another URL for the directory. -/
def withDirectoryUrl (c : Client) (url : String) : Client :=
  { c with session := { c.session with directoryUrl := url } }

/-- A directory that is known stays, and its URL does not matter: the client is the same but for that
URL, whatever the URL is at the start. -/
theorem alike_of_known {d : Directory} {c : Client} (hc : c.session.directory = some d)
    (env : Environment) (os : List Operation) (url : String) :
    (c.after env os).Alike Eq (some d) ((c.withDirectoryUrl url).after env os) := by
  have hstart : c.Alike Eq (some d) (c.withDirectoryUrl url) := by
    refine ⟨⟨Key.likeness_eq.refl_option _, rfl, ?_, nofun⟩, ?_, rfl⟩
    · intro d' hd
      rw [hc]
      exact hd
    · exact List.forall₂_same.2 fun r _ => .refl Eq r
  have hos : List.Forall₂ (Operation.Alike Eq) os os := List.forall₂_same.2 fun o _ => .same o
  refine alike_after Key.likeness_eq hos hstart fun t t' ht _ _ => ⟨rfl, fun _ => ?_⟩
  rw [sent_of_alike ht]

/-- **The directory is kept.** As long as it is not known, each access sends one request for it, and
nothing is kept unless the access succeeds. Once an access has succeeded, every later one is answered
from the same directory, whatever is done in between; and what is done sends the same requests
whatever the URL of the directory has become, so that none of them is for the directory. -/
theorem directory_is_kept (env : Environment) (c : Client) :
    (c.session.directory = none → c.FetchesDirectory env) ∧
      ∀ d c₁, directory.run env c = (.ok d, c₁) → ∀ os : List Operation,
        (c₁.after env os).KnowsDirectory env d ∧
          ∀ url, ((c₁.withDirectoryUrl url).after env os).sent = (c₁.after env os).sent := by
  refine ⟨fetches_directory env, fun d c₁ hrun os => ?_⟩
  have hknown : c₁.session.directory = some d := directory_of_run hrun
  refine ⟨knowsDirectory env ?_, fun url => ?_⟩
  · exact (alike_of_known hknown env os c₁.session.directoryUrl).session.directory d rfl
  · exact sent_of_alike (alike_of_known hknown env os url)

def directoryServer : Server := fun _ =>
  .response ⟨200, none, ⟨[]⟩,
    Text.Utf8.encode "\x7b\"newNonce\": \"https://acme.test/nonce\"\x7d"⟩

/-- Accesses to the directory of that server, before and after the first one that succeeds. -/
theorem directory_is_kept_there :
    let env : Environment := ⟨directoryServer, fun _ => ⟨0, some 0⟩⟩
    let c := ofSession .sample
    let os := [Operation.directory, .takeNonce, .directory]
    c.session.directory = none ∧ c.FetchesDirectory env ∧
      ∃ d c₁, directory.run env c = (.ok d, c₁) ∧ (c₁.after env os).KnowsDirectory env d ∧
        (c₁.after env os).sent.map Request.method = [.get, .head] := by
  intro env c os
  obtain ⟨hfetches, hkept⟩ := directory_is_kept env c
  have hsome : (directory.run env c).1.toOption.isSome = true := by decide +kernel
  have hsent : ((directory.run env c).2.after env os).sent.map Request.method = [.get, .head] := by
    decide +kernel
  refine ⟨rfl, hfetches rfl, ?_⟩
  rcases hrun : directory.run env c with ⟨e | d, c₁⟩
  · rw [hrun] at hsome
    cases hsome
  · rw [hrun] at hsent
    exact ⟨d, c₁, rfl, (hkept d c₁ hrun os).1, hsent⟩

end Client

end AcmeClient
